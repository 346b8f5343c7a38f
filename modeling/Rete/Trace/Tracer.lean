import Rete.Session.Basic
import Rete.Trace.Buffer

/-!
# Tracers

A tracer listens to a session and records its events while it is enabled. A filter of kinds keeps
some events out of the buffer; firings are counted all the same.
-/

namespace Rete

/-- What a tracer records and how much of it. -/
structure TracerConfig where
  enabled : Bool := false
  capacity : Nat := 10000
  /-- The kinds of events that are recorded; all of them if none is named. -/
  filter : List String := []
  deriving DecidableEq, Inhabited

/-- A recorder of the events of a session. -/
structure Tracer where
  enabled : Bool
  filter : List String
  buffer : TraceBuffer
  /-- The number of firings that began while the tracer was enabled. -/
  firings : Nat := 0
  deriving DecidableEq, Inhabited

namespace Tracer

/-- A tracer that has recorded nothing. -/
def ofConfig (config : TracerConfig) : Tracer :=
  { enabled := config.enabled, filter := config.filter, buffer := { capacity := config.capacity } }

/-- Records from now on. -/
def enable (tracer : Tracer) : Tracer := { tracer with enabled := true }

/-- Records nothing from now on. -/
def disable (tracer : Tracer) : Tracer := { tracer with enabled := false }

/-- Forgets what is recorded. -/
def clear (tracer : Tracer) : Tracer := { tracer with buffer := tracer.buffer.clear }

/-- Whether the filter lets an event through. -/
def keeps (tracer : Tracer) (event : SessionEvent) : Bool :=
  tracer.filter.isEmpty || tracer.filter.contains event.kindName

/-- Takes note of an event at a time. -/
def record (tracer : Tracer) (nanoseconds : Nat) (event : SessionEvent) : Tracer :=
  if !tracer.enabled then tracer
  else
    let firings := match event with
      | .beforeFire .. => tracer.firings + 1
      | _ => tracer.firings
    let tracer := { tracer with firings }
    if tracer.keeps event then
      { tracer with buffer := (tracer.buffer.push firings nanoseconds event).2 }
    else tracer

/-- The lines of the last records, at most so many. -/
def recentText (tracer : Tracer) (count : Nat) : String :=
  ({} : TraceFormat).lines (tracer.buffer.recent count)

end Tracer

/-- A session with a tracer that may listen to it. -/
structure TracedSession where
  session : Session
  tracer : Option Tracer := none
  deriving Inhabited

namespace TracedSession

/-- Runs an operation on the session; the tracer takes note of its events. Nothing measures time
here, so they are all noted at time zero. -/
def perform {α : Type} (traced : TracedSession) (operation : SessionM α) :
    Except Error α × TracedSession :=
  let (result, run) := operation.on traced.session
  let tracer := traced.tracer.map fun tracer =>
    run.events.foldl (fun tracer event => tracer.record 0 event) tracer
  (result, { session := run.session, tracer })

/-- A summary of the session. -/
def summary (traced : TracedSession) : String :=
  traced.session.summary (if traced.tracer.isSome then 1 else 0)

end TracedSession

end Rete
