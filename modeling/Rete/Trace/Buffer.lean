import Rete.SortedMap
import Rete.Trace.Record

/-!
# The trace buffer

The most recent records of a trace, up to a capacity. Records are numbered in the order in which
they come; when the buffer is full the oldest one is evicted. Clearing drops records without
counting them as evicted, and numbers go on.
-/

namespace Rete

/-- The most recent records. -/
structure TraceBuffer where
  capacity : Nat
  /-- The records, oldest first. -/
  records : List TraceRecord := []
  /-- The number that the next record gets. -/
  nextId : Nat := 0
  /-- The number of records that were dropped to make room. -/
  evicted : Nat := 0
  deriving DecidableEq, Inhabited

namespace TraceBuffer

/-- Records an event; yields the number of the record. -/
def push (buffer : TraceBuffer) (firing nanoseconds : Nat) (event : SessionEvent) :
    Nat × TraceBuffer :=
  let records := buffer.records ++ [⟨buffer.nextId, firing, nanoseconds, event⟩]
  let excess := records.length - buffer.capacity
  (buffer.nextId,
    { buffer with
      records := records.drop excess
      nextId := buffer.nextId + 1
      evicted := buffer.evicted + excess })

/-- Forgets the records, but not what was numbered or dropped so far. -/
def clear (buffer : TraceBuffer) : TraceBuffer := { buffer with records := [] }

/-- The number of records held. -/
def size (buffer : TraceBuffer) : Nat := buffer.records.length

/-- The latest record held. -/
def last? (buffer : TraceBuffer) : Option TraceRecord := buffer.records.getLast?

/-- The last records, at most so many. -/
def recent (buffer : TraceBuffer) (count : Nat) : List TraceRecord :=
  buffer.records.drop (buffer.size - count)

/-- The records of a firing. -/
def ofFiring (buffer : TraceBuffer) (firing : Nat) : List TraceRecord :=
  buffer.records.filter fun record => record.firing == firing

/-- The records of a kind of events. -/
def ofKind (buffer : TraceBuffer) (kind : String) : List TraceRecord :=
  buffer.records.filter fun record => record.event.kindName == kind

/-- The number of records of each kind of events. -/
def counts (buffer : TraceBuffer) : SortedMap String Nat :=
  buffer.records.foldl (fun counts record =>
    let kind := record.event.kindName
    counts.insert kind ((counts.find? kind).getD 0 + 1)) ∅

end TraceBuffer

end Rete
