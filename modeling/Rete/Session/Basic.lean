import Rete.Agenda
import Rete.Network.Propagation
import Rete.Session.Event

/-!
# Sessions

A session holds facts and globals, what the network has matched of them, and the agenda. Every
change of a fact goes through the network at once; rules fire only when the caller says so
(`Rete.Session.Firing`). A session keeps the network that it started with.

An operation may fail and leave some of its effects behind, so operations are computations that
yield a result or an error together with the session afterwards and the events on the way
(`SessionM`).
-/

namespace Rete

/-- The types of the globals that a knowledge base declares. -/
abbrev GlobalTypes : Type := SortedMap String ValueType

/-- Limits of a session. -/
structure SessionConfig where
  /-- The greatest number of firings of one firing loop. -/
  maxActivations : Option Nat := none
  /-- The greatest number of calls of local functions open at once. -/
  maxCallDepth : Nat := defaultCallDepth
  deriving DecidableEq, Inhabited

/-- The state of a session. -/
structure Session where
  catalog : Catalog
  network : Network
  globalTypes : GlobalTypes
  config : SessionConfig := {}
  memory : WorkingMemory := {}
  matched : NetworkMemory := {}
  agenda : Agenda := {}
  /-- Whether a consequence has ended the last firing loop. -/
  halted : Bool := false
  /-- Whether the session was given up. -/
  disposed : Bool := false

/-- A session over the empty network. -/
instance : Inhabited Session := ⟨{ catalog := {}, network := {}, globalTypes := ∅ }⟩

namespace Session

/-- A summary of the session for the number of listeners that its events go to. -/
def summary (session : Session) (listeners : Nat) : String :=
  "Session \x7b facts: " ++ toString session.memory.facts.size ++ ", pending: " ++
    toString session.agenda.size ++ ", listeners: " ++ toString listeners ++ ", disposed: " ++
    (if session.disposed then "true" else "false") ++ ", .. \x7d"

/-- What conditions are tested against. -/
def view (session : Session) : FactView where
  catalog := session.catalog
  facts := session.memory.facts
  globals := session.memory.globals
  callDepth := session.config.maxCallDepth

end Session

/-- A session at work, with the events so far. -/
structure SessionRun where
  session : Session
  events : List SessionEvent := []
  /-- The errors that have ended a propagation, in order. -/
  failures : List Error := []
  deriving Inhabited

/-- An operation on a session. -/
abbrev SessionM : Type → Type := ExceptT Error (StateM SessionRun)

namespace SessionM

/-- Runs an operation; yields its result, the session afterwards and the events. -/
def on {α : Type} (operation : SessionM α) (session : Session) : Except Error α × SessionRun :=
  ExceptT.run operation |>.run { session }

/-- A result that does not depend on the session. -/
def liftResult {α : Type} (result : Except Error α) : SessionM α := ExceptT.mk (pure result)

/-- The outcome of an operation, whether it failed or not. -/
def outcome {α : Type} (operation : SessionM α) : SessionM (Except Error α) :=
  ExceptT.mk (Except.ok <$> ExceptT.run operation)

/-- The session at this point. -/
def session : SessionM Session := return (← get).session

/-- Changes the session. -/
def update (change : Session → Session) : SessionM Unit :=
  modify fun run => { run with session := change run.session }

/-- Tells of an event. -/
def notify (event : SessionEvent) : SessionM Unit :=
  modify fun run => { run with events := run.events ++ [event] }

/-- Fails with what has ended a propagation. -/
def failure {α : Type} (error : Error) : SessionM α := do
  modify fun run => { run with failures := run.failures ++ [error] }
  throw error

/-- Fails if the session was given up. -/
def ensureLive : SessionM Unit := do
  if (← session).disposed then throw (Cause.sessionDisposed : Error)

/-- Fails if the type of a fact is not in the catalog. -/
def checkType (fact : Object) : SessionM Unit := do
  if !(← session).catalog.contains fact.typeName then
    throw (Cause.unknownType fact.typeName : Error)

/-! ## Matches -/

/-- Tells of an event that names a rule. -/
def notifyOf (rule : RuleId) (event : RuleRef → SessionEvent) : SessionM Unit := do
  match (← session).network.rule? rule with
  | some found => notify (event (.ofRule rule found))
  | none => return

/-- Brings a change of the complete matches to the agenda. -/
def applyChange : MatchChange → SessionM Unit
  | .found terminal tuple => do
    let (sequence?, agenda) := (← session).agenda.activate terminal tuple
    update fun session => { session with agenda }
    match sequence? with
    | some sequence => notifyOf terminal.rule (.activationCreated · tuple sequence)
    | none => return
  | .lost rule stem => do
    let (cancelled, agenda) := (← session).agenda.deactivate rule stem
    update fun session => { session with agenda }
    cancelled.forM fun activation => notifyOf rule (.activationCancelled · activation.tuple)

/-- Lets the network follow a change. What it matched before it failed counts. -/
def propagate (step : Network → FactView → MatchM Unit) : SessionM Unit := do
  let before ← session
  let (result, after) :=
    ExceptT.run (step before.network before.view) |>.run { memory := before.matched }
  update fun session => { session with matched := after.memory }
  after.changes.forM applyChange
  match result with
  | .ok _ => return
  | .error error => failure error

/-- Starts the rules and conditions that need no fact. -/
def seed : SessionM Unit := propagate MatchM.seed

end SessionM

end Rete
