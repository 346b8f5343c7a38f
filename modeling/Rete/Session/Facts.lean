import Rete.Session.Basic

/-!
# Facts and globals of a session

Inserting, updating and retracting facts, setting globals, and giving up a session.
-/

namespace Rete.SessionM

/-- Inserts a fact and yields its handle. If a condition fails to evaluate, the fact is taken
back. -/
def insert (fact : Object) : SessionM Handle := do
  ensureLive
  checkType fact
  let (handle, memory) := (← session).memory.allocate
  update fun session => { session with memory := memory.put handle fact }
  notify (.factInserted handle fact.typeName)
  match ← outcome (propagate (MatchM.assert · · handle)) with
  | .ok _ => return handle
  | .error error =>
    let _ ← outcome (propagate (MatchM.retract · · handle))
    update fun session => { session with memory := session.memory.remove handle }
    notify (.factRetracted handle fact.typeName)
    throw error

/-- Fails if a fact is not live. -/
def expectFact (handle : Handle) : SessionM Unit := do
  if !(← session).memory.contains handle then throw (Cause.unknownFact handle : Error)

/-- Replaces a fact under its handle. Its matches are withdrawn and found anew. -/
def updateFact (handle : Handle) (fact : Object) : SessionM Unit := do
  ensureLive
  expectFact handle
  checkType fact
  propagate (MatchM.retract · · handle)
  update fun session => { session with memory := session.memory.put handle fact }
  notify (.factUpdated handle fact.typeName)
  propagate (MatchM.assert · · handle)

/-- Retracts a fact and yields it. The fact is gone even if a condition fails to evaluate. -/
def retract (handle : Handle) : SessionM Object := do
  ensureLive
  match (← session).memory.fact? handle with
  | none => throw (Cause.unknownFact handle : Error)
  | some fact =>
    let result ← outcome (propagate (MatchM.retract · · handle))
    update fun session => { session with memory := session.memory.remove handle }
    notify (.factRetracted handle fact.typeName)
    liftResult result
    return fact

/-- Sets a declared global to a value that its type accepts. -/
def assignGlobal (name : String) (value : Value) : SessionM Unit := do
  match (← session).globalTypes.find? name with
  | none => throw (Cause.unknownGlobal name : Error)
  | some declared =>
    if declared.accepts value.type then
      update fun session => { session with memory := session.memory.setGlobal name value }
    else throw (Cause.typeMismatch declared value.type : Error)

/-- Sets a global. Conditions that read it are not tested again. -/
def setGlobal (name : String) (value : Value) : SessionM Unit := do
  ensureLive
  assignGlobal name value

/-- Gives up the session: its facts, globals and matches are dropped, and later operations
fail. -/
def dispose : SessionM Unit := do
  if !(← session).disposed then
    update fun session =>
      { session with memory := {}, matched := {}, agenda := session.agenda.clear, disposed := true }
    notify .disposed

end Rete.SessionM
