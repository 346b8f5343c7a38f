import Rete.Session.Facts

/-!
# Firing rules

The firing loop takes the waiting matches one by one in the order of the agenda and runs their
consequences, which may insert, update and retract facts and so change what waits. It ends when
nothing waits, when a consequence halts it, when its budget is used up, or with an error: a
consequence that fails, or a configured number of firings that is reached.

Firings are counted in 32 bits, so a loop without a budget has one of `2 ^ 32` firings.
-/

namespace Rete.SessionM

/-! ## Consequences -/

/-- The value of an expression of a consequence. -/
def evaluate (functions : FunctionTable) (tuple : Tuple) (frame : List Value) (e : Expr) :
    SessionM Value := do
  let before ← session
  let evaluation : Evaluation :=
    { catalog := before.catalog, functions, callDepth := before.config.maxCallDepth,
      facts := before.memory.facts, access := .readWrite }
  let (result, globals) := (evaluation.eval { tuple } frame e).run before.memory.globals
  update fun session => { session with memory := { session.memory with globals } }
  liftResult result

/-- The handle that a variable of a consequence is bound to. -/
def handleAt (tuple : Tuple) (index : Nat) (var : String) : Except Error Handle :=
  match tuple[index]? with
  | some handle => .ok handle
  | none =>
    .error (Cause.internal ("'" ++ var ++ "' is not bound to a matched fact") : Error)

/-- The values of assignments, from left to right. -/
def evaluateAssignments (functions : FunctionTable) (tuple : Tuple) (frame : List Value) :
    List (String × Expr) → SessionM (List (String × Value))
  | [] => return []
  | (field, e) :: rest => do
    let value ← evaluate functions tuple frame e
    return (field, value) :: (← evaluateAssignments functions tuple frame rest)

/-- Runs an action; yields the frame afterwards. -/
def runAction (functions : FunctionTable) (tuple : Tuple) (frame : List Value) :
    Action → SessionM (List Value)
  | .eval e => do
    let _ ← evaluate functions tuple frame e
    return frame
  | .bind slot e => do
    let value ← evaluate functions tuple frame e
    if slot < frame.length then return frame.set slot value
    throw (Cause.internal ("frame slot " ++ toString slot ++ " out of range") : Error)
  | .insert e => do
    match ← evaluate functions tuple frame e with
    | .object typeName fields =>
      let _ ← insert ⟨typeName, fields⟩
      return frame
    | other => throw (Value.mismatch (.object "fact") other)
  | .modify index var assignments => do
    let handle ← liftResult (handleAt tuple index var)
    let values ← evaluateAssignments functions tuple frame assignments
    match (← session).memory.fact? handle with
    | none => throw (Cause.unknownFact handle : Error)
    | some current =>
      updateFact handle (values.foldl (fun fact (field, value) => fact.set field value) current)
      return frame
  | .retract index var => do
    let _ ← retract (← liftResult (handleAt tuple index var))
    return frame
  | .setGlobal name e => do
    assignGlobal name (← evaluate functions tuple frame e)
    return frame
  | .halt => do
    update fun session => { session with halted := true }
    return frame

/-- Runs actions one after the other. -/
def runActions (functions : FunctionTable) (tuple : Tuple) (frame : List Value) :
    List Action → SessionM Unit
  | [] => return
  | action :: rest => do
    let frame ← runAction functions tuple frame action
    runActions functions tuple frame rest

/-- Runs the consequence of a rule for the facts that it matched. -/
def execute (rule : Rule) (tuple : Tuple) : SessionM Unit :=
  runActions rule.functions tuple (List.replicate rule.consequence.frameSize .nil)
    rule.consequence.actions

/-! ## The loop -/

/-- Ends a firing. -/
def finishFiring : SessionM Unit :=
  update fun session => { session with agenda := session.agenda.finishFiring }

/-- Takes the first waiting match whose facts are all live, with its rule; those before it are
passed over. At most `waiting` matches are looked at. -/
def takeNext : (waiting : Nat) → SessionM (Option (Activation × Rule))
  | 0 => return none
  | waiting + 1 => do
    match (← session).agenda.pop? with
    | none => return none
    | some (next, agenda) =>
      update fun session => { session with agenda }
      match (← session).network.rule? next.rule with
      | none =>
        finishFiring
        throw (Cause.internal ("activation for unknown rule " ++ next.rule.text) : Error)
      | some rule =>
        if next.tuple.all (← session).memory.contains then return some (next, rule)
        finishFiring
        takeNext waiting

/-- Fails if a configured number of firings is reached. -/
def checkLimit (fired : Nat) : SessionM Unit := do
  let session ← session
  match session.config.maxActivations with
  | some limit =>
    if limit ≤ fired then
      let next := session.agenda.peek?.bind fun next => session.network.rule? next.rule
      throw (Cause.limitExceeded (.activations limit (next.map Rule.qualifiedName)) : Error)
  | none => return

/-- Fires a rule on a match that was taken off the agenda. -/
def fire (next : Activation) (rule : Rule) : SessionM Unit := do
  let named := RuleRef.ofRule next.rule rule
  notify (.beforeFire named next.tuple next.sequence)
  let result ← outcome (execute rule next.tuple)
  finishFiring
  match result with
  | .error source =>
    throw ((Error.of (.consequenceFailure rule.name source)).withContext
      { source := rule.qualifiedName, frames := ["rule " ++ rule.name] })
  | .ok _ =>
    notify (.afterFire named next.tuple)
    if (← session).halted then notify .halted

/-- Fires until nothing waits, a consequence halts the loop or the budget is used up; yields the
number of firings. -/
def fireLoop : (budget : Nat) → (fired : Nat) → SessionM Nat
  | 0, fired => return fired
  | budget + 1, fired => do
    let before ← session
    if before.halted || before.agenda.isEmpty then return fired
    checkLimit fired
    match ← takeNext before.agenda.size with
    | none => return fired
    | some (next, rule) =>
      fire next rule
      fireLoop budget (fired + 1)

/-- Fires at most a given number of rules, or as many as there are to fire. -/
def fireRules (budget : Option Nat) : SessionM Nat := do
  ensureLive
  update fun session => { session with halted := false }
  fireLoop (budget.getD (Nat.pow 2 32)) 0

end Rete.SessionM
