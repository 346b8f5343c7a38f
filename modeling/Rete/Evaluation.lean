import Rete.Expr
import Rete.WorkingMemory

/-!
# Evaluation

The value of a compiled expression, from the facts and globals of a session, the tuple of
matched facts, the fact under test and the slots of a frame. Only globals can change on the
way; a change made before an error stays, so an evaluation yields a result and the globals
after it in every case.

`Expr.evalWith` is a recursion on the expression that leaves calls of local functions to its
first argument; `Evaluation.callLocal` closes the knot by recursion on the number of calls that
may still be opened.
-/

namespace Rete

/-- What an expression may do with globals. -/
inductive GlobalAccess where
  /-- Consequences read and write them. -/
  | readWrite
  /-- Conditions only read them. -/
  | readOnly
  /-- Constant expressions have none. -/
  | absent
  deriving DecidableEq, Inhabited

/-- A computation that reads and changes globals and may fail. -/
abbrev GlobalsM : Type → Type := ExceptT Error (StateM Globals)

namespace GlobalsM

/-- A result that does not depend on globals. -/
def liftResult {α : Type} (result : Except Error α) : GlobalsM α := ExceptT.mk (pure result)

/-- The value of a global; nil if it has not been set. -/
def read (name : String) : GlobalsM Value := do return ((← get).find? name).getD .nil

end GlobalsM

/-- Nesting limit for calls of local functions, unless another is set. -/
def defaultCallDepth : Nat := 64

/-- What an evaluation takes from its surroundings and does not change. -/
structure Evaluation where
  catalog : Catalog
  functions : FunctionTable
  callDepth : Nat := defaultCallDepth
  facts : Facts := ∅
  access : GlobalAccess := .readOnly

/-- The facts that an expression can see. -/
structure MatchScope where
  /-- The facts matched by earlier patterns. -/
  tuple : List Handle := []
  /-- The fact under test. -/
  current : Option Object := none

/-- No tuple, no fact under test and no locals. -/
instance : Inhabited MatchScope := ⟨{}⟩

namespace Evaluation

/-- Sets a global, if the evaluation may do so. -/
def writeGlobal (evaluation : Evaluation) (name : String) (value : Value) : GlobalsM Unit :=
  match evaluation.access with
  | .readWrite => modify fun globals => globals.insert name value
  | .readOnly =>
    throw (Cause.internal ("global '" ++ name ++ "' cannot be changed while matching") : Error)
  | .absent => throw (Cause.unknownGlobal name : Error)

/-- The fact at an index of the tuple. -/
def tupleFact (evaluation : Evaluation) (scope : MatchScope) (index : Nat) :
    Except Error Object :=
  match scope.tuple[index]? with
  | none =>
    .error (Cause.internal ("tuple has no fact at index " ++ toString index) : Error)
  | some handle =>
    match evaluation.facts.find? handle with
    | none => .error (Cause.unknownFact handle : Error)
    | some fact => .ok fact

end Evaluation

/-- The value of a field; nil if it is not set. -/
def Object.fieldOrNil (o : Object) (field : String) : Value := (o.get? field).getD .nil

/-- A way to call local functions: by name, for messages, and index. -/
abbrev LocalCall : Type := String → Nat → List Value → GlobalsM Value

open GlobalsM in
mutual

/-- The value of an expression, with a way to call local functions. -/
def Expr.evalWith (callLocal : LocalCall) (evaluation : Evaluation) (scope : MatchScope)
    (frame : List Value) : Expr → GlobalsM Value
  | .const value => return value
  | .slot index =>
    match frame[index]? with
    | some value => return value
    | none => throw (Cause.internal ("frame slot " ++ toString index ++ " out of range") : Error)
  | .fact index => do return .ofObject (← liftResult (evaluation.tupleFact scope index))
  | .factField index name => do
    return (← liftResult (evaluation.tupleFact scope index)).fieldOrNil name
  | .currentField name =>
    match scope.current with
    | some tested => return tested.fieldOrNil name
    | none => throw (Cause.internal ("no fact under test for field '" ++ name ++ "'") : Error)
  | .global name => read name
  | .field target name => do
    match ← target.evalWith callLocal evaluation scope frame with
    | .object typeName fields => return (Object.mk typeName fields).fieldOrNil name
    | other => throw (Cause.unknownField other.type.text name : Error)
  | .call name callee args => do
    let args ← Expr.evalAllWith callLocal evaluation scope frame args
    match callee with
    | .native native => liftResult (evaluation.catalog.call native args)
    | .localFunction index => callLocal name index args
  | .method receiver called args => do
    let receiver ← receiver.evalWith callLocal evaluation scope frame
    let args ← Expr.evalAllWith callLocal evaluation scope frame args
    liftResult (called.invoke receiver args)
  | .updateGlobal name update args => do
    let args ← Expr.evalAllWith callLocal evaluation scope frame args
    match update.apply (← read name) args with
    | .error error => throw (error.withContext (.mk none none ["global " ++ name]))
    | .ok (updated, result) =>
      evaluation.writeGlobal name updated
      return result
  | .construct type args => do
    let args ← Expr.evalAllWith callLocal evaluation scope frame args
    return .ofObject (← liftResult (type.instantiate args))
  | .binary .and left right => do
    if ← liftResult (← left.evalWith callLocal evaluation scope frame).truth then
      return .bool (← liftResult (← right.evalWith callLocal evaluation scope frame).truth)
    return .bool false
  | .binary .or left right => do
    if ← liftResult (← left.evalWith callLocal evaluation scope frame).truth then
      return .bool true
    return .bool (← liftResult (← right.evalWith callLocal evaluation scope frame).truth)
  | .binary op left right => do
    let left ← left.evalWith callLocal evaluation scope frame
    let right ← right.evalWith callLocal evaluation scope frame
    liftResult (op.apply left right)
  | .unary op operand => do
    liftResult (op.apply (← operand.evalWith callLocal evaluation scope frame))

/-- The values of expressions, from left to right. -/
def Expr.evalAllWith (callLocal : LocalCall) (evaluation : Evaluation) (scope : MatchScope)
    (frame : List Value) : List Expr → GlobalsM (List Value)
  | [] => return []
  | e :: rest => do
    let value ← e.evalWith callLocal evaluation scope frame
    return value :: (← Expr.evalAllWith callLocal evaluation scope frame rest)

end

namespace Evaluation

/-- The frame of a call: the arguments, and nil in the slots after them. -/
def callFrame (function : FunctionBody) (args : List Value) : List Value :=
  args ++ List.replicate (function.frameSize - args.length) .nil

/-- Calls a local function when `remaining` more calls may be opened. A function sees its
arguments and the globals, but no facts. -/
def callLocal (evaluation : Evaluation) : (remaining : Nat) → LocalCall
  | remaining, name, index, args =>
    match evaluation.functions.functions[index]? with
    | none =>
      throw (Cause.internal ("function '" ++ name ++ "' is not defined in package " ++
        evaluation.functions.package) : Error)
    | some function =>
      match remaining with
      | 0 => throw (Cause.limitExceeded (.callDepth evaluation.callDepth (some name)) : Error)
      | remaining + 1 =>
        function.body.evalWith (evaluation.callLocal remaining) evaluation {}
          (callFrame function args)

/-- The value of an expression. -/
def eval (evaluation : Evaluation) (scope : MatchScope) (frame : List Value) (e : Expr) :
    GlobalsM Value :=
  e.evalWith (evaluation.callLocal evaluation.callDepth) evaluation scope frame

/-- Whether a condition holds; it sees the globals and cannot change them. -/
def test (evaluation : Evaluation) (globals : Globals) (scope : MatchScope) (e : Expr) :
    Except Error Bool := do
  let value ← (({ evaluation with access := .readOnly }.eval scope [] e).run globals).1
  value.truth

end Evaluation

end Rete
