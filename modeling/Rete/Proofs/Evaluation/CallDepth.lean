import Rete.Proofs.Evaluation
import Rete.Proofs.Unbounded

/-!
# Nested calls

`Evaluation.tally` evaluates the body of whichever function is called, and keeps count of the calls
that it opens and closes. Its fuel is not the limit on nested calls, which is checked against that
count. Followed deep enough it comes to an end in every case, and does what `Evaluation.eval` does
(`Expr.tallyWith_follows`, `Evaluation.callLocal_follows`). A larger limit on the calls that are
open at once changes nothing about an evaluation that is not cut off
(`Evaluation.callLocal_stable`).
-/

namespace Rete

/-- What an evaluator keeps track of: the globals, how many local calls are open, and how many were
open at most. -/
structure Tally where
  globals : Globals
  opened : Nat := 0
  peak : Nat := 0

namespace Tally

/-- One more call is open. -/
def enter (tally : Tally) : Tally where
  globals := tally.globals
  opened := tally.opened + 1
  peak := max tally.peak (tally.opened + 1)

/-- A call is closed. -/
def leave (tally : Tally) : Tally := { tally with opened := tally.opened - 1 }

end Tally

/-- A computation that keeps a tally. -/
abbrev TallyM : Type → Type := UnboundedM Error Tally

namespace TallyM

variable {α : Type}

/-- A computation on the globals opens no calls. -/
def lift (operation : GlobalsM α) : TallyM α :=
  ExceptT.mk fun tally =>
    let (result, globals) := operation.run.run tally.globals
    some (result, { tally with globals })

/-- A computation while one more call is open, which is closed whether it succeeds or fails. -/
def nested (body : TallyM α) : TallyM α := ExceptT.mk do
  modify Tally.enter
  let result ← body.run
  modify Tally.leave
  return result

end TallyM

/-! ## An evaluator that counts calls -/

/-- A way to call local functions that keeps a tally. -/
abbrev TallyCall : Type := String → Nat → List Value → TallyM Value

open GlobalsM TallyM in
mutual

/-- Evaluates an expression, with a way to call local functions. -/
def Expr.tallyWith (call : TallyCall) (evaluation : Evaluation) (scope : MatchScope)
    (frame : List Value) : Expr → TallyM Value
  | .const value => return value
  | .slot index =>
    match frame[index]? with
    | some value => return value
    | none => throw (Cause.internal ("frame slot " ++ toString index ++ " out of range") : Error)
  | .fact index => do return .ofObject (← lift (liftResult (evaluation.tupleFact scope index)))
  | .factField index name => do
    return (← lift (liftResult (evaluation.tupleFact scope index))).fieldOrNil name
  | .currentField name =>
    match scope.current with
    | some tested => return tested.fieldOrNil name
    | none => throw (Cause.internal ("no fact under test for field '" ++ name ++ "'") : Error)
  | .global name => lift (read name)
  | .field target name => do
    match ← target.tallyWith call evaluation scope frame with
    | .object typeName fields => return (Object.mk typeName fields).fieldOrNil name
    | other => throw (Cause.unknownField other.type.text name : Error)
  | .call name callee args => do
    let args ← Expr.tallyAllWith call evaluation scope frame args
    match callee with
    | .native native => lift (liftResult (evaluation.catalog.call native args))
    | .localFunction index => call name index args
  | .method receiver called args => do
    let receiver ← receiver.tallyWith call evaluation scope frame
    let args ← Expr.tallyAllWith call evaluation scope frame args
    lift (liftResult (called.invoke receiver args))
  | .updateGlobal name update args => do
    let args ← Expr.tallyAllWith call evaluation scope frame args
    match update.apply (← lift (read name)) args with
    | .error error => throw (error.withContext (.mk none none ["global " ++ name]))
    | .ok (updated, result) =>
      lift (evaluation.writeGlobal name updated)
      return result
  | .construct type args => do
    let args ← Expr.tallyAllWith call evaluation scope frame args
    return .ofObject (← lift (liftResult (type.instantiate args)))
  | .binary .and left right => do
    if ← lift (liftResult (← left.tallyWith call evaluation scope frame).truth) then
      return .bool (← lift (liftResult (← right.tallyWith call evaluation scope frame).truth))
    return .bool false
  | .binary .or left right => do
    if ← lift (liftResult (← left.tallyWith call evaluation scope frame).truth) then
      return .bool true
    return .bool (← lift (liftResult (← right.tallyWith call evaluation scope frame).truth))
  | .binary op left right => do
    let left ← left.tallyWith call evaluation scope frame
    let right ← right.tallyWith call evaluation scope frame
    lift (liftResult (op.apply left right))
  | .unary op operand => do
    lift (liftResult (op.apply (← operand.tallyWith call evaluation scope frame)))

/-- Evaluates expressions from left to right. -/
def Expr.tallyAllWith (call : TallyCall) (evaluation : Evaluation) (scope : MatchScope)
    (frame : List Value) : List Expr → TallyM (List Value)
  | [] => return []
  | e :: rest => do
    let value ← e.tallyWith call evaluation scope frame
    return value :: (← Expr.tallyAllWith call evaluation scope frame rest)

end

namespace Evaluation

/-- Calls a local function: as long as fewer calls are open than the limit allows, its body is
evaluated while one more is open. -/
def tallyCall (evaluation : Evaluation) : (fuel : Nat) → TallyCall
  | 0, _, _, _ => .outOfFuel
  | fuel + 1, name, index, args =>
    match evaluation.functions.functions[index]? with
    | none =>
      throw (Cause.internal ("function '" ++ name ++ "' is not defined in package " ++
        evaluation.functions.package) : Error)
    | some function => do
      if evaluation.callDepth ≤ (← get).opened then
        throw (Cause.limitExceeded (.callDepth evaluation.callDepth (some name)) : Error)
      else
        let frame := callFrame function args
        .nested (function.body.tallyWith (evaluation.tallyCall fuel) evaluation {} frame)

/-- Evaluates an expression, and the bodies of the functions that are called. -/
def tally (evaluation : Evaluation) (fuel : Nat) (scope : MatchScope) (frame : List Value)
    (e : Expr) : TallyM Value :=
  e.tallyWith (evaluation.tallyCall fuel) evaluation scope frame

end Evaluation

/-! ## Every evaluation ends -/

/-- With some calls open, a computation that keeps a tally ends like one that does not, however
deep it is followed: it has the same result and leaves the same globals. All calls that it opens are
closed, and not more than the limit are open at once. -/
def Follows {α : Type} (limit opened : Nat) (tallied : Nat → TallyM α) (plain : GlobalsM α) :
    Prop :=
  ∀ globals peak, ∃ highest ≤ max peak limit, ∀ extra,
    (tallied extra).Yields ⟨globals, opened, peak⟩ (plain.run.run globals).1
      ⟨(plain.run.run globals).2, opened, highest⟩

namespace Follows

open GlobalsM

variable {α β : Type} {limit opened : Nat}

/-- An operation that calls nothing follows itself at every depth. -/
theorem lift (operation : GlobalsM α) :
    Follows limit opened (fun _ => TallyM.lift operation) operation :=
  fun _ peak => ⟨peak, Nat.le_max_left .., fun _ => rfl⟩

private theorem pure (a : α) : Follows limit opened (fun _ => Pure.pure a) (Pure.pure a) :=
  lift (Pure.pure a)

private theorem throw (error : Error) :
    Follows limit opened (fun _ => (throw error : TallyM α)) (throw error : GlobalsM α) :=
  lift (throwThe Error error)

private theorem bind {tallied : Nat → TallyM β} {plain : GlobalsM β} {next : Nat → β → TallyM α}
    {onward : β → GlobalsM α} (first : Follows limit opened tallied plain)
    (each : ∀ value, Follows limit opened (fun extra => next extra value) (onward value)) :
    Follows limit opened (fun extra => tallied extra >>= next extra) (plain >>= onward) := by
  intro globals peak
  obtain ⟨highest, bounded, yields⟩ := first globals peak
  cases outcome : plain.run.run globals with
  | mk result between =>
  rw [run_bind_eq, outcome]
  rw [outcome] at yields
  cases result with
  | error e => exact ⟨highest, bounded, fun extra => (yields extra).bind_error (next extra)⟩
  | ok value =>
      obtain ⟨last, boundedLast, rest⟩ := each value between highest
      exact ⟨last, by omega, fun extra => (yields extra).bind (rest extra)⟩

/-- What depends on how many calls are open. -/
theorem counted {next : Nat → Tally → TallyM α} {plain : GlobalsM α}
    (each : ∀ tally, tally.opened = opened →
      Follows limit opened (fun extra => next extra tally) plain) :
    Follows limit opened (fun extra => get >>= next extra) plain :=
  fun globals peak => each ⟨globals, opened, peak⟩ rfl globals peak

/-- A call that is open while its body is evaluated. -/
theorem nested {tallied : Nat → TallyM α} {plain : GlobalsM α}
    (body : Follows limit (opened + 1) tallied plain) (below : opened < limit) :
    Follows limit opened (fun extra => (tallied extra).nested) plain := by
  intro globals peak
  obtain ⟨highest, bounded, yields⟩ := body globals (max peak (opened + 1))
  refine ⟨highest, by omega, fun extra => ?_⟩
  change ((tallied extra).run.run ⟨globals, opened + 1, max peak (opened + 1)⟩).bind _ = _
  rw [show (tallied extra).run.run _ = some _ from yields extra]
  rfl

/-- What ends however deep it is followed beyond some depth ends. -/
theorem endsWith (recursion : Nat → TallyM α) {plain : GlobalsM α} (enough : Nat)
    (follows : Follows limit opened (fun extra => recursion (extra + enough)) plain)
    (globals : Globals) (peak : Nat) : ∃ highest ≤ max peak limit,
      UnboundedM.EndsWith recursion ⟨globals, opened, peak⟩ (plain.run.run globals).1
        ⟨(plain.run.run globals).2, opened, highest⟩ := by
  obtain ⟨highest, bounded, yields⟩ := follows globals peak
  exact ⟨highest, bounded, .of_extra yields⟩

end Follows

section

open GlobalsM

/-- Calls of local functions that keep a tally end like those that do not. -/
def CallsFollow (limit opened : Nat) (tallied : Nat → TallyCall) (call : LocalCall) : Prop :=
  ∀ name index args,
    Follows limit opened (fun extra => tallied extra name index args) (call name index args)

variable {limit opened : Nat} {evaluation : Evaluation} {tallied : Nat → TallyCall}
  {call : LocalCall}

mutual

/-- An expression is evaluated likewise where calls are. -/
theorem Expr.tallyWith_follows (calls : CallsFollow limit opened tallied call)
    (scope : MatchScope) (frame : List Value) : (e : Expr) →
    Follows limit opened (fun extra => e.tallyWith (tallied extra) evaluation scope frame)
      (e.evalWith call evaluation scope frame)
  | .const value => by
      simp only [tallyWith, evalWith]
      exact .pure value
  | .slot index => by
      simp only [tallyWith, evalWith]
      cases frame[index]? with
      | none => exact .throw _
      | some value => exact .pure value
  | .fact index => by
      simp only [tallyWith, evalWith]
      exact (Follows.lift _).bind fun _ => .pure _
  | .factField index name => by
      simp only [tallyWith, evalWith]
      exact (Follows.lift _).bind fun _ => .pure _
  | .currentField name => by
      simp only [tallyWith, evalWith]
      cases scope.current with
      | none => exact .throw _
      | some tested => exact .pure _
  | .global name => by
      simp only [tallyWith, evalWith]
      exact .lift _
  | .field target name => by
      simp only [tallyWith, evalWith]
      apply (target.tallyWith_follows calls scope frame).bind
      intro value
      cases value with
      | object => exact .pure _
      | nil | bool | int | float | string | list => exact .throw _
  | .call name callee args => by
      simp only [tallyWith, evalWith]
      apply (tallyAllWith_follows calls scope frame args).bind
      intro values
      cases callee with
      | native native => exact .lift _
      | localFunction index => exact calls name index values
  | .method receiver called args => by
      simp only [tallyWith, evalWith]
      apply (receiver.tallyWith_follows calls scope frame).bind
      intro value
      exact (tallyAllWith_follows calls scope frame args).bind fun values => .lift _
  | .updateGlobal name update args => by
      simp only [tallyWith, evalWith]
      apply (tallyAllWith_follows calls scope frame args).bind
      intro values
      apply (Follows.lift (read name)).bind
      intro value
      cases update.apply value values with
      | error error => exact .throw _
      | ok changed => exact (Follows.lift _).bind fun _ => .pure _
  | .construct type args => by
      simp only [tallyWith, evalWith]
      apply (tallyAllWith_follows calls scope frame args).bind
      exact fun values => (Follows.lift _).bind fun _ => .pure _
  | .binary op left right => by
      have leftFollows := left.tallyWith_follows calls scope frame
      have rightFollows := right.tallyWith_follows calls scope frame
      have truth : Follows limit opened
          (fun extra => do
            let value ← right.tallyWith (tallied extra) evaluation scope frame
            return Value.bool (← TallyM.lift (liftResult value.truth)))
          (do
            let value ← right.evalWith call evaluation scope frame
            return Value.bool (← liftResult value.truth)) :=
        rightFollows.bind fun _ => (Follows.lift _).bind fun _ => .pure _
      cases op with
      | and =>
          simp only [tallyWith, evalWith]
          apply leftFollows.bind
          intro value
          apply (Follows.lift (liftResult value.truth)).bind
          intro isTrue
          cases isTrue with
          | true => exact truth
          | false => exact .pure _
      | or =>
          simp only [tallyWith, evalWith]
          apply leftFollows.bind
          intro value
          apply (Follows.lift (liftResult value.truth)).bind
          intro isTrue
          cases isTrue with
          | true => exact .pure _
          | false => exact truth
      | _ =>
          simp only [tallyWith, evalWith]
          exact leftFollows.bind fun _ => rightFollows.bind fun _ => .lift _
  | .unary op operand => by
      simp only [tallyWith, evalWith]
      exact (operand.tallyWith_follows calls scope frame).bind fun value => .lift _

private theorem Expr.tallyAllWith_follows (calls : CallsFollow limit opened tallied call)
    (scope : MatchScope) (frame : List Value) : (es : List Expr) →
    Follows limit opened (fun extra => tallyAllWith (tallied extra) evaluation scope frame es)
      (evalAllWith call evaluation scope frame es)
  | [] => by
      simp only [tallyAllWith, evalAllWith]
      exact .pure []
  | e :: rest => by
      simp only [tallyAllWith, evalAllWith]
      apply (e.tallyWith_follows calls scope frame).bind
      intro value
      exact (tallyAllWith_follows calls scope frame rest).bind fun values => .pure _

end

end

namespace Evaluation

variable (evaluation : Evaluation)

/-- As many more calls may be opened as the limit leaves room for. -/
theorem callLocal_follows {remaining opened : Nat}
    (room : evaluation.callDepth - opened = remaining) :
    CallsFollow evaluation.callDepth opened
      (fun extra => evaluation.tallyCall (extra + remaining + 1))
      (evaluation.callLocal remaining) := by
  induction remaining generalizing opened with
  | zero =>
      intro name index args
      simp only [tallyCall, callLocal]
      cases evaluation.functions.functions[index]? with
      | none => exact .throw _
      | some function =>
          refine Follows.counted fun tally isOpened => ?_
          simp only [if_pos (show evaluation.callDepth ≤ tally.opened by omega)]
          exact .throw _
  | succ remaining ih =>
      intro name index args
      simp only [tallyCall, callLocal]
      cases evaluation.functions.functions[index]? with
      | none => exact .throw _
      | some function =>
          refine Follows.counted fun tally isOpened => ?_
          simp only [if_neg (show ¬ evaluation.callDepth ≤ tally.opened by omega)]
          have calls : CallsFollow evaluation.callDepth (opened + 1)
              (fun extra => evaluation.tallyCall (extra + remaining + 1))
              (evaluation.callLocal remaining) := ih (by omega)
          refine Follows.nested ?_ (by omega)
          exact function.body.tallyWith_follows calls {} (callFrame function args)

end Evaluation

/-! ## A larger limit -/

/-- An evaluation is cut off by a limit on nested calls. -/
def CutOff {α : Type} (result : Except Error α) : Prop :=
  ∃ error limit function, result = .error error ∧
    error.cause = .limitExceeded (.callDepth limit function)

/-- Unless it is cut off, a computation does the same as another one. -/
def Stable {α : Type} (one other : GlobalsM α) : Prop :=
  ∀ globals, CutOff (one.run.run globals).1 ∨ other.run.run globals = one.run.run globals

namespace Stable

variable {α β : Type}

/-- Every operation is stable against itself. -/
theorem refl (operation : GlobalsM α) : Stable operation operation := fun _ => .inr rfl

private theorem bind {one other : GlobalsM β} {next onward : β → GlobalsM α}
    (first : Stable one other) (each : ∀ value, Stable (next value) (onward value)) :
    Stable (one >>= next) (other >>= onward) := by
  intro globals
  rw [run_bind_eq, run_bind_eq]
  rcases first globals with ⟨error, limit, function, failed, isLimit⟩ | same
  · cases outcome : one.run.run globals with
    | mk result between =>
        rw [outcome] at failed
        cases failed
        exact .inl ⟨error, limit, function, rfl, isLimit⟩
  · rw [same]
    cases one.run.run globals with
    | mk result between =>
        cases result with
        | error error => exact .inr rfl
        | ok value => exact each value between

private theorem composes : GlobalsM.Composes @Stable :=
  ⟨fun _ => .refl _, fun _ => .refl _, fun _ => .refl _, fun first each => first.bind each⟩

end Stable

namespace Evaluation

variable (evaluation : Evaluation)

/-- Expressions are stable where the calls of local functions are. -/
theorem evalWith_stable {call onward : LocalCall} (depth : Nat)
    (calls : ∀ name index args, Stable (call name index args) (onward name index args))
    (scope : MatchScope) (frame : List Value) (e : Expr) :
    Stable (e.evalWith call evaluation scope frame)
      (e.evalWith onward { evaluation with callDepth := depth } scope frame) := by
  refine Expr.evalWith_related Stable.composes ?_ frame e fun part _ => ?_
  · rfl
  cases part with
  | global => exact .refl _
  | updateGlobal => exact ⟨.refl _, fun _ => .refl _⟩
  | call name callee args =>
      cases callee with
      | native => exact trivial
      | localFunction index => exact calls name index
  | fact | factField | currentField => exact rfl
  | const | slot | field | method | construct | binary | unary => exact trivial

/-- Calls that may open more calls do the same, unless they are cut off. -/
theorem callLocal_stable (depth : Nat) {remaining more : Nat} (le : remaining ≤ more)
    (name : String) (index : Nat) (args : List Value) :
    Stable (evaluation.callLocal remaining name index args)
      ({ evaluation with callDepth := depth }.callLocal more name index args) := by
  induction remaining generalizing more name index args with
  | zero =>
      rw [callLocal, callLocal]
      cases evaluation.functions.functions[index]? with
      | none => exact .refl _
      | some function => exact fun globals => .inl ⟨_, _, _, rfl, rfl⟩
  | succ remaining ih =>
      obtain ⟨more, rfl⟩ : ∃ left, more = left + 1 := ⟨more - 1, by omega⟩
      rw [callLocal, callLocal]
      cases evaluation.functions.functions[index]? with
      | none => exact .refl _
      | some function =>
          exact evaluation.evalWith_stable depth
            (fun name index args => ih (Nat.le_of_succ_le_succ le) name index args) {}
            (callFrame function args) function.body

/-- Every evaluation ends. The calls that it opens are closed whether it succeeds or fails, and no
more are open at once than the limit allows. Where the limit does not cut it off, it has the same
result and leaves the same globals under every larger limit. -/
theorem eval_ends (scope : MatchScope) (frame : List Value) (e : Expr) :
    (∀ before : Tally, ∃ result after,
      UnboundedM.EndsWith (evaluation.tally · scope frame e) before result after ∧
      after.opened = before.opened ∧ after.peak ≤ max before.peak evaluation.callDepth) ∧
    (∀ globals, ∃ highest ≤ evaluation.callDepth,
      UnboundedM.EndsWith (evaluation.tally · scope frame e) { globals }
        ((evaluation.eval scope frame e).run.run globals).1
        { globals := ((evaluation.eval scope frame e).run.run globals).2, peak := highest }) ∧
    ∀ globals, ¬ CutOff ((evaluation.eval scope frame e).run.run globals).1 →
      ∀ depth, evaluation.callDepth ≤ depth →
        ({ evaluation with callDepth := depth }.eval scope frame e).run.run globals =
          (evaluation.eval scope frame e).run.run globals := by
  have follows : ∀ opened, Follows evaluation.callDepth opened
      (fun extra => evaluation.tally (extra + (evaluation.callDepth - opened + 1)) scope frame e)
      (e.evalWith (evaluation.callLocal (evaluation.callDepth - opened)) evaluation scope frame) :=
    fun opened => e.tallyWith_follows (evaluation.callLocal_follows rfl) scope frame
  have ends := fun opened => (follows opened).endsWith (evaluation.tally · scope frame e) _
  refine ⟨fun before => ?_, fun globals => ?_, fun globals notCut depth le => ?_⟩
  · obtain ⟨highest, bounded, isEnd⟩ := ends before.opened before.globals before.peak
    exact ⟨_, _, isEnd, rfl, bounded⟩
  · obtain ⟨highest, bounded, isEnd⟩ := ends 0 globals 0
    exact ⟨highest, by omega, isEnd⟩
  · have stable := evaluation.evalWith_stable depth
      (evaluation.callLocal_stable depth le) scope frame e
    exact (stable globals).resolve_left notCut

end Evaluation

namespace Descent

/-- A function that calls itself until its argument is zero. -/
def functions : FunctionTable :=
  { package := "app"
    functions :=
      [{ name := "descend"
         signature := ⟨[.int], .bool⟩
         body := .binary .or (.binary .eq (.slot 0) (.const (.int 0)))
           (.call "descend" (.localFunction 0) [.binary .sub (.slot 0) (.const (.int 1))])
         frameSize := 1 }] }

/-- Three calls may be open at a time. -/
def evaluation : Evaluation := { catalog := {}, functions, callDepth := 3 }

/-- Opens three calls. -/
def fromTwo : Expr := .call "descend" (.localFunction 0) [.const (.int 2)]

/-- A limit that suffices is as good as a larger one, and a smaller one cuts the evaluation off. -/
theorem descend_stable :
    ¬ CutOff ((evaluation.eval {} [] fromTwo).run.run ∅).1 ∧ evaluation.callDepth ≤ 64 ∧
    ({ evaluation with callDepth := 64 }.eval {} [] fromTwo).run.run ∅ =
      (evaluation.eval {} [] fromTwo).run.run ∅ ∧
    (({ evaluation with callDepth := 2 }.eval {} [] fromTwo).run.run ∅).1.toOption = none := by
  have isTrue : ((evaluation.eval {} [] fromTwo).run.run ∅).1.toOption = some (.bool true) := by
    decide +kernel
  have notCut : ¬ CutOff ((evaluation.eval {} [] fromTwo).run.run ∅).1 := by
    rintro ⟨error, limit, function, failed, -⟩
    rw [failed] at isTrue
    cases isTrue
  have stable := (evaluation.eval_ends {} [] fromTwo).2.2 ∅ notCut 64 (by decide)
  exact ⟨notCut, by decide, stable, by decide +kernel⟩

end Descent

end Rete
