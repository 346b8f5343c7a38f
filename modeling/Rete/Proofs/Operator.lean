import Rete.Evaluation
import Rete.Proofs.Computation

/-!
# The typing of operators

On values, the typing rules of the operators say what the operators compute: where a rule gives a
type, an application yields a value that the type accepts, unless an integer is divided by zero;
where it gives none, the application fails for a type mismatch (`Agrees`, `operators_agree`). Only
`&&` and `||` may do without a type: they leave the right operand aside where the left one decides.
-/

namespace Rete

/-- Whether a value of another type was expected. -/
def Error.IsMismatch (error : Error) : Prop :=
  ∃ expected actual, error.cause = .typeMismatch expected actual

/-- A mismatch names the type of the value that was found. -/
theorem Value.isMismatch (expected : ValueType) (actual : Value) :
    (mismatch expected actual).IsMismatch := ⟨expected, actual.type, rfl⟩

/-- What an application yields is of the type that the typing rule gives; without a type, it fails
for a mismatch. -/
def Agrees (type? : Option ValueType) (result : Except Error Value) : Prop :=
  match type?, result with
  | some type, .ok value => type.accepts value.type = true
  | none, .error error => error.IsMismatch
  | some _, .error _ | none, .ok _ => False

namespace Agrees

variable {type : ValueType} {type? : Option ValueType} {result : Except Error Value}

private theorem value (agrees : Agrees (some type) result) :
    ∃ value, result = .ok value ∧ type.accepts value.type = true := by
  cases result with
  | ok value => exact ⟨value, rfl, agrees⟩
  | error => exact agrees.elim

private theorem mismatch (agrees : Agrees none result) :
    ∃ error, result = .error error ∧ error.IsMismatch := by
  cases result with
  | ok => exact agrees.elim
  | error error => exact ⟨error, rfl, agrees⟩

end Agrees

/-! ## The ways to compute -/

namespace Value

variable (left right : Value)

/-- Arithmetic yields a value of the type that the operands' types give, or a mismatch if they give
none. -/
theorem agrees_arithmetic (ints : Int64 → Int64 → Int64)
    (floats : Binary64 → Binary64 → Binary64) :
    Agrees (left.type.arithmetic? right.type) (arithmetic ints floats left right) := by
  cases left with
  | int | float =>
      cases right with
      | int | float => exact rfl
      | nil | bool | string | list | object => exact isMismatch _ _
  | nil | bool | string | list | object => cases right <;> exact isMismatch _ _

private theorem agrees_add : Agrees (BinaryOp.add.resultType? left.type right.type)
    (left.add right) := by
  have numbers := agrees_arithmetic left right (· + ·) Binary64.add
  cases left with
  | string => exact rfl
  | nil | bool | int | float | list | object =>
      cases right with
      | string => exact rfl
      | nil | bool | int | float | list | object => exact numbers

private theorem agrees_divide (ints : Int64 → Int64 → Int64)
    (floats : Binary64 → Binary64 → Binary64) :
    Agrees (left.type.arithmetic? right.type) (divide ints floats left right) ∨
      (left.type = .int ∧ right = int 0) ∧
        divide ints floats left right = .error (Cause.divisionByZero : Error) := by
  unfold divide
  split
  · exact .inr ⟨⟨rfl, rfl⟩, rfl⟩
  · exact .inl (agrees_arithmetic left right ints floats)

private theorem agrees_ordered (holds : Ordering → Bool) :
    Agrees (if left.type.comparable right.type then some .bool else none)
      (ordered holds left right) := by
  cases left with
  | int | float =>
      cases right with
      | int | float => exact rfl
      | nil | bool | string | list | object => exact isMismatch _ _
  | string =>
      cases right with
      | string => exact rfl
      | nil | bool | int | float | list | object => exact isMismatch _ _
  | nil | bool | list | object => cases right <;> exact isMismatch _ _

private theorem eq_bool_of_maybeBool {value : Value} (maybe : value.type.maybeBool = true) :
    ∃ b, value = bool b := by
  cases value with
  | bool b => exact ⟨b, rfl⟩
  | nil | int | float | string | list | object => cases maybe

end Value

/-! ## Operators -/

/-- An integer is divided by the integer zero. -/
def BinaryOp.DividesByZero (op : BinaryOp) (left right : Value) : Prop :=
  (op = .div ∨ op = .rem) ∧ left.type = .int ∧ right = .int 0

private theorem BinaryOp.DividesByZero.typed {op : BinaryOp} {left right : Value}
    (byZero : op.DividesByZero left right) : op.resultType? left.type right.type = some .int := by
  obtain ⟨rfl | rfl, isInt, rfl⟩ := byZero <;>
  · rw [isInt]
    rfl

/-- An operator yields what its typing rule says, or divides an integer by zero. Where the rule
gives no type, the operands of `&&` and `||` are set aside. -/
theorem BinaryOp.agrees_apply (op : BinaryOp) (left right : Value)
    (decided : op.resultType? left.type right.type = none → op ≠ .and ∧ op ≠ .or) :
    Agrees (op.resultType? left.type right.type) (op.apply left right) ∨
      op.DividesByZero left right ∧
        op.apply left right = .error (Cause.divisionByZero : Error) := by
  cases op with
  | add => exact .inl (left.agrees_add right)
  | sub | mul => exact .inl (left.agrees_arithmetic right _ _)
  | div =>
      exact (left.agrees_divide right _ _).imp_right fun byZero =>
        ⟨⟨.inl rfl, byZero.1⟩, byZero.2⟩
  | rem =>
      exact (left.agrees_divide right _ _).imp_right fun byZero =>
        ⟨⟨.inr rfl, byZero.1⟩, byZero.2⟩
  | eq | ne => exact .inl rfl
  | lt | le | gt | ge => exact .inl (left.agrees_ordered right _)
  | and | or =>
      by_cases bools : (left.type.maybeBool && right.type.maybeBool) = true
      · obtain ⟨leftBool, rightBool⟩ := Bool.and_eq_true_iff.mp bools
        obtain ⟨first, rfl⟩ := Value.eq_bool_of_maybeBool leftBool
        obtain ⟨second, rfl⟩ := Value.eq_bool_of_maybeBool rightBool
        cases first <;> exact .inl rfl
      · obtain ⟨notAnd, notOr⟩ := decided (if_neg bools)
        contradiction

private theorem UnaryOp.agrees_apply (op : UnaryOp) (operand : Value) :
    Agrees (op.resultType? operand.type) (op.apply operand) := by
  cases op with
  | not =>
      cases operand with
      | bool => exact rfl
      | nil | int | float | string | list | object => exact Value.isMismatch _ _
  | neg =>
      cases operand with
      | int | float => exact rfl
      | nil | bool | string | list | object => exact Value.isMismatch _ _

/-! ## Evaluation -/

/-- A result that is taken over in an evaluation, and what is done with its value. -/
theorem GlobalsM.ends_liftResult_bind {α β : Type} (given : Except Error α)
    (next : α → Except Error β) (globals : Globals) :
    Ends (liftResult given >>= fun a => liftResult (next a)) globals (given >>= next) globals := by
  cases given <;> rfl

/-- The value of an application is that of its operator on the values of the operands, also where
only one of them is looked at. -/
theorem Evaluation.ends_eval_binary {evaluation : Evaluation} {scope : MatchScope}
    {frame : List Value} {op : BinaryOp} {left right : Expr} {first second : Value}
    {before between after : Globals}
    (one : Ends (evaluation.eval scope frame left) before (.ok first) between)
    (two : Ends (evaluation.eval scope frame right) between (.ok second) after) :
    ∃ final, Ends (evaluation.eval scope frame (.binary op left right)) before
      (op.apply first second) final := by
  have last : Ends (do return Value.bool (← GlobalsM.liftResult
      (← evaluation.eval scope frame right).truth)) between
      (second.truth >>= fun holds => .ok (.bool holds)) after :=
    (ends_bind_of_total two).mpr (GlobalsM.ends_liftResult_bind _ _ _)
  unfold eval at one two last ⊢
  cases op with
  | and =>
      simp only [Expr.evalWith, ends_bind_of_total one, BinaryOp.apply]
      cases first.truth with
      | error e => exact ⟨between, rfl⟩
      | ok holds =>
          cases holds with
          | true => exact ⟨after, last⟩
          | false => exact ⟨between, rfl⟩
  | or =>
      simp only [Expr.evalWith, ends_bind_of_total one, BinaryOp.apply]
      cases first.truth with
      | error e => exact ⟨between, rfl⟩
      | ok holds =>
          cases holds with
          | true => exact ⟨between, rfl⟩
          | false => exact ⟨after, last⟩
  | add | sub | mul | div | rem | eq | ne | lt | le | gt | ge =>
      simp only [Expr.evalWith, ends_bind_of_total one, ends_bind_of_total two]
      exact ⟨after, rfl⟩

private theorem Evaluation.ends_eval_unary {evaluation : Evaluation} {scope : MatchScope}
    {frame : List Value} {op : UnaryOp} {operand : Expr} {value : Value} {before after : Globals}
    (one : Ends (evaluation.eval scope frame operand) before (.ok value) after) :
    Ends (evaluation.eval scope frame (.unary op operand)) before (op.apply value) after := by
  unfold eval at one ⊢
  rw [Expr.evalWith, ends_bind_of_total one]
  rfl

/-- The typing rules of the operators and what they compute agree on values. With a type, an
application yields a value that the type accepts, and nothing fails but the division of an integer
by zero. Without one it fails for a mismatch, `&&` and `||` apart. Evaluating an application is
applying its operator to the values of the operands. -/
theorem operators_agree :
    (∀ (op : BinaryOp) (left right : Value),
      (∀ type, op.resultType? left.type right.type = some type →
        Outcome (op.apply left right) (fun value => type.accepts value.type = true)
          fun error => ¬error.IsMismatch ∧ op.DividesByZero left right) ∧
      (op.resultType? left.type right.type = none → op ≠ .and → op ≠ .or →
        ∃ error, op.apply left right = .error error ∧ error.IsMismatch)) ∧
    (∀ (op : UnaryOp) (operand : Value),
      (∀ type, op.resultType? operand.type = some type →
        ∃ value, op.apply operand = .ok value ∧ type.accepts value.type = true) ∧
      (op.resultType? operand.type = none →
        ∃ error, op.apply operand = .error error ∧ error.IsMismatch)) ∧
    ∀ (evaluation : Evaluation) (scope : MatchScope) (frame : List Value),
      (∀ (op : BinaryOp) {left right : Expr} {first second : Value}
          {before between after : Globals},
        Ends (evaluation.eval scope frame left) before (.ok first) between →
        Ends (evaluation.eval scope frame right) between (.ok second) after →
        ∃ final, Ends (evaluation.eval scope frame (.binary op left right)) before
          (op.apply first second) final) ∧
      ∀ (op : UnaryOp) {operand : Expr} {value : Value} {before after : Globals},
        Ends (evaluation.eval scope frame operand) before (.ok value) after →
        Ends (evaluation.eval scope frame (.unary op operand)) before (op.apply value) after := by
  refine ⟨fun op left right => ⟨fun type typed => ?_, fun untyped notAnd notOr => ?_⟩,
    fun op operand => ⟨fun type typed => ?_, fun untyped => ?_⟩, fun evaluation scope frame =>
      ⟨fun op => Evaluation.ends_eval_binary, fun op => Evaluation.ends_eval_unary⟩⟩
  · have decided : op.resultType? left.type right.type = none → op ≠ .and ∧ op ≠ .or := by
      intro untyped
      rw [typed] at untyped
      cases untyped
    rcases op.agrees_apply left right decided with agrees | ⟨byZero, fails⟩
    · rw [typed] at agrees
      obtain ⟨value, yields, accepted⟩ := agrees.value
      rw [yields]
      exact accepted
    · rw [fails]
      refine ⟨?_, byZero⟩
      rintro ⟨expected, actual, same⟩
      cases same
  · rcases op.agrees_apply left right fun _ => ⟨notAnd, notOr⟩ with agrees | ⟨byZero, -⟩
    · rw [untyped] at agrees
      exact agrees.mismatch
    · rw [byZero.typed] at untyped
      cases untyped
  · have agrees := op.agrees_apply operand
    rw [typed] at agrees
    exact agrees.value
  · have agrees := op.agrees_apply operand
    rw [untyped] at agrees
    exact agrees.mismatch

namespace Sevens

/-- An evaluation without facts, for a package without functions. -/
def evaluation : Evaluation := { catalog := {}, functions := { package := "app" } }

/-- Seven is halved, not divided by zero, not compared with a text, negated as a number and not as a
truth, and not looked at behind a false operand. -/
theorem seven_agrees :
    BinaryOp.div.resultType? (Value.int 7).type (Value.int 2).type = some .int ∧
    BinaryOp.div.apply (.int 7) (.int 2) = .ok (.int 3) ∧
    Outcome (BinaryOp.div.apply (.int 7) (.int 2))
      (fun value => ValueType.int.accepts value.type = true)
      (fun error => ¬error.IsMismatch ∧ BinaryOp.div.DividesByZero (.int 7) (.int 2)) ∧
    Outcome (BinaryOp.div.apply (.int 7) (.int 0))
      (fun value => ValueType.int.accepts value.type = true)
      (fun error => ¬error.IsMismatch ∧ BinaryOp.div.DividesByZero (.int 7) (.int 0)) ∧
    (∃ error, BinaryOp.lt.apply (.int 7) (.string "2") = .error error ∧ error.IsMismatch) ∧
    (∃ value, UnaryOp.neg.apply (.int 7) = .ok value ∧
      ValueType.int.accepts value.type = true) ∧
    (∃ error, UnaryOp.not.apply (.int 7) = .error error ∧ error.IsMismatch) ∧
    ∃ final, Ends
      (evaluation.eval {} [] (.binary .and (.const (.bool false)) (.unary .neg (.const (.int 7)))))
      ∅ (.ok (.bool false)) final := by
  obtain ⟨binary, unary, eval⟩ := operators_agree
  obtain ⟨evalBinary, evalUnary⟩ := eval evaluation {} []
  have first : Ends (evaluation.eval {} [] (.const (.bool false))) ∅ (.ok (.bool false)) ∅ := rfl
  have operand : Ends (evaluation.eval {} [] (.const (.int 7))) ∅ (.ok (.int 7)) ∅ := rfl
  have second : Ends (evaluation.eval {} [] (.unary .neg (.const (.int 7)))) ∅
    (.ok (.int (-7))) ∅ := evalUnary .neg operand
  exact ⟨rfl, rfl, (binary .div (.int 7) (.int 2)).1 .int rfl,
    (binary .div (.int 7) (.int 0)).1 .int rfl,
    (binary .lt (.int 7) (.string "2")).2 rfl (by decide) (by decide),
    (unary .neg (.int 7)).1 .int rfl, (unary .not (.int 7)).2 rfl, evalBinary .and first second⟩

end Sevens

end Rete
