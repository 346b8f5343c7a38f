import Rete.Evaluation
import Rete.Proofs.FieldTypes
import Rete.Proofs.Operator

/-!
# Types that the form of an expression tells

The static type of an expression need not be the type of its value: nothing checks what functions
return, what lists and nested objects hold, and whether a global has been set. All other expressions
have a type by their form (`Expr.evidentType`), which accepts their values where the facts of the
match are well typed (`Expr.accepts_of_evalWith`). Operators keep this up, since their typing rules
hold of types as they do of values (`BinaryOp.accepts_of_apply`, `UnaryOp.accepts_of_apply`).
-/

namespace Rete

/-! ## Acceptance -/

namespace ValueType

/-- The type that stands for all of them accepts each. -/
@[simp] theorem any_accepts (type : ValueType) : any.accepts type = true := by
  unfold accepts
  rfl

/-- Where nothing is known of a type it is accepted. -/
@[simp] theorem accepts_any (type : ValueType) : type.accepts any = true := by
  cases type <;> rfl

private theorem accepts_self (type : ValueType) : type.accepts type = true := by
  induction type with
  | list element ih => exact ih
  | nil | bool | int | float | string | object | any => simp [accepts]

/-- What a type accepts is accepted wherever the type is. Nothing is known of values of any type. -/
theorem accepts_trans {expected type : ValueType} {value : Value} (known : type ≠ any)
    (wider : expected.accepts type = true) (holds : type.accepts value.type = true) :
    expected.accepts value.type = true := by
  cases type with
  | any => contradiction
  | nil | bool | int =>
      cases value <;> cases holds
      exact wider
  | float =>
      cases value with
      | float => exact wider
      | int => cases expected <;> first | rfl | cases wider
      | nil | bool | string | list | object => cases holds
  | string =>
      cases value with
      | string => exact wider
      | nil => cases expected <;> first | rfl | cases wider
      | bool | int | float | list | object => cases holds
  | list element =>
      cases value with
      | nil => cases expected <;> first | rfl | cases wider
      | list => cases expected <;> first | rfl | exact accepts_any _ | cases wider
      | bool | int | float | string | object => cases holds
  | object name =>
      cases value with
      | nil => cases expected <;> first | rfl | cases wider
      | object => exact beq_iff_eq.mp holds ▸ wider
      | bool | int | float | string | list => cases holds

private theorem eq_any_of_accepts_string {type : ValueType} (accepts : type.accepts string = true)
    (other : type ≠ string) : type = any := by
  cases type with
  | any => rfl
  | string => contradiction
  | nil | bool | int | float | list | object => cases accepts

/-- Arithmetic with an operand of unknown type has an unknown type. -/
theorem arithmetic?_of_any {left right : ValueType} (isAny : left = any ∨ right = any) :
    (left.arithmetic? right).getD any = any := by
  unfold arithmetic?
  split
  · rfl
  · rw [if_pos (by simpa using isAny)]
    rfl

end ValueType

/-! ## Operators -/

section

variable {left right : ValueType} {first second value : Value}

namespace Value

/-- A number that is computed from two has the type that the rule of arithmetic gives. -/
theorem accepts_of_arithmetic {ints : Int64 → Int64 → Int64}
    {floats : Binary64 → Binary64 → Binary64} (one : left.accepts first.type = true)
    (two : right.accepts second.type = true)
    (computed : arithmetic ints floats first second = .ok value) :
    ((left.arithmetic? right).getD .any).accepts value.type = true := by
  have number : ValueType.float.accepts value.type = true := by
    unfold arithmetic at computed
    split at computed <;> cases computed <;> rfl
  unfold ValueType.arithmetic?
  split
  · exact ValueType.any_accepts _
  · split
    · exact ValueType.any_accepts _
    · split
      · next ints =>
          obtain ⟨isLeft, isRight⟩ := Bool.and_eq_true_iff.mp ints
          obtain rfl := beq_iff_eq.mp isLeft
          obtain rfl := beq_iff_eq.mp isRight
          cases first <;> cases one
          cases second <;> cases two
          cases computed
          rfl
      · exact number

private theorem accepts_of_divide {ints : Int64 → Int64 → Int64}
    {floats : Binary64 → Binary64 → Binary64} (one : left.accepts first.type = true)
    (two : right.accepts second.type = true)
    (computed : divide ints floats first second = .ok value) :
    ((left.arithmetic? right).getD .any).accepts value.type = true := by
  unfold divide at computed
  split at computed
  · cases computed
  · exact accepts_of_arithmetic one two computed

/-- A sum is a text if a text is expected on one side: nil, which may be there too, has no sum with
anything else. -/
theorem eq_string_of_add (text : left = .string ∨ right = .string)
    (one : left.accepts first.type = true) (two : right.accepts second.type = true)
    (computed : add first second = .ok value) : ∃ s, value = string s := by
  rcases text with rfl | rfl
  · cases first with
    | string => exact ⟨_, (Except.ok.inj computed).symm⟩
    | nil =>
        cases second <;> cases computed
        exact ⟨_, rfl⟩
    | bool | int | float | list | object => cases one
  · cases second with
    | string => cases first <;> exact ⟨_, (Except.ok.inj computed).symm⟩
    | nil =>
        cases first <;> cases computed
        exact ⟨_, rfl⟩
    | bool | int | float | list | object => cases two

private theorem accepts_of_add (one : left.accepts first.type = true)
    (two : right.accepts second.type = true) (computed : add first second = .ok value) :
    ((BinaryOp.add.resultType? left right).getD .any).accepts value.type = true := by
  have numbers : arithmetic (· + ·) Binary64.add first second = .ok value →
      ((left.arithmetic? right).getD .any).accepts value.type = true :=
    accepts_of_arithmetic one two
  unfold BinaryOp.resultType?
  dsimp only
  split
  · next text =>
      rw [Bool.or_eq_true, beq_iff_eq, beq_iff_eq] at text
      obtain ⟨s, rfl⟩ := eq_string_of_add text one two computed
      rfl
  · next noText =>
      -- Where a text comes up all the same, nothing was known of that side.
      obtain ⟨notLeft, notRight⟩ : left ≠ .string ∧ right ≠ .string := by simpa using noText
      cases first with
      | string =>
          have isAny := ValueType.eq_any_of_accepts_string one notLeft
          rw [ValueType.arithmetic?_of_any (.inl isAny)]
          exact ValueType.any_accepts _
      | nil | bool | int | float | list | object =>
          cases second with
          | string =>
              have isAny := ValueType.eq_any_of_accepts_string two notRight
              rw [ValueType.arithmetic?_of_any (.inr isAny)]
              exact ValueType.any_accepts _
          | nil | bool | int | float | list | object => exact numbers computed

end Value

/-- The operators that compute numbers and texts; the others yield truths. -/
def BinaryOp.computing : List BinaryOp := [add, sub, mul, div, rem]

/-- Comparisons and connectives yield truths only. -/
theorem BinaryOp.eq_bool_of_apply {op : BinaryOp} (truths : op ∉ computing)
    (applied : op.apply first second = .ok value) : ∃ b, value = .bool b := by
  cases op with
  | add | sub | mul | div | rem => exact absurd (by decide) truths
  | eq | ne => exact ⟨_, (Except.ok.inj applied).symm⟩
  | lt | le | gt | ge =>
      obtain ⟨ordering, -, compared⟩ := exists_of_bind_eq_ok applied
      exact ⟨_, (Except.ok.inj compared).symm⟩
  | and | or =>
      obtain ⟨holds, -, decided⟩ := exists_of_bind_eq_ok applied
      cases holds with
      | true | false =>
        first
        | exact ⟨_, (Except.ok.inj decided).symm⟩
        | obtain ⟨_, -, last⟩ := exists_of_bind_eq_ok decided
          exact ⟨_, (Except.ok.inj last).symm⟩

/-- The typing rules of comparisons and connectives give the type of truths, or none. -/
theorem BinaryOp.resultType?_eq_bool {op : BinaryOp} (truths : op ∉ computing)
    (left right : ValueType) :
    op.resultType? left right = some .bool ∨ op.resultType? left right = none := by
  cases op with
  | add | sub | mul | div | rem => exact absurd (by decide) truths
  | eq | ne => exact .inl rfl
  | lt | le | gt | ge | and | or =>
      unfold resultType?
      dsimp only
      split
      · exact .inl rfl
      · exact .inr rfl

private theorem BinaryOp.accepts_bool {op : BinaryOp} (truths : op ∉ computing) (b : Bool) :
    ((op.resultType? left right).getD .any).accepts (Value.bool b).type = true := by
  rcases resultType?_eq_bool truths left right with isBool | isNone
  · rw [isBool]
    rfl
  · rw [isNone]
    rfl

/-- What an operator yields for values that two types accept is accepted by the type that its typing
rule gives for the two. -/
theorem BinaryOp.accepts_of_apply {op : BinaryOp} (one : left.accepts first.type = true)
    (two : right.accepts second.type = true) (applied : op.apply first second = .ok value) :
    ((op.resultType? left right).getD .any).accepts value.type = true := by
  cases op with
  | add => exact Value.accepts_of_add one two applied
  | sub | mul => exact Value.accepts_of_arithmetic one two applied
  | div | rem => exact Value.accepts_of_divide one two applied
  | eq | ne | lt | le | gt | ge | and | or =>
      obtain ⟨b, rfl⟩ := eq_bool_of_apply (by decide) applied
      exact accepts_bool (by decide) b

/-- What an operator yields for a value that a type accepts is accepted by the type that its typing
rule gives for it. -/
theorem UnaryOp.accepts_of_apply {op : UnaryOp} {operand : ValueType} {given : Value}
    (accepts : operand.accepts given.type = true) (applied : op.apply given = .ok value) :
    ((op.resultType? operand).getD .any).accepts value.type = true := by
  unfold resultType?
  cases op with
  | not =>
      cases given <;> cases applied
      dsimp only
      split <;> rfl
  | neg =>
      dsimp only
      split
      · cases given <;> cases applied <;> exact accepts
      · exact ValueType.any_accepts _

end

/-- Whatever a method yields, it is of the type that the method returns, elements of lists apart. -/
theorem Method.accepts_of_invoke {method : Method} {receiver value : Value} {args : List Value}
    (invoked : method.invoke receiver args = .ok value) :
    (method.returnType .any).accepts value.type = true := by
  unfold invoke at invoked
  dsimp only at invoked
  repeat' split at invoked
  all_goals
    first
    | exact ValueType.any_accepts _
    | cases invoked
      try rfl

private theorem ListUpdate.accepts_of_apply {update : ListUpdate} {current updated result : Value}
    {args : List Value} (applied : update.apply current args = .ok (updated, result)) :
    update.returnType.accepts result.type = true := by
  unfold apply at applied
  split at applied
  · cases applied
    rfl
  · cases applied
    rfl
  · split at applied <;> cases applied

/-! ## Expressions -/

/-- The type that accepts all values of an expression by its form, for matched facts of given types;
`any` where the form does not tell. -/
def Expr.evidentType (matched : List RecordType) : Expr → ValueType
  | .const value => value.type
  | .fact index => (matched[index]?.map RecordType.valueType).getD .any
  | .factField index name =>
    ((matched[index]?.bind (RecordType.field? · name)).map FieldDef.type).getD .any
  | .method _ called _ => called.returnType .any
  | .updateGlobal _ update _ => update.returnType
  | .construct type _ => type.valueType
  | .binary op left right =>
    (op.resultType? (left.evidentType matched) (right.evidentType matched)).getD .any
  | .unary op operand => (op.resultType? (operand.evidentType matched)).getD .any
  | .slot _ | .currentField _ | .global _ | .field .. | .call .. => .any

/-- The facts of a tuple are instances of given types with values of their declared types, as far as
they are there. -/
def Facts.Suit (facts : Facts) (matched : List RecordType) (tuple : List Handle) : Prop :=
  ∀ (index : Nat) (type : RecordType) (handle : Handle) (fact : Object),
    matched[index]? = some type → tuple[index]? = some handle →
    facts.find? handle = some fact → fact.typeName = type.fullName ∧ type.Suits fact

namespace Expr

variable {callLocal : LocalCall} {evaluation : Evaluation} {scope : MatchScope}
  {frame : List Value} {matched : List RecordType}

private theorem exists_of_tupleFact {index : Nat} {fact : Object}
    (found : evaluation.tupleFact scope index = .ok fact) :
    ∃ handle, scope.tuple[index]? = some handle ∧ evaluation.facts.find? handle = some fact := by
  unfold Evaluation.tupleFact at found
  split at found
  · cases found
  · next handle isHandle =>
      split at found
      · cases found
      · next isFact =>
          cases found
          exact ⟨handle, isHandle, isFact⟩

/-- A fact of the match is of the type that matched it. -/
theorem accepts_of_tupleFact (suit : evaluation.facts.Suit matched scope.tuple) {index : Nat}
    {found : Object} (isFact : evaluation.tupleFact scope index = .ok found) :
    ((fact index).evidentType matched).accepts (Value.ofObject found).type = true := by
  obtain ⟨handle, isHandle, live⟩ := exists_of_tupleFact isFact
  rw [evidentType]
  cases isType : matched[index]? with
  | none => rfl
  | some type =>
      change type.valueType.accepts (.object found.typeName) = true
      rw [(suit _ _ _ _ isType isHandle live).1]
      exact ValueType.accepts_self _

/-- A field of a fact of the match has a value of its declared type. -/
theorem accepts_of_fieldOrNil (suit : evaluation.facts.Suit matched scope.tuple) {index : Nat}
    {found : Object} (isFact : evaluation.tupleFact scope index = .ok found) (name : String) :
    ((factField index name).evidentType matched).accepts (found.fieldOrNil name).type = true := by
  obtain ⟨handle, isHandle, live⟩ := exists_of_tupleFact isFact
  rw [evidentType]
  cases isField : matched[index]?.bind (RecordType.field? · name) with
  | none => exact ValueType.any_accepts _
  | some field =>
      obtain ⟨type, isType, declared⟩ := Option.bind_eq_some_iff.mp isField
      obtain ⟨member, rfl⟩ := RecordType.mem_of_field? declared
      obtain ⟨stored, isStored, accepted⟩ := (suit _ _ _ _ isType isHandle live).2 field member
      rw [Object.fieldOrNil, isStored]
      exact accepted

/-- An application yields what its operator yields for the values of the operands. The connectives,
which may leave the right operand aside, yield truths. -/
theorem of_ends_binary {op : BinaryOp} {left right : Expr} {before after : Globals} {value : Value}
    (run : Ends (evalWith callLocal evaluation scope frame (.binary op left right)) before
      (.ok value) after) :
    (op ∉ BinaryOp.computing ∧ ∃ b, value = .bool b) ∨
      ∃ first second mid,
        Ends (left.evalWith callLocal evaluation scope frame) before (.ok first) mid ∧
        Ends (right.evalWith callLocal evaluation scope frame) mid (.ok second) after ∧
        op.apply first second = .ok value := by
  cases op with
  | and | or =>
      refine .inl ⟨by decide, ?_⟩
      rw [evalWith] at run
      obtain ⟨first, _, -, rest⟩ := run.bind_ok
      obtain ⟨holds, _, -, rest⟩ := rest.bind_ok
      cases holds with
      | true | false =>
        first
        | exact ⟨_, (Except.ok.inj ((ends_pure _).mp rest).1)⟩
        | obtain ⟨second, _, -, rest⟩ := rest.bind_ok
          obtain ⟨other, _, -, last⟩ := rest.bind_ok
          exact ⟨other, Except.ok.inj ((ends_pure _).mp last).1⟩
  | add | sub | mul | div | rem | eq | ne | lt | le | gt | ge =>
      simp only [evalWith] at run
      obtain ⟨first, mid, one, rest⟩ := run.bind_ok
      obtain ⟨second, last, two, applies⟩ := rest.bind_ok
      obtain ⟨applied, rfl⟩ := (ends_lift _).mp applies
      exact .inr ⟨first, second, mid, one, two, applied.symm⟩

/-- Where the facts of the match are well typed, the evident type of an expression accepts its
values. -/
theorem accepts_of_evalWith (suit : evaluation.facts.Suit matched scope.tuple) :
    (e : Expr) → ∀ {before after : Globals} {value : Value},
      Ends (e.evalWith callLocal evaluation scope frame) before (.ok value) after →
        (e.evidentType matched).accepts value.type = true
  | .const given, before, after, value, run => by
      rw [evalWith] at run
      rw [evidentType]
      cases ((ends_pure _).mp run).1
      exact ValueType.accepts_self _
  | .fact index, before, after, value, run => by
      rw [evalWith] at run
      rcases ends_lift_bind.mp run with ⟨found, isFact, last⟩ | ⟨_, -, failed, -⟩
      · cases ((ends_pure _).mp last).1
        exact accepts_of_tupleFact suit isFact
      · cases failed
  | .factField index name, before, after, value, run => by
      rw [evalWith] at run
      rcases ends_lift_bind.mp run with ⟨found, isFact, last⟩ | ⟨_, -, failed, -⟩
      · cases ((ends_pure _).mp last).1
        exact accepts_of_fieldOrNil suit isFact name
      · cases failed
  | .method receiver called args, before, after, value, run => by
      rw [evalWith] at run
      rw [evidentType]
      obtain ⟨_, _, -, rest⟩ := run.bind_ok
      obtain ⟨_, _, -, last⟩ := rest.bind_ok
      exact Method.accepts_of_invoke ((ends_lift _).mp last).1.symm
  | .updateGlobal name update args, before, after, value, run => by
      rw [evalWith] at run
      rw [evidentType]
      obtain ⟨values, _, -, rest⟩ := run.bind_ok
      obtain ⟨current, _, -, rest⟩ := rest.bind_ok
      cases applied : update.apply current values with
      | error error =>
          rw [applied] at rest
          cases ((ends_throw _).mp rest).1
      | ok changed =>
          rw [applied] at rest
          obtain ⟨_, _, -, last⟩ := rest.bind_ok
          cases ((ends_pure _).mp last).1
          exact ListUpdate.accepts_of_apply applied
  | .construct type args, before, after, value, run => by
      rw [evalWith] at run
      rw [evidentType]
      obtain ⟨_, _, -, rest⟩ := run.bind_ok
      rcases ends_lift_bind.mp rest with ⟨made, instantiates, last⟩ | ⟨_, -, failed, -⟩
      · cases ((ends_pure _).mp last).1
        have named := RecordType.typeName_of_instantiate instantiates
        change type.valueType.accepts (.object made.typeName) = true
        rw [named]
        exact ValueType.accepts_self _
      · cases failed
  | .binary op left right, before, after, value, run => by
      rw [evidentType]
      rcases of_ends_binary run with ⟨truths, b, rfl⟩ | ⟨first, second, mid, one, two, applied⟩
      · exact BinaryOp.accepts_bool truths b
      · exact BinaryOp.accepts_of_apply (accepts_of_evalWith suit left one)
          (accepts_of_evalWith suit right two) applied
  | .unary op operand, before, after, value, run => by
      rw [evalWith] at run
      rw [evidentType]
      obtain ⟨given, mid, first, last⟩ := run.bind_ok
      exact UnaryOp.accepts_of_apply (accepts_of_evalWith suit operand first)
        ((ends_lift _).mp last).1.symm
  | .slot _, _, _, _, _ | .currentField _, _, _, _, _ | .global _, _, _, _, _
  | .field .., _, _, _, _ | .call .., _, _, _, _ => by
      rw [evidentType]
      exact ValueType.any_accepts _

end Expr

end Rete
