import Mathlib.Data.List.Forall2
import Rete.Compile.Term
import Rete.Proofs.Operator

/-!
# The typing of methods

A call whose method is found for the type of its receiver, and whose arguments are values that the
parameters accept (`Method.Checked`), yields a value of the type that the method returns, or asks
for an element that is not there (`Method.invoke_of_checked`). One call goes wrong that passes the
check: `contains` takes a parameter of any type for the sake of lists, but in a string it only looks
for a string (`Method.SeeksOther`).
-/

namespace Rete

/-- Whether a call was met with a value of another type, with another number of arguments, or on a
receiver that does not have the method. -/
def Error.IsTypeError (error : Error) : Prop :=
  error.IsMismatch ∨ (∃ name expected actual, error.cause = .arityMismatch name expected actual) ∨
    ∃ name receiver, error.cause = .undefinedMethod name receiver

namespace Value

private theorem eq_string_of_accepts {value : Value}
    (accepted : ValueType.string.accepts value.type = true) (known : value ≠ nil) :
    ∃ s, value = string s := by
  cases value with
  | nil => contradiction
  | string s => exact ⟨s, rfl⟩
  | bool | int | float | list | object => cases accepted

private theorem eq_int_of_accepts {value : Value}
    (accepted : ValueType.int.accepts value.type = true) :
    ∃ n, value = int n := by
  cases value with
  | int n => exact ⟨n, rfl⟩
  | nil | bool | float | string | list | object => cases accepted

end Value

namespace Method

/-! ## The check -/

/-- A call that passes the check: a method is found for the type of the receiver, and each of its
parameters accepts the type of its argument. -/
structure Checked (name : String) (receiver : Value) (args : List Value) (method : Method) :
    Prop where
  found : lookup? name receiver.type = some method
  fits : List.Forall₂ (fun param arg => param.accepts arg.type = true) method.params args

/-- The values that have a method. -/
def Serves (receiver : Value) : Method → Prop
  | equals | toString => True
  | length | toUpperCase | toLowerCase | startsWith | endsWith | concat =>
    ∃ s, receiver = .string s
  | size | get => ∃ items, receiver = .list items
  | isEmpty | contains => (∃ s, receiver = .string s) ∨ ∃ items, receiver = .list items

private theorem serves_of_lookup {name : String} {receiver : Value} {method : Method}
    (found : lookup? name receiver.type = some method) : method.Serves receiver := by
  unfold lookup? at found
  dsimp only at found
  -- A name is only found for the receivers that have the method.
  split at found <;> cases receiver <;> cases found <;>
    first | exact trivial | exact ⟨_, rfl⟩ | exact .inl ⟨_, rfl⟩ | exact .inr ⟨_, rfl⟩

variable {name : String} {receiver : Value} {args : List Value} {method : Method}

/-- Checked arguments of a method without parameters are none. -/
theorem Checked.none (checked : Checked name receiver args method)
    (isParams : method.params = []) : args = [] := by
  have fits := checked.fits
  rw [isParams] at fits
  exact List.forall₂_nil_left_iff.mp fits

private theorem Checked.one (checked : Checked name receiver args method) {param : ValueType}
    (isParams : method.params = [param]) :
    ∃ arg, args = [arg] ∧ param.accepts arg.type = true := by
  have fits := checked.fits
  rw [isParams] at fits
  obtain ⟨arg, rest, accepted, others, rfl⟩ := List.forall₂_cons_left_iff.mp fits
  rw [List.forall₂_nil_left_iff.mp others]
  exact ⟨arg, rfl, accepted⟩

/-! ## Calls -/

/-- Something else than a string is looked for in a string. -/
def SeeksOther (method : Method) (receiver : Value) (args : List Value) : Prop :=
  method = .contains ∧ receiver.type = .string ∧ ∃ part, args = [part] ∧ part.type ≠ .string

/-- What a checked call comes to. -/
abbrev Answers (method : Method) (receiver : Value) (args : List Value) : Prop :=
  Outcome (method.invoke receiver args)
    (fun value => ¬method.SeeksOther receiver args ∧
      (method.returnType receiver.type).accepts value.type = true)
    fun error => error.IsTypeError ∧ method.SeeksOther receiver args ∨
      ¬error.IsTypeError ∧ method = .get

private theorem answers_of_ok {value : Value} (isOk : method.invoke receiver args = .ok value)
    (other : method ≠ .contains)
    (typed : (method.returnType receiver.type).accepts value.type = true) :
    method.Answers receiver args := by
  rw [Answers, isOk]
  exact ⟨fun seeks => other seeks.1, typed⟩

private theorem answers_get (items : List Value) (index : Int64) :
    get.Answers (.list items) [.int index] := by
  have found : get.invoke (.list items) [.int index] = elementAt items index := rfl
  rw [Answers, found]
  unfold elementAt
  dsimp only
  generalize (if index.toInt < 0 then none else items[index.toInt.toNat]?) = item
  cases item with
  | some item => exact ⟨nofun, rfl⟩
  | none =>
      refine .inr ⟨?_, rfl⟩
      rintro (⟨_, _, same⟩ | ⟨_, _, _, same⟩ | ⟨_, _, same⟩) <;> cases same

private theorem answers_contains {part : Value} (serves : contains.Serves receiver) :
    contains.Answers receiver [part] := by
  rcases serves with ⟨s, rfl⟩ | ⟨items, rfl⟩
  · cases part with
    | string part =>
        refine ⟨?_, rfl⟩
        rintro ⟨-, -, other, same, notString⟩
        cases same
        exact notString rfl
    | nil | bool | int | float | list | object =>
        exact .inl ⟨.inl ⟨_, _, rfl⟩, rfl, rfl, _, rfl, nofun⟩
  · refine ⟨?_, rfl⟩
    rintro ⟨-, isString, -⟩
    cases isString

/-- A call that passes the check does what the check says: it yields a value of the type that the
method returns, unless an element is asked for that is not there. Only where something else than a
string is looked for in a string, it fails for a type. -/
theorem invoke_of_checked (checked : Checked name receiver args method)
    (known : ∀ arg ∈ args, arg ≠ .nil) : method.Answers receiver args := by
  have serves := serves_of_lookup checked.found
  cases method with
  | equals =>
      obtain ⟨other, rfl, -⟩ := checked.one rfl
      exact answers_of_ok rfl nofun rfl
  | toString =>
      obtain rfl := checked.none rfl
      exact answers_of_ok rfl nofun rfl
  | length | toUpperCase | toLowerCase =>
      obtain rfl := checked.none rfl
      obtain ⟨s, rfl⟩ := serves
      exact answers_of_ok rfl nofun rfl
  | size =>
      obtain rfl := checked.none rfl
      obtain ⟨items, rfl⟩ := serves
      exact answers_of_ok rfl nofun rfl
  | isEmpty =>
      obtain rfl := checked.none rfl
      rcases serves with ⟨s, rfl⟩ | ⟨items, rfl⟩ <;> exact answers_of_ok rfl nofun rfl
  | contains =>
      obtain ⟨part, rfl, -⟩ := checked.one rfl
      exact answers_contains serves
  | get =>
      obtain ⟨index, rfl, accepted⟩ := checked.one rfl
      obtain ⟨n, rfl⟩ := Value.eq_int_of_accepts accepted
      obtain ⟨items, rfl⟩ := serves
      exact answers_get items n
  | startsWith | endsWith | concat =>
      obtain ⟨part, rfl, accepted⟩ := checked.one rfl
      obtain ⟨other, rfl⟩ := Value.eq_string_of_accepts accepted (known _ List.mem_cons_self)
      obtain ⟨s, rfl⟩ := serves
      exact answers_of_ok rfl nofun rfl

end Method

/-! ## Calls on a text -/

namespace Stilton

/-- A string that a method is called on. -/
def stilton : Value := .string "stilton"

/-- A part is looked for, and the last element of a list of one. -/
theorem stilton_answers :
    Method.Checked "contains" stilton [.string "tilt"] .contains ∧
    Method.contains.Answers stilton [.string "tilt"] ∧
    Method.contains.invoke stilton [.string "tilt"] = .ok (.bool true) ∧
    Method.Checked "get" (.list [stilton]) [.int 1] .get ∧
    Method.get.Answers (.list [stilton]) [.int 1] ∧
    (Method.get.invoke (.list [stilton]) [.int 1]).toOption = none := by
  have part : Method.Checked "contains" stilton [.string "tilt"] .contains :=
    ⟨rfl, .cons rfl .nil⟩
  have last : Method.Checked "get" (.list [stilton]) [.int 1] .get := ⟨rfl, .cons rfl .nil⟩
  exact ⟨part, Method.invoke_of_checked part (by decide), rfl, last,
    Method.invoke_of_checked last (by decide), by decide⟩

/-- A number is looked for in a text. -/
def five : Term := .method (.literal stilton) "contains" [.literal (.int 5)]

/-- The call passes the check, also that of the compiler, and fails for the type of the number. -/
theorem five_mismatched :
    Method.Checked "contains" stilton [.int 5] .contains ∧
    stilton ≠ .nil ∧ (∀ arg ∈ [Value.int 5], arg ≠ .nil) ∧
    ({} : Bindings).compile (.ofPackage "app" {}) five =
      .ok ⟨.method (.const stilton) .contains [.const (.int 5)], .bool⟩ ∧
    ∃ error, Method.contains.invoke stilton [.int 5] = .error error ∧
      error.cause = .typeMismatch .string .int :=
  ⟨⟨rfl, .cons rfl .nil⟩, by decide, by decide, by decide +kernel, _, rfl, rfl⟩

end Stilton

end Rete
