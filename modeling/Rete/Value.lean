import Rete.Number.Decimal
import Rete.SortedMap
import Rete.Text.Quoted
import Rete.ValueType

/-!
# Values

Rules compute with nil, booleans, integers, floats, strings, lists and objects. An object is
an instance of a catalog type: the full name of the type and its fields in ascending order of
their names. Facts are objects.

Equality of values is structural; floats are equal if their bits are. The comparison that
takes an integer and a float as numbers belongs to the operators (`Rete.Operator`).
-/

namespace Rete

/-- A value of the rule language. -/
inductive Value where
  | nil
  | bool (b : Bool)
  | int (n : Int64)
  | float (x : Binary64)
  | string (s : String)
  | list (items : List Value)
  | object (typeName : String) (fields : List (String × Value))
  deriving Inhabited

/-- An instance of a catalog type. -/
structure Object where
  typeName : String
  /-- The fields that are set, in ascending order of their names. -/
  fields : List (String × Value) := []
  deriving Inhabited

namespace Value

/-- An object as a value. -/
@[match_pattern] abbrev ofObject (o : Object) : Value := .object o.typeName o.fields

/-- The dynamic type. All lists have the same one. -/
def type : Value → ValueType
  | nil => .nil
  | bool _ => .bool
  | int _ => .int
  | float _ => .float
  | string _ => .string
  | list _ => .list .any
  | object typeName _ => .object typeName

/-- The value is nothing. -/
def isNil : Value → Bool
  | nil => true
  | _ => false

/-- The truth value that the value is, if it is one. -/
def asBool? : Value → Option Bool
  | bool b => some b
  | _ => none

/-- The integer that the value is, if it is one. -/
def asInt? : Value → Option Int64
  | int n => some n
  | _ => none

/-- The number, with integers widened. -/
def asFloat? : Value → Option Binary64
  | int n => some (.ofInt n)
  | float x => some x
  | _ => none

/-- The string that the value is, if it is one. -/
def asString? : Value → Option String
  | string s => some s
  | _ => none

/-- The items of the list that the value is, if it is one. -/
def asList? : Value → Option (List Value)
  | list items => some items
  | _ => none

/-- The object that the value is, if it is one. -/
def asObject? : Value → Option Object
  | object typeName fields => some ⟨typeName, fields⟩
  | _ => none

/-! ## Equality -/

mutual

/-- Structural equality. -/
def beq : Value → Value → Bool
  | nil, nil => true
  | bool a, bool b => a == b
  | int a, int b => a == b
  | float a, float b => a == b
  | string a, string b => a == b
  | list as, list bs => beqItems as bs
  | object a as, object b bs => a == b && beqFields as bs
  | _, _ => false

/-- Structural equality of lists of values. -/
def beqItems : List Value → List Value → Bool
  | [], [] => true
  | a :: as, b :: bs => beq a b && beqItems as bs
  | _, _ => false

/-- Structural equality of lists of fields. -/
def beqFields : List (String × Value) → List (String × Value) → Bool
  | [], [] => true
  | (k, a) :: as, (l, b) :: bs => k == l && beq a b && beqFields as bs
  | _, _ => false

end

mutual

private theorem beq_self : (value : Value) → beq value value = true
  | nil | bool _ | int _ | float _ | string _ => by simp [beq]
  | list items => by simp [beq, beqItems_self items]
  | object _ fields => by simp [beq, beqFields_self fields]

private theorem beqItems_self : (items : List Value) → beqItems items items = true
  | [] => rfl
  | item :: rest => by simp [beqItems, beq_self item, beqItems_self rest]

private theorem beqFields_self : (fields : List (String × Value)) → beqFields fields fields = true
  | [] => rfl
  | (_, value) :: rest => by simp [beqFields, beq_self value, beqFields_self rest]

end

private theorem eq_of_beqs :
    (∀ a b : Value, beq a b = true → a = b) ∧ (∀ as bs, beqFields as bs = true → as = bs) ∧
      ∀ as bs, beqItems as bs = true → as = bs := by
  apply beq.mutual_induct <;> intros <;> simp_all [beq, beqItems, beqFields]

/-- Equality is decided by the comparison of the trees. -/
instance : DecidableEq Value := fun a b =>
  decidable_of_iff (beq a b = true) ⟨eq_of_beqs.1 a b, fun same => same ▸ beq_self a⟩

/-! ## Text -/

/-- The texts between an opening and a closing mark, with commas between them. -/
def enclose (opening closing : String) (parts : List String) : String :=
  opening ++ ", ".intercalate parts ++ closing

mutual

/-- The text of a value, as string concatenation and messages show it. Strings stand for
themselves; only as fields of an object are they quoted. -/
def text : Value → String
  | nil => "nil"
  | bool b => if b then "true" else "false"
  | int n => toString n.toInt
  | float x => x.text
  | string s => s
  | list items => enclose "[" "]" (textItems items)
  | object typeName fields =>
    enclose (Text.lastPiece '.' typeName ++ "(") ")" (textFields fields)

/-- The texts of items. -/
def textItems : List Value → List String
  | [] => []
  | item :: rest => item.text :: textItems rest

/-- The texts of fields, in which strings are quoted. -/
def textFields : List (String × Value) → List String
  | [] => []
  | (name, string s) :: rest => (name ++ ": " ++ Text.quote s) :: textFields rest
  | (name, value) :: rest => (name ++ ": " ++ value.text) :: textFields rest

end

mutual

/-- The text of a value that also shows its kind. -/
def detail : Value → String
  | nil => "Nil"
  | bool b => if b then "Bool(true)" else "Bool(false)"
  | int n => "Int(" ++ toString n.toInt ++ ")"
  | float x => "Float(" ++ x.text ++ ")"
  | string s => "String(" ++ Text.quote s ++ ")"
  | list items => "List(" ++ enclose "[" "]" (detailItems items) ++ ")"
  | object typeName fields =>
    "Object \x7b type: " ++ Text.quote typeName ++ ", fields: " ++
      enclose "\x7b" "\x7d" (detailFields fields) ++ " \x7d"

/-- The details of items. -/
def detailItems : List Value → List String
  | [] => []
  | item :: rest => item.detail :: detailItems rest

/-- The details of fields. -/
def detailFields : List (String × Value) → List String
  | [] => []
  | (name, value) :: rest => (Text.quote name ++ ": " ++ value.detail) :: detailFields rest

end

end Value

namespace Object

/-- Two objects are equal exactly if their types and their fields are. -/
instance : DecidableEq Object := fun first second =>
  decidable_of_iff (first.typeName = second.typeName ∧ first.fields = second.fields)
    ⟨fun ⟨names, fields⟩ => by cases first; cases second; cases names; cases fields; rfl,
      fun same => same ▸ ⟨rfl, rfl⟩⟩

/-- The value of a field, if it is set. -/
def get? (o : Object) (field : String) : Option Value := Entries.find? field o.fields

/-- The field is set. -/
def has (o : Object) (field : String) : Bool := (o.get? field).isSome

/-- The object with a field set. -/
def set (o : Object) (field : String) (value : Value) : Object :=
  { o with fields := Entries.insert field value o.fields }

/-- The object of a type with fields set one after the other. -/
def ofFields (typeName : String) (fields : List (String × Value)) : Object :=
  fields.foldl (fun o entry => o.set entry.1 entry.2) ⟨typeName, []⟩

/-- The fields are in ascending order, so that each name occurs once. -/
def WellFormed (o : Object) : Prop := Ascending o.fields

/-- Setting a field keeps the fields in order. -/
theorem WellFormed.set {o : Object} (wellFormed : o.WellFormed) (field : String)
    (value : Value) : (o.set field value).WellFormed :=
  Ascending.insert wellFormed field value

/-- The text of the object as a value. -/
def text (o : Object) : String := (Value.ofObject o).text

/-- The text of the object that also shows the kinds of its fields. -/
def detail (o : Object) : String := (Value.ofObject o).detail

end Object

end Rete
