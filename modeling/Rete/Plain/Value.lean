import Rete.Declaration
import Rete.Plain

/-!
# Plain form of values

Nil, booleans, integers, strings and lists stand for themselves. A float is a record of its bits
in sixteen hexadecimal digits, or of `nan`; an object is a record of its type and its fields.
-/

namespace Rete

namespace Binary64

/-- The bits in sixteen hexadecimal digits; all NaNs are written alike. -/
def hexText (x : Binary64) : String :=
  if x.isNaN then "nan"
  else
    let digits := Nat.toDigits 16 x.bits.toNat
    String.ofList (List.replicate (16 - digits.length) '0' ++ digits)

/-- The value of a hexadecimal digit. -/
def hexDigit? (c : Char) : Option Nat :=
  if '0' ≤ c ∧ c ≤ '9' then some (c.toNat - '0'.toNat)
  else if 'a' ≤ c ∧ c ≤ 'f' then some (c.toNat - 'a'.toNat + 10)
  else none

/-- Reads hexadecimal bits or `nan`. -/
def ofHexText? (s : String) : Option Binary64 :=
  if s = "nan" then some quietNaN
  else
    (s.toList.foldlM (fun n c => (hexDigit? c).map (16 * n + ·)) 0).map fun n =>
      ⟨UInt64.ofNat n⟩

end Binary64

/-! ## Types -/

/-- A type is written by its name, or as a record where it has a part. -/
def ValueType.toPlain : ValueType → Plain
  | .list element => .record [("list", element.toPlain)]
  | .object name => .record [("object", .text name)]
  | type => .text type.text

/-- The type that is written so, if any is. -/
def ValueType.ofPlain? : Plain → Option ValueType
  | .text name => [nil, bool, int, float, string, any].find? fun type => type.text == name
  | .record [("list", element)] => (ofPlain? element).map .list
  | .record [("object", .text name)] => some (.object name)
  | _ => none

/-- Types are written by name or part. -/
instance : ToPlain ValueType := ⟨ValueType.toPlain⟩

/-- Types are read by name or part. -/
instance : OfPlain ValueType := ⟨ValueType.ofPlain?⟩

/-! ## Values -/

namespace Value

mutual

/-- A value is written so that its form can be told. -/
def toPlain : Value → Plain
  | nil => .null
  | bool b => .bool b
  | int n => plain n
  | float x => .record [("f", .text x.hexText)]
  | string s => .text s
  | list items => .list (toPlainItems items)
  | object typeName fields =>
    .record [("o", .text typeName), ("fields", .list (toPlainFields fields))]

/-- The items of a list, in order. -/
def toPlainItems : List Value → List Plain
  | [] => []
  | item :: rest => item.toPlain :: toPlainItems rest

/-- The fields of an object, in order. -/
def toPlainFields : List (String × Value) → List Plain
  | [] => []
  | (name, value) :: rest => .list [.text name, value.toPlain] :: toPlainFields rest

end

mutual

/-- Reads a value. The fields of an object are set one after the other. -/
def ofPlain? : Plain → Option Value
  | .null => some nil
  | .bool b => some (bool b)
  | .int n => some (int (Int64.ofInt n))
  | .text s => some (string s)
  | .list items => (ofPlainItems? items).map list
  | .record fields => ofPlainRecord? none [] fields

/-- The items of a list, if all of them are values. -/
def ofPlainItems? : List Plain → Option (List Value)
  | [] => some []
  | item :: rest => do return (← ofPlain? item) :: (← ofPlainItems? rest)

/-- Reads a record, given the type name and the fields of an object as far as they are known. -/
def ofPlainRecord? (typeName : Option String) (set : List (String × Value)) :
    List (String × Plain) → Option Value
  | [] => typeName.map fun name => .ofObject (.ofFields name set)
  | ("f", .text bits) :: _ => (Binary64.ofHexText? bits).map float
  | ("o", .text name) :: rest => ofPlainRecord? (some name) set rest
  | ("fields", .list entries) :: rest => do
    ofPlainRecord? typeName (← ofPlainEntries? entries) rest
  | _ :: rest => ofPlainRecord? typeName set rest

/-- The fields of an object, if all of them are pairs of a name and a value. -/
def ofPlainEntries? : List Plain → Option (List (String × Value))
  | [] => some []
  | .list [.text name, value] :: rest => do
    return (name, ← ofPlain? value) :: (← ofPlainEntries? rest)
  | _ => none

end

end Value

/-- Values are written by form. -/
instance : ToPlain Value := ⟨Value.toPlain⟩

/-- Values are read by form. -/
instance : OfPlain Value := ⟨Value.ofPlain?⟩

/-- An object is written as the value it is. -/
instance : ToPlain Object := ⟨fun o => plain (Value.ofObject o)⟩

/-- An object is read from a value that is one. -/
instance : OfPlain Object := ⟨fun data => (ofPlain? data).bind Value.asObject?⟩

/-! ## Places -/

/-- A place is written as its four numbers. -/
instance : ToPlain Span := ⟨fun span => plain (span.start, span.stop, span.line, span.column)⟩

/-- Null is the unknown place. -/
instance : OfPlain Span where
  ofPlain?
    | .null => some {}
    | data => do return ⟨← data.at? 0, ← data.at? 1, ← data.at? 2, ← data.at? 3⟩

end Rete
