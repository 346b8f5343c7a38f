/-!
# Plain data

The form in which packages of rules, facts and descriptions of compiled rules are exchanged with
other programs: trees of null, booleans, integers, texts, lists and records. The modules below
this one say how each type of the library is written in that form and read from it. Readers pass
over fields that they do not know and take a missing field for null.
-/

namespace Rete

/-- A tree of plain data. -/
inductive Plain where
  | null
  | bool (b : Bool)
  | int (n : Int)
  | text (s : String)
  | list (items : List Plain)
  | record (fields : List (String × Plain))
  deriving Inhabited

/-- Types that are written as plain data. -/
class ToPlain (α : Type) where
  plain : α → Plain

/-- Types that are read from plain data. -/
class OfPlain (α : Type) where
  ofPlain? : Plain → Option α

export ToPlain (plain)
export OfPlain (ofPlain?)

namespace Plain

/-- A field of a record; null if there is none. -/
def field (data : Plain) (name : String) : Plain :=
  match data with
  | record fields => (fields.lookup name).getD null
  | _ => null

/-- An item of a list; null behind its end. -/
def item (data : Plain) (index : Nat) : Plain :=
  match data with
  | list items => items[index]?.getD null
  | _ => null

/-- Nothing was given. -/
def isNull : Plain → Bool
  | null => true
  | _ => false

/-- Reads a field of a record. -/
def get? {α : Type} [OfPlain α] (data : Plain) (name : String) : Option α :=
  ofPlain? (data.field name)

/-- Reads an item of a list. -/
def at? {α : Type} [OfPlain α] (data : Plain) (index : Nat) : Option α :=
  ofPlain? (data.item index)

end Plain

/-- Plain data writes itself. -/
instance : ToPlain Plain := ⟨id⟩

/-- A truth value is written as such. -/
instance : ToPlain Bool := ⟨.bool⟩

/-- An integer is written as such, of any size. -/
instance : ToPlain Int := ⟨.int⟩

/-- A natural number is written as an integer. -/
instance : ToPlain Nat := ⟨fun n => .int n⟩

/-- A machine integer is written as the integer it stands for. -/
instance : ToPlain Int64 := ⟨fun n => .int n.toInt⟩

/-- A text is written as such. -/
instance : ToPlain String := ⟨.text⟩

/-- The unit carries no data. -/
instance : ToPlain Unit := ⟨fun _ => .null⟩

/-- An optional value is written as itself or as nothing. -/
instance {α : Type} [ToPlain α] : ToPlain (Option α) := ⟨fun found => (found.map plain).getD .null⟩

/-- A list is written item by item. -/
instance {α : Type} [ToPlain α] : ToPlain (List α) := ⟨fun items => .list (items.map plain)⟩

section Tuples

variable {α β γ δ ε : Type} [ToPlain α] [ToPlain β] [ToPlain γ] [ToPlain δ] [ToPlain ε]

/-- A pair is written as a list of two items. -/
instance : ToPlain (α × β) := ⟨fun (a, b) => .list [plain a, plain b]⟩

/-- A triple is written as a list of three items. -/
instance : ToPlain (α × β × γ) := ⟨fun (a, b, c) => .list [plain a, plain b, plain c]⟩

/-- Four components are written as a list. -/
instance : ToPlain (α × β × γ × δ) :=
  ⟨fun (a, b, c, d) => .list [plain a, plain b, plain c, plain d]⟩

/-- Five components are written as a list. -/
instance : ToPlain (α × β × γ × δ × ε) :=
  ⟨fun (a, b, c, d, e) => .list [plain a, plain b, plain c, plain d, plain e]⟩

end Tuples

/-- Plain data reads as itself. -/
instance : OfPlain Plain := ⟨some⟩

/-- A text reads only from a text. -/
instance : OfPlain String where
  ofPlain?
    | .text s => some s
    | _ => none

/-- An integer reads only from an integer. -/
instance : OfPlain Int where
  ofPlain?
    | .int n => some n
    | _ => none

/-- A natural number reads from an integer, which is cut off at zero. -/
instance : OfPlain Nat where
  ofPlain?
    | .int n => some n.toNat
    | _ => none

/-- Null is false. -/
instance : OfPlain Bool where
  ofPlain?
    | .bool b => some b
    | .null => some false
    | _ => none

/-- Nothing given reads as none. -/
instance {α : Type} [OfPlain α] : OfPlain (Option α) where
  ofPlain?
    | .null => some none
    | data => (ofPlain? data).map some

/-- Null is the empty list. -/
instance {α : Type} [OfPlain α] : OfPlain (List α) where
  ofPlain?
    | .list items => items.mapM ofPlain?
    | .null => some []
    | _ => none

/-- A pair reads from the first items of a list. -/
instance {α β : Type} [OfPlain α] [OfPlain β] : OfPlain (α × β) where
  ofPlain? data := do return (← data.at? 0, ← data.at? 1)

/-- A triple reads from the first items of a list. -/
instance {α β γ : Type} [OfPlain α] [OfPlain β] [OfPlain γ] : OfPlain (α × β × γ) where
  ofPlain? data := do return (← data.at? 0, ← data.at? 1, ← data.at? 2)

end Rete
