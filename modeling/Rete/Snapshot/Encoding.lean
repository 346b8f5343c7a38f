import Rete.MessagePack
import Rete.Snapshot.Basic

/-!
# Snapshots in bytes

Snapshots are stored in MessagePack: records are maps from the names of their fields, and a value
is its kind, or a map from its kind to its content. Reading takes the fields of a record in any
order, or without names in the order in which they are written, and passes over fields that it does
not know; a field that is missing or comes twice makes a record unreadable.
-/

namespace Rete

namespace MessagePack.Item

/-! ## Texts, numbers and lists -/

/-- A text as an item. -/
def ofString (s : String) : Item := .string s.toUTF8.data.toList

/-- A number as an item. -/
def ofNat (n : Nat) : Item := .int n

/-- A record as an item. -/
def ofFields (fields : List (String × Item)) : Item :=
  .map (fields.map fun (name, content) => (ofString name, content))

/-- The bytes of a string. -/
def bytes? : Item → Option Bytes
  | string bytes | binary bytes => some bytes
  | _ => none

/-- Reads a text. -/
def string? (item : Item) : Option String := do
  String.fromUTF8? ⟨(← item.bytes?).toArray⟩

/-- Reads an integer within bounds. -/
def int? (low high : Int) : Item → Option Int
  | int n => if low ≤ n ∧ n < high then some n else none
  | _ => none

/-- Reads an integer of up to `bits` bits in two's complement. -/
def signed? (bits : Nat) (item : Item) : Option Int :=
  item.int? (-(Nat.pow 2 (bits - 1) : Nat)) (Nat.pow 2 (bits - 1))

/-- Reads a natural number of up to `bits` bits. -/
def nat? (bits : Nat) (item : Item) : Option Nat := (item.int? 0 (Nat.pow 2 bits)).map Int.toNat

/-- Reads a boolean. -/
def bool? : Item → Option Bool
  | bool b => some b
  | _ => none

/-- Reads a list. -/
def list? {α : Type} (read : Item → Option α) : Item → Option (List α)
  | array items => items.mapM read
  | _ => none

/-- Reads a pair. -/
def pair? {α β : Type} (first : Item → Option α) (second : Item → Option β) :
    Item → Option (α × β)
  | array [a, b] => do return (← first a, ← second b)
  | _ => none

/-! ## Records -/

/-- The position among names that a key stands for. A key that is no name and no number is an
error, one that is not known has no position. -/
def position? (names : List String) (key : Item) : Option (Option Nat) :=
  match key with
  | string bytes | binary bytes =>
    some (names.findIdx? fun name => name.toUTF8.data.toList == bytes)
  | int n => if n < 0 then none else some (if n < names.length then some n.toNat else none)
  | _ => none

/-- The known fields of a record by their positions. -/
def positions? (names : List String) : List (Item × Item) → Option (List (Nat × Item))
  | [] => some []
  | (key, content) :: rest => do
    let position ← position? names key
    let others ← positions? names rest
    match position with
    | some position => return (position, content) :: others
    | none => return others

/-- The contents of the fields of a record, in the order of their names. -/
def fields? (names : List String) : Item → Option (List Item)
  | array items => if items.length = names.length then some items else none
  | map entries => do
    let known ← positions? names entries
    guard (known.length = names.length)
    (List.range names.length).mapM fun position => known.lookup position
  | _ => none

end MessagePack.Item

open MessagePack (Item Bytes)

/-! ## Values -/

namespace Binary64

/-- A number of single precision, which is one of double precision too. -/
def ofSingle (bits : UInt32) : Binary64 := ⟨(Float32.ofBits bits).toFloat.toBits⟩

/-- Reads a number; integers are rounded to the nearest one. -/
def ofItem? : Item → Option Binary64
  | .double bits => some ⟨bits⟩
  | .single bits => some (ofSingle bits)
  | .int n => some ⟨(Float.ofInt n).toBits⟩
  | _ => none

end Binary64

namespace Value

/-- The kinds of values as they are stored. -/
def kinds : List String := ["Nil", "Bool", "Int", "Float", "String", "List", "Object"]

/-- The fields of an object as they are stored. -/
def objectFields : List String := ["type_name", "fields"]

/-- A content under its kind. -/
def tagged (kind : String) (content : Item) : Item := .ofFields [(kind, content)]

mutual

/-- A value is tagged with its kind, except for nothing, which is only the tag. -/
def toItem : Value → Item
  | nil => .ofString "Nil"
  | bool b => tagged "Bool" (.bool b)
  | int n => tagged "Int" (.int n.toInt)
  | float x => tagged "Float" (.double x.bits)
  | string s => tagged "String" (.ofString s)
  | list items => tagged "List" (.array (toItems items))
  | object typeName fields =>
    tagged "Object"
      (.ofFields [("type_name", .ofString typeName), ("fields", .map (toEntries fields))])

/-- The items of a list, in order. -/
def toItems : List Value → List Item
  | [] => []
  | item :: rest => item.toItem :: toItems rest

/-- The fields of an object, in order. -/
def toEntries : List (String × Value) → List (Item × Item)
  | [] => []
  | (name, value) :: rest => (.ofString name, value.toItem) :: toEntries rest

end

mutual

/-- Reads a value. -/
def ofItem? : Item → Option Value
  | .map [(kind, content)] =>
    match Item.position? kinds kind with
    | some (some 0) => if content matches .nil then some nil else none
    | some (some 1) => content.bool?.map bool
    | some (some 2) => (content.signed? 64).map fun n => int (Int64.ofInt n)
    | some (some 3) => (Binary64.ofItem? content).map float
    | some (some 4) => content.string?.map string
    | some (some 5) => match content with
      | .array items => (ofItems? items).map list
      | _ => none
    | some (some 6) => match content with
      | .map entries => ofObjectEntries? none none entries
      | .array [typeName, .map fields] => do
        return .ofObject (.ofFields (← typeName.string?) (← ofEntries? fields))
      | _ => none
    | _ => none
  | .string kind => if Item.position? kinds (.string kind) = some (some 0) then some nil else none
  | .binary kind => if Item.position? kinds (.binary kind) = some (some 0) then some nil else none
  | .int n => if n = 0 then some nil else none
  | _ => none

/-- The items of a list, if each is a value. -/
def ofItems? : List Item → Option (List Value)
  | [] => some []
  | item :: rest => do return (← ofItem? item) :: (← ofItems? rest)

/-- Reads the record of an object, given the type name and the fields as far as they are known. -/
def ofObjectEntries? (typeName : Option String) (fields : Option (List (String × Value))) :
    List (Item × Item) → Option Value
  | [] => do return .ofObject (.ofFields (← typeName) (← fields))
  | (key, content) :: rest => do
    match ← Item.position? objectFields key with
    | some 0 =>
      guard typeName.isNone
      ofObjectEntries? (some (← content.string?)) fields rest
    | some 1 =>
      guard fields.isNone
      match content with
      | .map entries => do ofObjectEntries? typeName (some (← ofEntries? entries)) rest
      | _ => none
    | _ => ofObjectEntries? typeName fields rest

/-- The fields of an object, if each is a name with a value. -/
def ofEntries? : List (Item × Item) → Option (List (String × Value))
  | [] => some []
  | (name, value) :: rest => do
    return (← name.string?, ← ofItem? value) :: (← ofEntries? rest)

end

end Value

namespace Object

/-- The record of an object. -/
def toItem (o : Object) : Item :=
  .ofFields [("type_name", .ofString o.typeName), ("fields", .map (Value.toEntries o.fields))]

/-- Reads the record of an object. -/
def ofItem? (item : Item) : Option Object := do
  match ← item.fields? Value.objectFields with
  | [typeName, .map fields] => return .ofFields (← typeName.string?) (← Value.ofEntries? fields)
  | _ => none

end Object

/-! ## Records -/

namespace Handle

/-- A handle is its number. -/
def toItem (handle : Handle) : Item := .int handle

/-- A number that fits a handle. -/
def ofItem? (item : Item) : Option Handle := item.nat? 64

end Handle

namespace Tuple

/-- A tuple is the array of its handles. -/
def toItem (tuple : Tuple) : Item := .array (tuple.map Handle.toItem)

/-- An array of handles. -/
def ofItem? : Item → Option Tuple := Item.list? Handle.ofItem?

end Tuple

namespace Settled

/-- The names of the kinds, by position. -/
def kinds : List String := ["Fired", "Suppressed"]

/-- The name of a settled state. -/
def name : Settled → String
  | fired => "Fired"
  | suppressed => "Suppressed"

/-- Reads a kind by its position. -/
def ofPosition? : Option (Option Nat) → Option Settled
  | some (some 0) => some fired
  | some (some 1) => some suppressed
  | _ => none

/-- A kind, alone or as the tag of nothing. -/
def ofItem? : Item → Option Settled
  | .map [(kind, .nil)] => ofPosition? (Item.position? kinds kind)
  | item => ofPosition? (Item.position? kinds item)

end Settled

namespace NodeRecord

/-- A node by the names of its fields. -/
def toItem (node : NodeRecord) : Item :=
  .ofFields [("node", .ofNat node.node), ("label", .ofString node.label)]

/-- A node, its fields by name or by position. -/
def ofItem? (item : Item) : Option NodeRecord := do
  match ← item.fields? ["node", "label"] with
  | [node, label] => return ⟨← node.nat? 32, ← label.string?⟩
  | _ => none

end NodeRecord

namespace FactRecord

/-- A fact by the names of its fields. -/
def toItem (fact : FactRecord) : Item :=
  .ofFields
    [("handle", fact.handle.toItem), ("type_name", .ofString fact.typeName),
      ("object", fact.object.toItem)]

/-- A fact, its fields by name or by position. -/
def ofItem? (item : Item) : Option FactRecord := do
  match ← item.fields? ["handle", "type_name", "object"] with
  | [handle, typeName, object] =>
    return ⟨← Handle.ofItem? handle, ← typeName.string?, ← Object.ofItem? object⟩
  | _ => none

end FactRecord

namespace MemoryRecord

/-- A list of pairs of a node and something of it. -/
def perNode {α : Type} (write : α → Item) (nodes : List (NodeId × α)) : Item :=
  .array (nodes.map fun (node, content) => .array [.ofNat node, write content])

/-- Reads a list of pairs of a node and something of it. -/
def perNode? {α : Type} (read : Item → Option α) : Item → Option (List (NodeId × α)) :=
  Item.list? (Item.pair? (Item.nat? 32) read)

/-- The memories by the names of their tables. -/
def toItem (memory : MemoryRecord) : Item :=
  .ofFields
    [("seeded", .bool memory.seeded), ("alpha", perNode Tuple.toItem memory.alpha),
      ("beta", perNode (fun tokens => .array (tokens.map Tuple.toItem)) memory.beta),
      ("blockers", perNode (fun blocked => .array (blocked.map fun (token, facts) =>
        .array [Tuple.toItem token, Tuple.toItem facts])) memory.blockers)]

/-- The memories, their tables by name or by position. -/
def ofItem? (item : Item) : Option MemoryRecord := do
  match ← item.fields? ["seeded", "alpha", "beta", "blockers"] with
  | [seeded, alpha, beta, blockers] =>
    return {
      seeded := ← seeded.bool?
      alpha := ← perNode? Tuple.ofItem? alpha
      beta := ← perNode? (Item.list? Tuple.ofItem?) beta
      blockers := ← perNode? (Item.list? (Item.pair? Tuple.ofItem? Tuple.ofItem?)) blockers }
  | _ => none

end MemoryRecord

namespace ActivationRecord

/-- An activation by the names of its fields. -/
def toItem (activation : ActivationRecord) : Item :=
  .ofFields
    [("package", .ofString activation.package), ("rule", .ofString activation.rule),
      ("tuple", Tuple.toItem activation.tuple), ("salience", .int activation.salience),
      ("sequence", .ofNat activation.sequence)]

/-- An activation, its fields by name or by position. -/
def ofItem? (item : Item) : Option ActivationRecord := do
  match ← item.fields? ["package", "rule", "tuple", "salience", "sequence"] with
  | [package, rule, tuple, salience, sequence] =>
    return ⟨← package.string?, ← rule.string?, ← Tuple.ofItem? tuple,
      ← salience.signed? 32, ← sequence.nat? 64⟩
  | _ => none

end ActivationRecord

namespace MatchRecord

/-- A match by the names of its fields. -/
def toItem (found : MatchRecord) : Item :=
  .ofFields
    [("package", .ofString found.package), ("rule", .ofString found.rule),
      ("tuple", Tuple.toItem found.tuple), ("state", .ofString found.state.name)]

/-- A match, its fields by name or by position. -/
def ofItem? (item : Item) : Option MatchRecord := do
  match ← item.fields? ["package", "rule", "tuple", "state"] with
  | [package, rule, tuple, state] =>
    return ⟨← package.string?, ← rule.string?, ← Tuple.ofItem? tuple, ← Settled.ofItem? state⟩
  | _ => none

end MatchRecord

namespace Snapshot

/-- The names of the parts of a snapshot, in the order in which they are written. -/
def fieldNames : List String :=
  ["version", "nodes", "facts", "memory", "activations", "settled", "globals", "next_handle",
    "next_sequence"]

/-- A snapshot by the names of its parts. -/
def toItem (snapshot : Snapshot) : Item :=
  .ofFields
    [("version", .ofNat snapshot.version),
      ("nodes", .array (snapshot.nodes.map NodeRecord.toItem)),
      ("facts", .array (snapshot.facts.map FactRecord.toItem)),
      ("memory", snapshot.memory.toItem),
      ("activations", .array (snapshot.activations.map ActivationRecord.toItem)),
      ("settled", .array (snapshot.settled.map MatchRecord.toItem)),
      ("globals", .array (snapshot.globals.map fun (name, value) =>
        .array [.ofString name, value.toItem])),
      ("next_handle", snapshot.nextHandle.toItem),
      ("next_sequence", .ofNat snapshot.nextSequence)]

/-- A snapshot, its parts by name or by position. -/
def ofItem? (item : Item) : Option Snapshot := do
  match ← item.fields? fieldNames with
  | [version, nodes, facts, memory, activations, settled, globals, nextHandle, nextSequence] =>
    return {
      version := ← version.nat? 32
      nodes := ← Item.list? NodeRecord.ofItem? nodes
      facts := ← Item.list? FactRecord.ofItem? facts
      memory := ← MemoryRecord.ofItem? memory
      activations := ← Item.list? ActivationRecord.ofItem? activations
      settled := ← Item.list? MatchRecord.ofItem? settled
      globals := ← Item.list? (Item.pair? Item.string? Value.ofItem?) globals
      nextHandle := ← Handle.ofItem? nextHandle
      nextSequence := ← nextSequence.nat? 64 }
  | _ => none

/-- The stored form. -/
def toBytes (snapshot : Snapshot) : Bytes := snapshot.toItem.encode

/-- Reads the stored form; what follows it is passed over. Only the version that is written can be
read. -/
def ofBytes (bytes : Bytes) : Except Error Snapshot :=
  match (MessagePack.decode bytes).bind fun (item, _) => ofItem? item with
  | none => .error (Cause.serialization "the bytes are no snapshot" : Error)
  | some snapshot =>
    if snapshot.version = snapshotVersion then .ok snapshot
    else
      misfit ("snapshot version " ++ toString snapshot.version ++
        " is not supported (expected " ++ toString snapshotVersion ++ ")")

end Snapshot

end Rete
