/-!
# MessagePack

A binary format for trees of nil, booleans, numbers, strings, byte strings, lists and maps. Every
item starts with a byte that tells its kind and, for small items, also its value or length
(`Lead`). `Item.encode` writes the shortest form of each item; `decode` reads every form and
returns what follows the item.
-/

namespace Rete.MessagePack

/-- A sequence of bytes. -/
abbrev Bytes : Type := List UInt8

/-- A tree of data. Strings are kept as the bytes that stand in the file, which need not be
text. -/
inductive Item where
  | nil
  | bool (b : Bool)
  | int (n : Int)
  | single (bits : UInt32)
  | double (bits : UInt64)
  | string (utf8 : Bytes)
  | binary (bytes : Bytes)
  | array (items : List Item)
  | map (entries : List (Item × Item))
  | extension (tag : UInt8) (bytes : Bytes)
  deriving Inhabited

/-! ## Numbers in bytes -/

/-- The last `width` bytes of a number, the most significant first. -/
def bigEndian : (width : Nat) → Nat → Bytes
  | 0, _ => []
  | width + 1, n => bigEndian width (n / 256) ++ [UInt8.ofNat (n % 256)]

/-- The number that bytes stand for. -/
def ofBigEndian (bytes : Bytes) : Nat := bytes.foldl (fun n byte => 256 * n + byte.toNat) 0

/-- The number that bytes stand for in two's complement. -/
def ofSigned (bytes : Bytes) : Int :=
  let n := ofBigEndian bytes
  let range := Nat.pow 256 bytes.length
  if 2 * n < range then n else (n : Int) - range

/-- The first bytes, and the rest. -/
def takeBytes (count : Nat) (bytes : Bytes) : Option (Bytes × Bytes) :=
  if count ≤ bytes.length then some (bytes.splitAt count) else none

/-! ## Writing -/

/-- How the length of an item is written: below `fixLimit` in the first byte, else in as many bytes
as it needs behind one of the tags. -/
structure LengthFormat where
  fixLimit : Nat
  fixBase : Nat
  /-- Pairs of the width of a length and the first byte, in ascending order. -/
  tags : List (Nat × UInt8)

/-- How the length of a text is written. -/
def stringLength : LengthFormat := ⟨32, 0xa0, [(1, 0xd9), (2, 0xda), (4, 0xdb)]⟩

/-- How the length of a byte string is written. -/
def binaryLength : LengthFormat := ⟨0, 0, [(1, 0xc4), (2, 0xc5), (4, 0xc6)]⟩

/-- How the number of items of an array is written. -/
def arrayLength : LengthFormat := ⟨16, 0x90, [(2, 0xdc), (4, 0xdd)]⟩

/-- How the number of entries of a map is written. -/
def mapLength : LengthFormat := ⟨16, 0x80, [(2, 0xde), (4, 0xdf)]⟩

/-- How the length of extension data is written. -/
def extensionLength : LengthFormat := ⟨0, 0, [(1, 0xc7), (2, 0xc8), (4, 0xc9)]⟩

/-- Writes a number behind the first tag whose width suffices. -/
def encodeTagged (n : Nat) : List (Nat × UInt8) → Bytes
  | [] => []
  | (width, tag) :: wider =>
    if n < Nat.pow 256 width then tag :: bigEndian width n else encodeTagged n wider

/-- Writes a length. -/
def LengthFormat.encode (format : LengthFormat) (length : Nat) : Bytes :=
  if length < format.fixLimit then [UInt8.ofNat (format.fixBase + length)]
  else encodeTagged length format.tags

/-- Writes a negative number behind the first tag whose width suffices. -/
def encodeNegative (n : Int) : List (Nat × UInt8) → Bytes
  | [] => []
  | (width, tag) :: wider =>
    if 0 ≤ 2 * n + Nat.pow 256 width then tag :: bigEndian width (n + Nat.pow 256 width).toNat
    else encodeNegative n wider

/-- Writes an integer of up to eight bytes. -/
def encodeInt (n : Int) : Bytes :=
  if 0 ≤ n then
    if n < 128 then [UInt8.ofNat n.toNat]
    else encodeTagged n.toNat [(1, 0xcc), (2, 0xcd), (4, 0xce), (8, 0xcf)]
  else if -32 ≤ n then [UInt8.ofNat (n + 256).toNat]
  else encodeNegative n [(1, 0xd0), (2, 0xd1), (4, 0xd2), (8, 0xd3)]

mutual

/-- Writes an item. -/
def Item.encode : Item → Bytes
  | nil => [0xc0]
  | bool b => if b then [0xc3] else [0xc2]
  | int n => encodeInt n
  | single bits => 0xca :: bigEndian 4 bits.toNat
  | double bits => 0xcb :: bigEndian 8 bits.toNat
  | string utf8 => stringLength.encode utf8.length ++ utf8
  | binary bytes => binaryLength.encode bytes.length ++ bytes
  | array items => arrayLength.encode items.length ++ Item.encodeAll items
  | map entries => mapLength.encode entries.length ++ Item.encodeEntries entries
  | extension tag bytes => extensionLength.encode bytes.length ++ tag :: bytes

/-- Writes items one after the other. -/
def Item.encodeAll : List Item → Bytes
  | [] => []
  | item :: rest => item.encode ++ Item.encodeAll rest

/-- Writes the keys and values of a map. -/
def Item.encodeEntries : List (Item × Item) → Bytes
  | [] => []
  | (key, value) :: rest => key.encode ++ value.encode ++ Item.encodeEntries rest

end

/-! ## Reading -/

/-- A length: known from the first byte, or in a number of bytes behind it. -/
inductive Length where
  | known (n : Nat)
  | counted (width : Nat)

/-- What the first byte of an item tells. -/
inductive Lead where
  | whole (item : Item)
  | unsigned (width : Nat)
  | signed (width : Nat)
  | single
  | double
  | string (length : Length)
  | binary (length : Length)
  | array (length : Length)
  | map (length : Length)
  | extension (length : Length)

/-- What a byte tells as the first of an item; one byte is not in use. -/
def Lead.ofByte? (byte : UInt8) : Option Lead :=
  let n := byte.toNat
  if n < 0x80 then some (.whole (.int n))
  else if n < 0x90 then some (.map (.known (n - 0x80)))
  else if n < 0xa0 then some (.array (.known (n - 0x90)))
  else if n < 0xc0 then some (.string (.known (n - 0xa0)))
  else if 0xe0 ≤ n then some (.whole (.int (n - 256)))
  else
    match n with
    | 0xc0 => some (.whole .nil)
    | 0xc2 => some (.whole (.bool false))
    | 0xc3 => some (.whole (.bool true))
    | 0xc4 => some (.binary (.counted 1))
    | 0xc5 => some (.binary (.counted 2))
    | 0xc6 => some (.binary (.counted 4))
    | 0xc7 => some (.extension (.counted 1))
    | 0xc8 => some (.extension (.counted 2))
    | 0xc9 => some (.extension (.counted 4))
    | 0xca => some .single
    | 0xcb => some .double
    | 0xcc => some (.unsigned 1)
    | 0xcd => some (.unsigned 2)
    | 0xce => some (.unsigned 4)
    | 0xcf => some (.unsigned 8)
    | 0xd0 => some (.signed 1)
    | 0xd1 => some (.signed 2)
    | 0xd2 => some (.signed 4)
    | 0xd3 => some (.signed 8)
    | 0xd4 => some (.extension (.known 1))
    | 0xd5 => some (.extension (.known 2))
    | 0xd6 => some (.extension (.known 4))
    | 0xd7 => some (.extension (.known 8))
    | 0xd8 => some (.extension (.known 16))
    | 0xd9 => some (.string (.counted 1))
    | 0xda => some (.string (.counted 2))
    | 0xdb => some (.string (.counted 4))
    | 0xdc => some (.array (.counted 2))
    | 0xdd => some (.array (.counted 4))
    | 0xde => some (.map (.counted 2))
    | 0xdf => some (.map (.counted 4))
    | _ => none

/-- Reads a length. -/
def Length.decode (bytes : Bytes) : Length → Option (Nat × Bytes)
  | known n => some (n, bytes)
  | counted width => (takeBytes width bytes).map fun (first, rest) => (ofBigEndian first, rest)

/-- Reads a number of things one after the other. -/
def decodeMany {α : Type} (read : Bytes → Option (α × Bytes)) :
    (count : Nat) → Bytes → Option (List α × Bytes)
  | 0, bytes => some ([], bytes)
  | count + 1, bytes => do
    let (first, bytes) ← read bytes
    let (others, bytes) ← decodeMany read count bytes
    return (first :: others, bytes)

/-- Reads two things one after the other. -/
def decodePair {α : Type} (read : Bytes → Option (α × Bytes)) (bytes : Bytes) :
    Option ((α × α) × Bytes) := do
  let (key, bytes) ← read bytes
  let (value, bytes) ← read bytes
  return ((key, value), bytes)

/-- Reads what follows the first byte of an item. -/
def Lead.decode (read : Bytes → Option (Item × Bytes)) (bytes : Bytes) :
    Lead → Option (Item × Bytes)
  | whole item => some (item, bytes)
  | unsigned width => do
    let (first, rest) ← takeBytes width bytes
    return (.int (ofBigEndian first), rest)
  | signed width => do
    let (first, rest) ← takeBytes width bytes
    return (.int (ofSigned first), rest)
  | single => do
    let (first, rest) ← takeBytes 4 bytes
    return (.single (UInt32.ofNat (ofBigEndian first)), rest)
  | double => do
    let (first, rest) ← takeBytes 8 bytes
    return (.double (UInt64.ofNat (ofBigEndian first)), rest)
  | string length => do
    let (count, bytes) ← length.decode bytes
    let (first, rest) ← takeBytes count bytes
    return (.string first, rest)
  | binary length => do
    let (count, bytes) ← length.decode bytes
    let (first, rest) ← takeBytes count bytes
    return (.binary first, rest)
  | array length => do
    let (count, bytes) ← length.decode bytes
    let (items, rest) ← decodeMany read count bytes
    return (.array items, rest)
  | map length => do
    let (count, bytes) ← length.decode bytes
    let (entries, rest) ← decodeMany (decodePair read) count bytes
    return (.map entries, rest)
  | extension length => do
    let (count, bytes) ← length.decode bytes
    match bytes with
    | [] => none
    | tag :: bytes =>
      let (first, rest) ← takeBytes count bytes
      return (.extension tag first, rest)

/-- Reads an item that is nested at most `depth` deep. -/
def decodeNested : (depth : Nat) → Bytes → Option (Item × Bytes)
  | 0, _ => none
  | _, [] => none
  | depth + 1, byte :: bytes => do (← Lead.ofByte? byte).decode (decodeNested depth) bytes

/-- Reads an item; also returns what follows it. No item is nested deeper than it has bytes. -/
def decode (bytes : Bytes) : Option (Item × Bytes) := decodeNested bytes.length bytes

end Rete.MessagePack
