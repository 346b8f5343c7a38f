import Mathlib.Data.Option.Basic
import Rete.Proofs.MessagePack
import Rete.Proofs.SortedMap
import Rete.Snapshot.Encoding

/-!
# What items keep

Something is kept by the item that it is stored as if the item can be written and is read back
(`Item.Keeps`). Texts, numbers, lists and pairs are kept if they are small enough. A record is read
back field by field, because its names are distinct (`Item.FieldNames.fields?_ofFields`). Values are
kept at any depth (`Value.keeps`): the kind that a value is stored under leads back to the reader of
its content, and objects are rebuilt from their fields since these are in ascending order.
-/

namespace Rete

namespace MessagePack.Item

variable {α β : Type} {write : α → Item} {read : Item → Option α}

/-- What is written can be written in bytes, and is read back. -/
structure Keeps (write : α → Item) (read : Item → Option α) (content : α) : Prop where
  fits : (write content).Fits
  back : read (write content) = some content

/-- Whether the length of a text can be written. -/
abbrev Short (s : String) : Prop := s.toUTF8.data.toList.length < 2 ^ 32

/-- Whether the length of a list can be written, and each of its members can be stored. -/
def Listable (storable : α → Prop) (contents : List α) : Prop :=
  contents.length < 2 ^ 32 ∧ ∀ content ∈ contents, storable content

/-- What can be stored may be described more weakly. -/
theorem Listable.imp {storable kept : α → Prop} {contents : List α}
    (listable : Listable storable contents) (imp : ∀ {content}, storable content → kept content) :
    Listable kept contents :=
  ⟨listable.1, fun content member => imp (listable.2 content member)⟩

/-! ## Texts and numbers -/

@[simp] theorem fits_ofString {s : String} : (ofString s).Fits ↔ Short s := by
  rw [ofString, Fits]

/-- The text of a string item is that of the string. -/
theorem string?_ofString (s : String) : (ofString s).string? = some s := by
  change String.fromUTF8? ⟨s.toUTF8.data.toList.toArray⟩ = some s
  rw [Array.toArray_toList]
  unfold String.fromUTF8?
  rw [String.toUTF8_eq_toByteArray, dif_pos s.isValidUTF8]
  rfl

/-- A short string is read back. -/
theorem keeps_string {s : String} (short : Short s) : Keeps ofString string? s :=
  ⟨fits_ofString.mpr short, string?_ofString s⟩

private theorem ofString_injective : Function.Injective ofString := fun first second same =>
  Option.some.inj <| (string?_ofString first).symm.trans <|
    (congrArg string? same).trans (string?_ofString second)

private theorem int?_int {low high n : Int} (above : low ≤ n) (below : n < high) :
    (int n).int? low high = some n := if_pos ⟨above, below⟩

/-- A natural number of up to eight bytes. -/
theorem keeps_nat {bits n : Nat} (few : bits ≤ 64) (small : n < 2 ^ bits) :
    Keeps ofNat (nat? bits) n where
  fits := by
    have high : n < 2 ^ 64 := Nat.lt_of_lt_of_le small (Nat.pow_le_pow_right (by decide) few)
    rw [ofNat, Fits]
    omega
  back := by
    have below : (n : Int) < (Nat.pow 2 bits : Nat) := Int.ofNat_lt.mpr small
    rw [nat?, ofNat, int?_int (Int.natCast_nonneg n) below, Option.map_some, Int.toNat_natCast]

/-- A number of up to eight bytes in two's complement. -/
theorem keeps_signed {bits : Nat} {n : Int} (few : bits ≤ 64)
    (low : -(2 ^ (bits - 1) : Nat) ≤ n) (high : n < (2 ^ (bits - 1) : Nat)) :
    Keeps int (signed? bits) n where
  fits := by
    have bound : 2 ^ (bits - 1) ≤ 2 ^ 63 := Nat.pow_le_pow_right (by decide) (by omega)
    rw [Fits]
    omega
  back := int?_int low high

/-! ## Lists and pairs -/

private theorem allFit_iff {items : List Item} : AllFit items ↔ ∀ item ∈ items, item.Fits := by
  induction items with
  | nil => simp only [AllFit, List.not_mem_nil, false_implies, implies_true]
  | cons item items ih => rw [AllFit, ih, List.forall_mem_cons]

/-- A list of what is read back is read back. -/
theorem keeps_list {contents : List α} (listable : Listable (Keeps write read) contents) :
    Keeps (fun contents => array (contents.map write)) (list? read) contents where
  fits := by
    simp only [Fits, List.length_map, allFit_iff, List.forall_mem_map]
    exact ⟨listable.1, fun content member => (listable.2 content member).fits⟩
  back := by
    obtain ⟨-, each⟩ := listable
    change (contents.map write).mapM read = some contents
    induction contents with
    | nil => rfl
    | cons content contents ih =>
        obtain ⟨first, others⟩ := List.forall_mem_cons.mp each
        simp only [List.map_cons, List.mapM_cons, first.back, ih others, Option.bind_eq_bind,
          Option.bind_some, Option.pure_def]

/-- A pair of what is read back is read back. -/
theorem keeps_pair {write' : β → Item} {read' : Item → Option β} {first : α} {second : β}
    (keepsFirst : Keeps write read first) (keepsSecond : Keeps write' read' second) :
    Keeps (fun (pair : α × β) => array [write pair.1, write' pair.2]) (pair? read read')
      (first, second) where
  fits := by
    simp only [Fits, AllFit, List.length_cons, List.length_nil]
    exact ⟨by decide, keepsFirst.fits, keepsSecond.fits, trivial⟩
  back := by
    simp only [pair?, keepsFirst.back, keepsSecond.back, Option.bind_eq_bind, Option.bind_some,
      Option.pure_def]

/-! ## Records -/

/-- Names of the fields of a record. -/
structure FieldNames (names : List String) : Prop where
  distinct : names.Nodup
  few : names.length < 2 ^ 32
  short : ∀ name ∈ names, Short name

private theorem entriesFit_iff {entries : List (Item × Item)} :
    EntriesFit entries ↔ ∀ entry ∈ entries, entry.1.Fits ∧ entry.2.Fits := by
  induction entries with
  | nil => simp only [EntriesFit, List.not_mem_nil, false_implies, implies_true]
  | cons entry entries ih => rw [EntriesFit, ih, List.forall_mem_cons, and_assoc]

/-- The place of a name among distinct ones. -/
theorem FieldNames.position?_ofString {names : List String} (isNames : FieldNames names)
    (position : Nat) {name : String} (found : names[position]? = some name) :
    position? names (ofString name) = some (some position) := by
  obtain ⟨bound, rfl⟩ := List.getElem?_eq_some_iff.mp found
  refine congrArg some (List.findIdx?_eq_some_iff_getElem.mpr ⟨bound, beq_self_eq_true _, ?_⟩)
  intro other before same
  have equal : names[other] = names[position] :=
    ofString_injective (congrArg string (eq_of_beq same))
  exact Nat.ne_of_lt before (isNames.distinct.getElem_inj_iff.mp equal)

private theorem mapM_eq_some {step : α → Option β} {items : List α} {results : List β}
    (each : List.Forall₂ (fun item result => step item = some result) items results) :
    items.mapM step = some results := by
  induction each with
  | nil => rfl
  | cons first _ ih =>
      simp only [List.mapM_cons, first, ih, Option.bind_eq_bind, Option.bind_some, Option.pure_def]

/-- The fields that a record was written with, from a place on. -/
theorem FieldNames.positions?_zip {names : List String} (isNames : FieldNames names)
    {later : List String} {contents : List Item} {start : Nat} (rest : names.drop start = later)
    (same : later.length = contents.length) :
    positions? names ((later.zip contents).map fun (name, content) => (ofString name, content)) =
      some ((List.range' start contents.length).zip contents) := by
  induction contents generalizing later start with
  | nil =>
      obtain rfl := List.length_eq_zero_iff.mp same
      rfl
  | cons content contents ih =>
      obtain ⟨name, later, rfl⟩ := List.exists_cons_of_length_eq_add_one same
      have found : names[start]? = some name := by
        rw [← List.head?_drop, rest, List.head?_cons]
      have behind : names.drop (start + 1) = later := by
        rw [← List.drop_drop, rest, List.drop_one, List.tail_cons]
      have first := isNames.position?_ofString start found
      simp only [List.zip_cons_cons, List.map_cons, positions?, first,
        ih behind (Nat.succ.inj same), Option.bind_eq_bind, Option.bind_some, Option.pure_def,
        List.length_cons, List.range'_succ]

/-- A record is read back field by field. -/
theorem FieldNames.fields?_ofFields {names : List String} (isNames : FieldNames names)
    (contents : List Item) (same : names.length = contents.length) :
    (ofFields (names.zip contents)).fields? names = some contents := by
  have known := isNames.positions?_zip List.drop_zero same
  rw [← List.range_eq_range', ← same] at known
  have distinct : (((List.range names.length).zip contents).map Prod.fst).Nodup := by
    rw [List.map_fst_zip (Nat.le_of_eq (List.length_range.trans same))]
    exact List.nodup_range
  have enough : ((List.range names.length).zip contents).length = names.length := by
    rw [List.length_zip, List.length_range, ← same, Nat.min_self]
  have complete : (guard (((List.range names.length).zip contents).length = names.length) :
      Option Unit) = some () := if_pos enough
  rw [ofFields, fields?, known, Option.bind_eq_bind, Option.bind_some, complete,
    Option.bind_eq_bind, Option.bind_some]
  refine mapM_eq_some (List.forall₂_iff_zip.mpr ⟨List.length_range.trans same, ?_⟩)
  intro position content member
  exact (lookup_eq_some_iff_mem distinct).mpr member

/-- A record can be written if its contents can. -/
theorem FieldNames.fits_ofFields {names : List String} (isNames : FieldNames names)
    (contents : List Item) (each : ∀ content ∈ contents, content.Fits) :
    (ofFields (names.zip contents)).Fits := by
  rw [ofFields, Fits, List.length_map, List.length_zip, entriesFit_iff, List.forall_mem_map]
  refine ⟨Nat.lt_of_le_of_lt (Nat.min_le_left ..) isNames.few, fun field member => ?_⟩
  obtain ⟨name, content⟩ := field
  exact ⟨fits_ofString.mpr (isNames.short name (List.of_mem_zip member).1),
    each content (List.of_mem_zip member).2⟩

/-- A record is kept if its contents can be written and it can be read from them. -/
theorem FieldNames.keeps {names : List String} (isNames : FieldNames names) (contents : List Item)
    (same : names.length = contents.length) {content : α}
    (written : write content = ofFields (names.zip contents))
    (each : ∀ content ∈ contents, content.Fits)
    (reads : (write content).fields? names = some contents →
      read (write content) = some content) : Keeps write read content where
  fits := written ▸ isNames.fits_ofFields contents each
  back := reads (written ▸ isNames.fields?_ofFields contents same)

end MessagePack.Item

open MessagePack (Item)
open MessagePack.Item

/-! ## Objects and values -/

/-- An object is made of its fields. -/
theorem Object.ofFields_fields {typeName : String} {fields : List (String × Value)}
    (ascending : Ascending fields) : ofFields typeName fields = ⟨typeName, fields⟩ := by
  have run : ∀ (entries : List (String × Value)) (map : SortedMap String Value),
      entries.foldl (fun o entry => o.set entry.1 entry.2) (⟨typeName, map.entries⟩ : Object) =
        ⟨typeName,
          (entries.foldl (fun map entry => map.insert entry.1 entry.2) map).entries⟩ := by
    intro entries
    induction entries with
    | nil => exact fun _ => rfl
    | cons entry entries ih => exact fun map => ih (map.insert entry.1 entry.2)
  refine (run fields .empty).trans (congrArg (Object.mk typeName) ?_)
  exact congrArg SortedMap.entries (SortedMap.ofList_entries ⟨fields, ascending⟩)

namespace Value

mutual

/-- Whether a value can be stored: lengths have up to four bytes, and the fields of objects are in
ascending order. -/
def Storable : Value → Prop
  | nil | bool _ | int _ | float _ => True
  | string s => Short s
  | list items => items.length < 2 ^ 32 ∧ AllStorable items
  | object typeName fields =>
    Short typeName ∧ Ascending fields ∧ fields.length < 2 ^ 32 ∧ FieldsStorable fields

/-- All items of a list can be stored. -/
def AllStorable : List Value → Prop
  | [] => True
  | item :: rest => item.Storable ∧ AllStorable rest

/-- All fields of an object can be stored. -/
def FieldsStorable : List (String × Value) → Prop
  | [] => True
  | (name, value) :: rest => Short name ∧ value.Storable ∧ FieldsStorable rest

end

private theorem names_kinds : FieldNames kinds := by constructor <;> decide

/-- The field names of a stored object are told apart. -/
theorem names_objectFields : FieldNames objectFields := by constructor <;> decide

/-- A content under its kind can be written if the content can. -/
theorem fits_tagged {kind : String} {content : Item} (short : Short kind) (fits : content.Fits) :
    (tagged kind content).Fits := by
  simp only [tagged, ofFields, Fits, List.map_cons, List.map_nil, EntriesFit, fits_ofString]
  exact ⟨by rw [List.length_singleton]; decide, short, fits, trivial⟩

private theorem position?_kind (position : Nat) {kind : String}
    (found : kinds[position]? = some kind) :
    Item.position? kinds (.ofString kind) = some (some position) :=
  names_kinds.position?_ofString position found

private theorem length_toItems (items : List Value) : (toItems items).length = items.length := by
  induction items with
  | nil => rfl
  | cons item items ih => rw [toItems, List.length_cons, ih, List.length_cons]

private theorem length_toEntries (fields : List (String × Value)) :
    (toEntries fields).length = fields.length := by
  induction fields with
  | nil => rfl
  | cons field fields ih => rw [toEntries, List.length_cons, ih, List.length_cons]

private theorem position?_objectField (position : Nat) {name : String}
    (found : objectFields[position]? = some name) :
    Item.position? objectFields (.ofString name) = some (some position) :=
  names_objectFields.position?_ofString position found

/-- The record of an object can be written if its type name and its fields can. -/
theorem fits_object {typeName : String} {fields : List (String × Value)} (short : Short typeName)
    (few : fields.length < 2 ^ 32) (fit : EntriesFit (toEntries fields)) :
    (ofFields [("type_name", .ofString typeName), ("fields", .map (toEntries fields))]).Fits := by
  refine names_objectFields.fits_ofFields [ofString typeName, .map (toEntries fields)] ?_
  simp only [List.forall_mem_cons, fits_ofString, Fits, length_toEntries]
  exact ⟨short, ⟨few, fit⟩, List.forall_mem_nil _⟩

mutual

/-- A value is kept at any depth. -/
theorem keeps : (value : Value) → value.Storable → Keeps toItem ofItem? value
  | nil, _ => by
      refine ⟨?_, ?_⟩
      · rw [toItem, fits_ofString]
        decide
      · have kind := position?_kind 0 rfl
        rw [ofString] at kind
        rw [toItem, ofString, ofItem?, if_pos kind]
  | bool b, _ => by
      refine ⟨?_, ?_⟩
      · rw [toItem]
        exact fits_tagged (by decide) (by simp only [Fits])
      · simp only [toItem, tagged, ofFields, List.map_cons, List.map_nil, ofItem?,
          position?_kind 1 rfl, bool?, Option.map_some]
  | int n, _ => by
      have keeps : Keeps .int (signed? 64) n.toInt :=
        keeps_signed (by decide) n.le_toInt n.toInt_lt
      refine ⟨?_, ?_⟩
      · rw [toItem]
        exact fits_tagged (by decide) keeps.fits
      · simp only [toItem, tagged, ofFields, List.map_cons, List.map_nil, ofItem?,
          position?_kind 2 rfl, keeps.back, Option.map_some, Int64.ofInt_toInt]
  | float x, _ => by
      refine ⟨?_, ?_⟩
      · rw [toItem]
        exact fits_tagged (by decide) (by simp only [Fits])
      · simp only [toItem, tagged, ofFields, List.map_cons, List.map_nil, ofItem?,
          position?_kind 3 rfl, Binary64.ofItem?, Option.map_some]
  | string s, storable => by
      rw [Storable] at storable
      have keeps := keeps_string storable
      refine ⟨?_, ?_⟩
      · rw [toItem]
        exact fits_tagged (by decide) keeps.fits
      · simp only [toItem, tagged, ofFields, List.map_cons, List.map_nil, ofItem?,
          position?_kind 4 rfl, keeps.back, Option.map_some]
  | list items, storable => by
      rw [Storable] at storable
      obtain ⟨few, each⟩ := storable
      obtain ⟨fit, back⟩ := keep_items items each
      refine ⟨?_, ?_⟩
      · rw [toItem]
        refine fits_tagged (by decide) ?_
        rw [Fits, length_toItems]
        exact ⟨few, fit⟩
      · simp only [toItem, tagged, ofFields, List.map_cons, List.map_nil, ofItem?,
          position?_kind 5 rfl, back, Option.map_some]
  | object typeName fields, storable => by
      rw [Storable] at storable
      obtain ⟨short, ascending, few, each⟩ := storable
      obtain ⟨fit, back⟩ := keep_entries fields each
      refine ⟨?_, ?_⟩
      · rw [toItem]
        refine fits_tagged (by decide) (fits_object short few fit)
      · simp only [toItem, tagged, ofFields, List.map_cons, List.map_nil, ofItem?,
          position?_kind 6 rfl, ofObjectEntries?, position?_objectField 0 rfl,
          position?_objectField 1 rfl, string?_ofString, back, Option.isNone_none, guard_true,
          Option.bind_eq_bind, Option.bind_some, Option.pure_def, Object.ofFields_fields ascending]

/-- Values are kept one after the other. -/
theorem keep_items : (items : List Value) → AllStorable items →
    AllFit (toItems items) ∧ ofItems? (toItems items) = some items
  | [], _ => by
      rw [toItems, AllFit, ofItems?]
      exact ⟨trivial, rfl⟩
  | item :: items, storable => by
      rw [AllStorable] at storable
      have first := item.keeps storable.1
      have rest := keep_items items storable.2
      rw [toItems, AllFit, ofItems?, first.back, rest.2]
      exact ⟨⟨first.fits, rest.1⟩, rfl⟩

/-- The fields of an object are kept one after the other. -/
theorem keep_entries : (fields : List (String × Value)) → FieldsStorable fields →
    EntriesFit (toEntries fields) ∧ ofEntries? (toEntries fields) = some fields
  | [], _ => by
      rw [toEntries, EntriesFit, ofEntries?]
      exact ⟨trivial, rfl⟩
  | (name, value) :: fields, storable => by
      rw [FieldsStorable] at storable
      have own := value.keeps storable.2.1
      have rest := keep_entries fields storable.2.2
      rw [toEntries, EntriesFit, ofEntries?, string?_ofString, own.back, rest.2]
      exact ⟨⟨fits_ofString.mpr storable.1, own.fits, rest.1⟩, rfl⟩

end

end Value

end Rete
