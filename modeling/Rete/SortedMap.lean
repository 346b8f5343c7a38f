/-!
# Ordered maps

Finite maps kept as a list of entries in strictly ascending key order. The list is the
view: two maps with the same entries are the same map, iteration goes in key order, and
every operation is described by its effect on look-ups (`SortedMap.find?_insert`,
`SortedMap.find?_erase`). The operations on bare entry lists (`Entries`) are shared with
the records of `Rete.Value`, whose fields are such a list.
-/

namespace Rete

universe u v w

variable {κ : Type u} {ν : Type v}

/-- Entries in strictly ascending key order; in particular no key occurs twice. -/
def Ascending [Ord κ] (entries : List (κ × ν)) : Prop :=
  entries.Pairwise fun first second => compare first.1 second.1 = .lt

namespace Entries

variable [Ord κ]

/-- The value stored under a key. -/
def find? (key : κ) : List (κ × ν) → Option ν
  | [] => none
  | (k, v) :: rest => if compare key k = .eq then some v else find? key rest

/-- Stores a value under a key, at the key's place, over the value that was there. -/
def insert (key : κ) (value : ν) : List (κ × ν) → List (κ × ν)
  | [] => [(key, value)]
  | (k, v) :: rest =>
    match compare key k with
    | .lt => (key, value) :: (k, v) :: rest
    | .eq => (key, value) :: rest
    | .gt => (k, v) :: insert key value rest

/-- Drops the entry of a key, if there is one. -/
def erase (key : κ) (entries : List (κ × ν)) : List (κ × ν) :=
  entries.filter fun entry => compare key entry.1 != .eq

/-- An entry after an insertion is the new one or was there before. -/
theorem mem_insert {key : κ} {value : ν} {entry : κ × ν} {entries : List (κ × ν)}
    (member : entry ∈ insert key value entries) : entry = (key, value) ∨ entry ∈ entries := by
  induction entries with
  | nil => simpa [insert] using member
  | cons head rest ih =>
    obtain ⟨k, v⟩ := head
    simp only [insert] at member
    split at member
    · simpa using member
    · rcases List.mem_cons.mp member with new | old
      · exact .inl new
      · exact .inr (List.mem_cons_of_mem _ old)
    · rcases List.mem_cons.mp member with first | later
      · exact .inr (first ▸ List.mem_cons_self)
      · exact (ih later).imp_right (List.mem_cons_of_mem _)

end Entries

namespace Ascending

variable [Ord κ]

private theorem nil : Ascending ([] : List (κ × ν)) := List.Pairwise.nil

/-- Leaving entries out keeps the order. -/
theorem filter {entries : List (κ × ν)} (ascending : Ascending entries) (keep : κ × ν → Bool) :
    Ascending (entries.filter keep) :=
  List.Pairwise.filter keep ascending

private theorem filterMap {μ : Type w} {entries : List (κ × ν)} (ascending : Ascending entries)
    (change : κ → ν → Option μ) :
    Ascending (entries.filterMap fun entry => (change entry.1 entry.2).map (entry.1, ·)) := by
  refine List.Pairwise.filterMap _ (fun first second less => ?_) ascending
  intro changed firstIs other secondIs
  obtain ⟨_, _, rfl⟩ := Option.map_eq_some_iff.mp firstIs
  obtain ⟨_, _, rfl⟩ := Option.map_eq_some_iff.mp secondIs
  exact less

private theorem erase {entries : List (κ × ν)} (ascending : Ascending entries) (key : κ) :
    Ascending (Entries.erase key entries) :=
  ascending.filter _

/-- Inserting keeps the order. -/
theorem insert [Std.TransOrd κ] [Std.LawfulEqOrd κ] {entries : List (κ × ν)}
    (ascending : Ascending entries) (key : κ) (value : ν) :
    Ascending (Entries.insert key value entries) := by
  induction entries with
  | nil => exact List.pairwise_singleton _ _
  | cons head rest ih =>
    obtain ⟨k, v⟩ := head
    obtain ⟨below, tail⟩ := List.pairwise_cons.mp ascending
    simp only [Entries.insert]
    split
    · rename_i less
      refine List.pairwise_cons.mpr ⟨fun entry member => ?_, ascending⟩
      rcases List.mem_cons.mp member with same | later
      · exact same ▸ less
      · exact Std.TransCmp.lt_trans less (below entry later)
    · rename_i equal
      have same : key = k := Std.LawfulEqCmp.eq_of_compare equal
      exact List.pairwise_cons.mpr ⟨fun entry member => same ▸ below entry member, tail⟩
    · rename_i greater
      refine List.pairwise_cons.mpr ⟨fun entry member => ?_, ih tail⟩
      rcases Entries.mem_insert member with new | old
      · exact new ▸ Std.OrientedCmp.lt_of_gt greater
      · exact below entry old

end Ascending

/-- A finite map whose entries are listed in strictly ascending key order. -/
structure SortedMap (κ : Type u) (ν : Type v) [Ord κ] where
  /-- The entries, in key order. -/
  entries : List (κ × ν)
  ascending : Ascending entries

/-- A finite set, listed in ascending order. -/
abbrev SortedSet (κ : Type u) [Ord κ] : Type u := SortedMap κ Unit

namespace SortedMap

variable [Ord κ]

/-- Two maps are equal exactly if they have the same entries. -/
instance [DecidableEq κ] [DecidableEq ν] : DecidableEq (SortedMap κ ν) := fun first second =>
  decidable_of_iff (first.entries = second.entries)
    ⟨fun same => by cases first; cases second; cases same; rfl, fun same => same ▸ rfl⟩

/-- The map without entries. -/
def empty : SortedMap κ ν := ⟨[], .nil⟩

/-- The map without entries. -/
instance : EmptyCollection (SortedMap κ ν) := ⟨empty⟩

/-- The map without entries stands for the others. -/
instance : Inhabited (SortedMap κ ν) := ⟨empty⟩

/-- The number of entries. -/
def size (map : SortedMap κ ν) : Nat := map.entries.length

/-- The map has no entries. -/
def isEmpty (map : SortedMap κ ν) : Bool := map.entries.isEmpty

/-- The keys, in ascending order. -/
def keys (map : SortedMap κ ν) : List κ := map.entries.map Prod.fst

/-- The values, in the order of their keys. -/
def values (map : SortedMap κ ν) : List ν := map.entries.map Prod.snd

/-- The value stored under a key. -/
def find? (map : SortedMap κ ν) (key : κ) : Option ν := Entries.find? key map.entries

/-- The key has a value. -/
def contains (map : SortedMap κ ν) (key : κ) : Bool := (map.find? key).isSome

/-- Keeps the entries that pass a test. -/
def filter (map : SortedMap κ ν) (keep : κ → ν → Bool) : SortedMap κ ν :=
  ⟨map.entries.filter fun entry => keep entry.1 entry.2, map.ascending.filter _⟩

/-- Cuts out the run of entries that starts at the first key not below `start` and lasts as long
as keys are in a range; returns the run and the map without it. -/
def cutRange (map : SortedMap κ ν) (start : κ) (inRange : κ → Bool) :
    List (κ × ν) × SortedMap κ ν :=
  let below (entry : κ × ν) : Bool := compare entry.1 start == .lt
  let behind := map.entries.dropWhile below
  let kept := map.entries.takeWhile below ++ behind.dropWhile fun entry => inRange entry.1
  (behind.takeWhile fun entry => inRange entry.1,
    ⟨kept, map.ascending.sublist (by
      have whole : map.entries.takeWhile below ++ behind = map.entries :=
        List.takeWhile_append_dropWhile
      exact whole ▸ (List.Sublist.refl _).append (List.dropWhile_sublist _))⟩)

/-- Drops the entry of a key, if there is one. -/
def erase (map : SortedMap κ ν) (key : κ) : SortedMap κ ν :=
  ⟨Entries.erase key map.entries, map.ascending.erase key⟩

/-- Changes or drops each value. -/
def filterMap {μ : Type w} (map : SortedMap κ ν) (change : κ → ν → Option μ) : SortedMap κ μ :=
  ⟨map.entries.filterMap fun entry => (change entry.1 entry.2).map (entry.1, ·),
    map.ascending.filterMap change⟩

variable [Std.TransOrd κ] [Std.LawfulEqOrd κ]

/-- Stores a value under a key, over the value that was there. -/
def insert (map : SortedMap κ ν) (key : κ) (value : ν) : SortedMap κ ν :=
  ⟨Entries.insert key value map.entries, map.ascending.insert key value⟩

/-- The map with the given entries; of two entries with one key the later counts. -/
def ofList (entries : List (κ × ν)) : SortedMap κ ν :=
  entries.foldl (fun map entry => map.insert entry.1 entry.2) empty

end SortedMap

namespace SortedSet

variable [Ord κ]

/-- The members, in ascending order. -/
def toList (set : SortedSet κ) : List κ := set.keys

variable [Std.TransOrd κ] [Std.LawfulEqOrd κ]

/-- Adds a member. -/
def add (set : SortedSet κ) (member : κ) : SortedSet κ := set.insert member ()

/-- The set of the listed members. -/
def ofList (members : List κ) : SortedSet κ := members.foldl SortedSet.add SortedMap.empty

end SortedSet

/-! ## Look-ups -/

/-- An insertion changes the look-up of its key only. -/
theorem Entries.find?_insert [Ord κ] [Std.LawfulEqOrd κ] (key other : κ) (value : ν)
    (entries : List (κ × ν)) : Entries.find? other (Entries.insert key value entries) =
      if compare other key = .eq then some value else Entries.find? other entries := by
  induction entries with
  | nil => simp [Entries.insert, Entries.find?]
  | cons head rest ih =>
    obtain ⟨k, v⟩ := head
    simp only [Entries.insert]
    split
    · simp [Entries.find?]
    · rename_i equal
      have same : key = k := Std.LawfulEqCmp.eq_of_compare equal
      subst same
      by_cases hit : compare other key = .eq <;> simp [Entries.find?, hit]
    · rename_i greater
      by_cases hit : compare other key = .eq
      · have same : other = key := Std.LawfulEqCmp.eq_of_compare hit
        subst same
        simp [Entries.find?, greater, ih]
      · simp [Entries.find?, hit, ih]

namespace SortedMap

variable [Ord κ]

/-- Two maps with the same entries are equal. -/
@[ext] theorem ext {first second : SortedMap κ ν} (same : first.entries = second.entries) :
    first = second := by
  cases first; cases second; cases same; rfl

/-- The empty map has a value for no key. -/
@[simp] theorem find?_empty (key : κ) : (empty : SortedMap κ ν).find? key = none := rfl

variable [Std.LawfulEqOrd κ]

/-- An insertion changes the look-up of its key only. -/
theorem find?_insert [Std.TransOrd κ] (map : SortedMap κ ν) (key other : κ) (value : ν) :
    (map.insert key value).find? other =
      if compare other key = .eq then some value else map.find? other :=
  Entries.find?_insert key other value map.entries

/-- A removal changes the look-up of its key only. -/
theorem find?_erase (map : SortedMap κ ν) (key other : κ) :
    (map.erase key).find? other = if compare other key = .eq then none else map.find? other := by
  obtain ⟨entries, ascending⟩ := map
  simp only [find?, erase, Entries.erase]
  clear ascending
  induction entries with
  | nil => simp [Entries.find?]
  | cons head rest ih =>
    obtain ⟨k, v⟩ := head
    by_cases drop : compare key k = .eq
    · have same : key = k := Std.LawfulEqCmp.eq_of_compare drop
      subst same
      by_cases hit : compare other key = .eq <;> simp_all [Entries.find?]
    · by_cases hit : compare other key = .eq
      · have same : other = key := Std.LawfulEqCmp.eq_of_compare hit
        subst same
        simp_all [Entries.find?]
      · simp_all [Entries.find?]

end SortedMap

end Rete
