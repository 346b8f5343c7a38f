import Mathlib.Data.List.Nodup
import Mathlib.Data.List.Perm.Subperm
import Rete.SortedMap

/-!
# Ordered maps through their look-ups

A map is determined by its look-ups (`SortedMap.ext_find?`), and each operation is described by
what a look-up gives afterwards. Cutting out the run of keys in a range is a partition of the
entries when the range is a segment of the order (`SortedMap.cutRange_eq_filter`).
-/

namespace Rete

universe u v w

variable {κ : Type u} {ν : Type v} [Ord κ]

namespace SortedMap

/-- The empty map has no entries, whichever way it is written. -/
@[simp] theorem find?_emptyCollection (key : κ) : (∅ : SortedMap κ ν).find? key = none := rfl

@[simp] theorem contains_emptyCollection (key : κ) : (∅ : SortedMap κ ν).contains key = false :=
  rfl

/-- A key is contained exactly if it has a value. -/
theorem contains_eq_true {map : SortedMap κ ν} {key : κ} :
    map.contains key = true ↔ ∃ value, map.find? key = some value :=
  Option.isSome_iff_exists

/-- A key is not contained exactly if it has no value. -/
theorem contains_eq_false {map : SortedMap κ ν} {key : κ} :
    map.contains key = false ↔ map.find? key = none :=
  Option.isSome_eq_false_iff.trans Option.isNone_iff_eq_none

end SortedMap

variable [Std.LawfulEqOrd κ]

namespace SortedMap

/-- A removal changes the look-up of its key only. -/
@[simp] theorem find?_erase_eq [DecidableEq κ] (map : SortedMap κ ν) (key other : κ) :
    (map.erase key).find? other = if other = key then none else map.find? other := by
  simp only [find?_erase, Std.LawfulEqOrd.compare_eq_iff_eq]

@[simp] theorem contains_erase [DecidableEq κ] (map : SortedMap κ ν) (key other : κ) :
    (map.erase key).contains other = (!decide (other = key) && map.contains other) := by
  by_cases same : other = key <;> simp [contains, same]

end SortedMap

private theorem compare_ne_lt_self (key : κ) : compare key key ≠ .lt := by
  simp only [Std.compare_self, ne_eq, reduceCtorEq, not_false_eq_true]

namespace Ascending

/-- The keys of ascending entries are distinct. -/
theorem nodup_keys {entries : List (κ × ν)} (ascending : Ascending entries) :
    (entries.map Prod.fst).Nodup := by
  refine List.pairwise_map.mpr (ascending.imp fun {first second} less same => ?_)
  rw [same] at less
  exact compare_ne_lt_self _ less

/-- Entries in order are all different. -/
theorem nodup {entries : List (κ × ν)} (ascending : Ascending entries) : entries.Nodup :=
  ascending.imp fun {first second} less same => by
    rw [same] at less
    exact compare_ne_lt_self _ less

end Ascending

namespace Entries

/-- A look-up finds exactly the entries of the list. -/
theorem find?_eq_some_iff {entries : List (κ × ν)} (ascending : Ascending entries) (key : κ)
    (value : ν) : find? key entries = some value ↔ (key, value) ∈ entries := by
  induction entries with
  | nil => simp only [find?, reduceCtorEq, List.not_mem_nil]
  | cons head rest ih =>
      obtain ⟨k, v⟩ := head
      obtain ⟨below, tail⟩ := List.pairwise_cons.mp ascending
      by_cases same : key = k
      · subst same
        have absent : (key, value) ∉ rest := fun member =>
          compare_ne_lt_self key (below _ member)
        simp only [find?, Std.compare_self, ↓reduceIte, Option.some.injEq, List.mem_cons,
          Prod.mk.injEq, true_and, absent, or_false]
        exact eq_comm
      · simp only [find?, Std.LawfulEqOrd.compare_eq_iff_eq, same, ↓reduceIte, ih tail,
          List.mem_cons, Prod.mk.injEq, false_and, false_or]

end Entries

namespace SortedMap

/-- A look-up finds exactly the entries of the map. -/
theorem mem_entries (map : SortedMap κ ν) (key : κ) (value : ν) :
    (key, value) ∈ map.entries ↔ map.find? key = some value :=
  (Entries.find?_eq_some_iff map.ascending key value).symm

/-- No key occurs twice. -/
theorem nodup_keys (map : SortedMap κ ν) : map.keys.Nodup := map.ascending.nodup_keys

/-- A filter keeps the values that pass. -/
@[simp] theorem find?_filter (map : SortedMap κ ν) (keep : κ → ν → Bool) (key : κ) :
    (map.filter keep).find? key = (map.find? key).filter (keep key) := by
  refine Option.ext fun value => ?_
  rw [← mem_entries, Option.filter_eq_some_iff, ← mem_entries]
  exact List.mem_filter

/-- Changing each value changes what a look-up finds. -/
@[simp] theorem find?_filterMap {μ : Type w} (map : SortedMap κ ν) (change : κ → ν → Option μ)
    (key : κ) : (map.filterMap change).find? key = (map.find? key).bind (change key) := by
  refine Option.ext fun value => ?_
  rw [← mem_entries, Option.bind_eq_some_iff]
  constructor
  · intro member
    obtain ⟨⟨k, v⟩, present, changed⟩ := List.mem_filterMap.mp member
    obtain ⟨found, changes, same⟩ := Option.map_eq_some_iff.mp changed
    cases same
    exact ⟨v, (mem_entries ..).mp present, changes⟩
  · rintro ⟨old, present, changes⟩
    refine List.mem_filterMap.mpr ⟨(key, old), (mem_entries ..).mpr present, ?_⟩
    simp only [changes, Option.map_some]

/-- The keys are those under which something is stored. -/
theorem mem_keys {map : SortedMap κ ν} {key : κ} :
    key ∈ map.keys ↔ map.contains key = true := by
  rw [contains_eq_true, keys, List.mem_map]
  constructor
  · rintro ⟨⟨k, v⟩, member, rfl⟩
    exact ⟨v, (mem_entries ..).mp member⟩
  · rintro ⟨value, found⟩
    exact ⟨(key, value), (mem_entries ..).mpr found, rfl⟩

/-- The values are those that some look-up finds. -/
theorem mem_values {map : SortedMap κ ν} {value : ν} :
    value ∈ map.values ↔ ∃ key, map.find? key = some value := by
  rw [values, List.mem_map]
  constructor
  · rintro ⟨⟨key, v⟩, member, rfl⟩
    exact ⟨key, (mem_entries ..).mp member⟩
  · rintro ⟨key, found⟩
    exact ⟨(key, value), (mem_entries ..).mpr found, rfl⟩

private theorem isEmpty_iff {map : SortedMap κ ν} :
    map.isEmpty = true ↔ ∀ key, map.find? key = none := by
  rw [isEmpty, List.isEmpty_iff]
  constructor
  · intro none key
    simp only [find?, none, Entries.find?]
  · intro absent
    refine List.eq_nil_iff_forall_not_mem.mpr ?_
    rintro ⟨key, value⟩ member
    rw [mem_entries, absent] at member
    exact absurd member (by simp only [reduceCtorEq, not_false_eq_true])

/-- A map is not empty exactly if it contains a key. -/
theorem isEmpty_eq_false_iff {map : SortedMap κ ν} :
    map.isEmpty = false ↔ ∃ key, map.contains key = true := by
  rw [← Bool.not_eq_true, isEmpty_iff, not_forall]
  exact exists_congr fun key => by rw [← contains_eq_false, Bool.not_eq_false]

/-- A key that is dropped takes its entry with it. -/
theorem perm_entries_erase [DecidableEq κ] {map : SortedMap κ ν} {key : κ} {value : ν}
    (found : map.find? key = some value) :
    map.entries.Perm ((key, value) :: (map.erase key).entries) := by
  have gone : (key, value) ∉ (map.erase key).entries := fun member => by
    rw [mem_entries, find?_erase_eq, if_pos rfl] at member
    cases member
  refine (List.perm_ext_iff_of_nodup map.ascending.nodup
    (List.nodup_cons.mpr ⟨gone, (map.erase key).ascending.nodup⟩)).mpr ?_
  rintro ⟨k, v⟩
  rw [mem_entries, List.mem_cons, mem_entries, find?_erase_eq, Prod.mk.injEq]
  by_cases same : k = key
  · subst same
    simp only [↓reduceIte, found, Option.some.injEq, true_and, reduceCtorEq, or_false, eq_comm]
  · simp only [same, ↓reduceIte, false_and, false_or]

/-- Distinct keys are no more than the map has entries. -/
theorem length_le_size {map : SortedMap κ ν} {chosen : List κ} (distinct : chosen.Nodup)
    (stored : ∀ key ∈ chosen, map.contains key = true) : chosen.length ≤ map.size := by
  have within : chosen ⊆ map.keys := fun key member => mem_keys.mpr (stored key member)
  calc chosen.length
      ≤ map.keys.length := (distinct.subperm within).length_le
    _ = map.size := List.length_map _

end SortedMap

variable [Std.TransOrd κ]

namespace SortedMap

/-- Maps with the same look-ups are equal. -/
theorem ext_find? {first second : SortedMap κ ν}
    (same : ∀ key, first.find? key = second.find? key) : first = second := by
  apply ext
  have members : ∀ entry, entry ∈ first.entries ↔ entry ∈ second.entries := by
    rintro ⟨key, value⟩
    rw [mem_entries, mem_entries, same]
  have permutation : first.entries.Perm second.entries :=
    (List.perm_ext_iff_of_nodup first.ascending.nodup second.ascending.nodup).mpr members
  have antisymm : ∀ a b : κ × ν, a ∈ first.entries → b ∈ second.entries →
      compare a.1 b.1 = .lt → compare b.1 a.1 = .lt → a = b := by
    intro a b _ _ less greater
    exact (compare_ne_lt_self _ (Std.TransCmp.lt_trans less greater)).elim
  exact permutation.eq_of_pairwise antisymm first.ascending second.ascending

/-- An insertion changes the look-up of its key only. -/
@[simp] theorem find?_insert_eq [DecidableEq κ] (map : SortedMap κ ν) (key other : κ)
    (value : ν) :
    (map.insert key value).find? other = if other = key then some value else map.find? other := by
  simp only [find?_insert, Std.LawfulEqOrd.compare_eq_iff_eq]

@[simp] theorem contains_insert [DecidableEq κ] (map : SortedMap κ ν) (key other : κ)
    (value : ν) : (map.insert key value).contains other = (decide (other = key) ||
      map.contains other) := by
  by_cases same : other = key <;> simp [contains, same]

/-- What was stored under a key does not matter once it is dropped. -/
theorem erase_insert [DecidableEq κ] (map : SortedMap κ ν) (key : κ) (value : ν) :
    (map.insert key value).erase key = map.erase key := by
  apply ext_find?
  intro other
  rw [find?_erase_eq, find?_erase_eq, find?_insert_eq]
  by_cases same : other = key
  · rw [if_pos same, if_pos same]
  · rw [if_neg same, if_neg same, if_neg same]

/-- Erasing a key that is absent changes nothing. -/
theorem erase_of_absent [DecidableEq κ] {map : SortedMap κ ν} {key : κ}
    (absent : map.find? key = none) : map.erase key = map := by
  apply ext_find?
  intro other
  rw [find?_erase_eq]
  by_cases same : other = key
  · rw [if_pos same, same, absent]
  · rw [if_neg same]

/-- Changing each value goes along with what is done to one of them. -/
theorem filterMap_insert_of_some [DecidableEq κ] {μ : Type w} {change : κ → ν → Option μ} {key : κ}
    {value : ν} {changed : μ} (isChanged : change key value = some changed) (map : SortedMap κ ν) :
    (map.insert key value).filterMap change = (map.filterMap change).insert key changed := by
  refine ext_find? fun other => ?_
  rw [find?_filterMap, find?_insert_eq, find?_insert_eq, find?_filterMap]
  by_cases same : other = key
  · rw [if_pos same, if_pos same, same]
    exact isChanged
  · rw [if_neg same, if_neg same]

/-- Inserting an entry that is dropped afterwards erases its key. -/
theorem filterMap_insert_of_none [DecidableEq κ] {μ : Type w} {change : κ → ν → Option μ} {key : κ}
    {value : ν} (isDropped : change key value = none) (map : SortedMap κ ν) :
    (map.insert key value).filterMap change = (map.filterMap change).erase key := by
  refine ext_find? fun other => ?_
  rw [find?_filterMap, find?_insert_eq, find?_erase_eq, find?_filterMap]
  by_cases same : other = key
  · rw [if_pos same, if_pos same, same]
    exact isDropped
  · rw [if_neg same, if_neg same]

/-- Erasing comes before or after a change of the values. -/
theorem filterMap_erase [DecidableEq κ] {μ : Type w} (change : κ → ν → Option μ)
    (map : SortedMap κ ν) (key : κ) :
    (map.erase key).filterMap change = (map.filterMap change).erase key := by
  refine ext_find? fun other => ?_
  rw [find?_filterMap, find?_erase_eq, find?_erase_eq, find?_filterMap]
  by_cases same : other = key
  · rw [if_pos same, if_pos same]
    rfl
  · rw [if_neg same, if_neg same]

/-- Looking up in a map of entries with distinct keys. -/
theorem find?_ofList [DecidableEq κ] {entries : List (κ × ν)}
    (distinct : (entries.map Prod.fst).Nodup) (key : κ) (value : ν) :
    (ofList entries).find? key = some value ↔ (key, value) ∈ entries := by
  have general : ∀ (entries : List (κ × ν)) (map : SortedMap κ ν),
      (entries.map Prod.fst).Nodup → (∀ entry ∈ entries, map.find? entry.1 = none) →
      ((entries.foldl (fun map entry => map.insert entry.1 entry.2) map).find? key = some value ↔
        map.find? key = some value ∨ (key, value) ∈ entries) := by
    intro entries
    induction entries with
    | nil => exact fun map _ _ => (or_iff_left List.not_mem_nil).symm
    | cons entry rest ih =>
        intro map distinct absent
        rw [List.map_cons, List.nodup_cons] at distinct
        have later : ∀ other ∈ rest, other.1 ≠ entry.1 := fun other member same =>
          distinct.1 (List.mem_map.mpr ⟨other, member, same⟩)
        rw [List.foldl_cons, ih _ distinct.2 fun other member => by
          rw [find?_insert_eq, if_neg (later other member)]
          exact absent other (List.mem_cons_of_mem _ member)]
        rw [find?_insert_eq, List.mem_cons, ← or_assoc]
        refine or_congr_left ?_
        by_cases here : key = entry.1
        · subst here
          rw [if_pos rfl, absent entry List.mem_cons_self]
          constructor
          · intro same
            cases same
            exact .inr rfl
          · rintro (none | same)
            · cases none
            · rw [← same]
        · rw [if_neg here]
          refine (or_iff_left fun same => here ?_).symm
          rw [← same]
  refine (general entries empty distinct fun _ _ => rfl).trans (or_iff_right ?_)
  intro none
  cases none

/-- A map is made of its entries. -/
@[simp] theorem ofList_entries [DecidableEq κ] (map : SortedMap κ ν) :
    ofList map.entries = map := by
  refine ext_find? fun key => Option.ext fun value => ?_
  rw [find?_ofList map.nodup_keys, mem_entries]

/-- An entry under a new key goes between the others. -/
theorem perm_entries_insert [DecidableEq κ] {map : SortedMap κ ν} {key : κ}
    (absent : map.find? key = none) (value : ν) :
    (map.insert key value).entries.Perm ((key, value) :: map.entries) := by
  have new : (key, value) ∉ map.entries := fun member => by
    rw [mem_entries, absent] at member
    cases member
  refine (List.perm_ext_iff_of_nodup (map.insert key value).ascending.nodup
    (List.nodup_cons.mpr ⟨new, map.ascending.nodup⟩)).mpr ?_
  rintro ⟨k, v⟩
  rw [mem_entries, find?_insert_eq, List.mem_cons, mem_entries, Prod.mk.injEq]
  by_cases same : k = key
  · subst same
    simp only [↓reduceIte, Option.some.injEq, true_and, absent, reduceCtorEq, or_false, eq_comm]
  · simp only [same, ↓reduceIte, false_and, false_or]

end SortedMap

/-! ## Segments -/

/-- Where what satisfies a test comes first, `takeWhile` and `dropWhile` split a list as
`filter` does. -/
theorem takeWhile_eq_filter_of_pairwise {α : Type u} {test : α → Bool} {entries : List α}
    (first : entries.Pairwise fun a b => test b = true → test a = true) :
    entries.takeWhile test = entries.filter test ∧
      entries.dropWhile test = entries.filter fun a => !test a := by
  induction entries with
  | nil => exact ⟨rfl, rfl⟩
  | cons head rest ih =>
      obtain ⟨before, tail⟩ := List.pairwise_cons.mp first
      cases passes : test head with
      | true =>
          obtain ⟨taken, dropped⟩ := ih tail
          simp only [List.takeWhile_cons, List.dropWhile_cons, List.filter_cons, passes, ↓reduceIte,
            taken, dropped, Bool.not_true, Bool.false_eq_true, and_self]
      | false =>
          have none : ∀ entry ∈ rest, test entry = false := fun entry member => by
            by_contra other
            simp only [before entry member (by simpa using other)] at passes
            exact absurd passes (by decide)
          have all : rest.filter (fun a => !test a) = rest :=
            List.filter_eq_self.mpr fun entry member => by
              simp only [none entry member, Bool.not_false]
          have nothing : rest.filter test = [] :=
            List.filter_eq_nil_iff.mpr fun entry member => by
              simp only [none entry member, Bool.false_eq_true, not_false_eq_true]
          simp only [List.takeWhile_cons, List.dropWhile_cons, List.filter_cons, passes,
            Bool.false_eq_true, ↓reduceIte, nothing, Bool.not_false, all, and_self]

namespace SortedMap

/-- A range of keys that lies from its start on and has no gaps. -/
structure Segment (start : κ) (inRange : κ → Bool) : Prop where
  from_start : ∀ {key}, inRange key = true → compare key start ≠ .lt
  no_gap : ∀ {key later}, compare key later = .lt → compare key start ≠ .lt →
    inRange later = true → inRange key = true

/-- Cutting out a segment of keys parts the entries by whether their key lies in it. -/
theorem cutRange_eq_filter {start : κ} {inRange : κ → Bool} (segment : Segment start inRange)
    (map : SortedMap κ ν) :
    map.cutRange start inRange = (map.entries.filter (fun entry => inRange entry.1),
      map.filter fun key _ => !inRange key) := by
  obtain ⟨entries, ascending⟩ := map
  have belowFirst : entries.Pairwise fun a b =>
      (compare b.1 start == .lt) = true → (compare a.1 start == .lt) = true :=
    ascending.imp fun {a b} less below => by
      rw [beq_iff_eq] at below ⊢
      exact Std.TransCmp.lt_trans less below
  obtain ⟨below, behind⟩ := takeWhile_eq_filter_of_pairwise belowFirst
  have inFirst : (entries.filter fun entry => !(compare entry.1 start == .lt)).Pairwise
      fun a b => inRange b.1 = true → inRange a.1 = true := by
    refine List.Pairwise.imp_of_mem ?_ (ascending.filter _)
    intro a b memberA _ less inside
    have after := (List.mem_filter.mp memberA).2
    exact segment.no_gap less (by simpa using after) inside
  obtain ⟨inside, outside⟩ := takeWhile_eq_filter_of_pairwise inFirst
  have cut : (entries.filter fun entry => !(compare entry.1 start == .lt)).filter
      (fun entry => inRange entry.1) = entries.filter fun entry => inRange entry.1 := by
    rw [List.filter_filter]
    refine List.filter_congr fun entry _ => ?_
    cases range : inRange entry.1 with
    | false => rfl
    | true => simp [segment.from_start range]
  refine Prod.ext ?_ (ext_find? fun key => ?_)
  · simp only [cutRange, behind, inside, cut]
  · refine Option.ext fun value => ?_
    rw [find?_filter, Option.filter_eq_some_iff, ← mem_entries, ← mem_entries]
    simp only [cutRange, below, behind, outside, List.mem_append, List.mem_filter, beq_iff_eq,
      Bool.not_eq_eq_eq_not, Bool.not_true]
    constructor
    · rintro (⟨member, less⟩ | ⟨⟨member, _⟩, out⟩)
      · exact ⟨member, Bool.eq_false_iff.mpr fun range => segment.from_start range less⟩
      · exact ⟨member, out⟩
    · rintro ⟨member, out⟩
      by_cases less : compare key start = .lt
      · exact .inl ⟨member, less⟩
      · exact .inr ⟨⟨member, beq_eq_false_iff_ne.mpr less⟩, out⟩

end SortedMap

namespace SortedSet

@[simp] theorem contains_add [DecidableEq κ] (set : SortedSet κ) (member other : κ) :
    (set.add member).contains other = (decide (other = member) || set.contains other) :=
  SortedMap.contains_insert ..

/-- The set of listed members has exactly these. -/
@[simp] theorem contains_ofList [DecidableEq κ] (members : List κ) (other : κ) :
    (SortedSet.ofList members).contains other = decide (other ∈ members) := by
  have run : ∀ (set : SortedSet κ), (members.foldl SortedSet.add set).contains other =
      (decide (other ∈ members) || set.contains other) := by
    induction members with
    | nil => intro set; simp
    | cons head rest ih =>
        intro set
        rw [List.foldl_cons, ih, contains_add]
        by_cases same : other = head <;> simp [same]
  rw [ofList, run]
  exact Bool.or_false _

/-- Sets with the same members are equal. -/
theorem ext_contains {first second : SortedSet κ}
    (same : ∀ member, first.contains member = second.contains member) : first = second :=
  SortedMap.ext_find? fun key => by
    have isSome := same key
    simp only [SortedMap.contains] at isSome
    cases one : first.find? key <;> cases other : second.find? key <;> simp_all

/-- A set is made of its members. -/
@[simp] theorem ofList_keys [DecidableEq κ] (set : SortedSet κ) :
    SortedSet.ofList (SortedMap.keys set) = set := by
  apply ext_contains
  intro member
  rw [contains_ofList, Bool.eq_iff_iff, decide_eq_true_eq, SortedMap.mem_keys]

end SortedSet

/-! ## Entries in any order -/

/-- A look-up among entries with distinct keys finds exactly the listed ones. -/
theorem lookup_eq_some_iff_mem {α : Type u} {β : Type v} [BEq α] [LawfulBEq α]
    {entries : List (α × β)} (distinct : (entries.map Prod.fst).Nodup) {key : α} {value : β} :
    entries.lookup key = some value ↔ (key, value) ∈ entries := by
  have listed {other : β} (found : entries.lookup key = some other) : (key, other) ∈ entries := by
    obtain ⟨before, rest, split, -⟩ := List.lookup_eq_some_iff.mp found
    rw [split]
    exact List.mem_append_right _ List.mem_cons_self
  refine ⟨listed, fun member => ?_⟩
  cases found : entries.lookup key with
  | none => exact absurd rfl (bne_iff_ne.mp (List.lookup_eq_none_iff.mp found (key, value) member))
  | some other =>
      exact congrArg some
        (Prod.mk.inj (List.inj_on_of_nodup_map distinct (listed found) member rfl)).2

end Rete
