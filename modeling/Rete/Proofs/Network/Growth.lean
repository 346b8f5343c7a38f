import Rete.Proofs.Network.Links

/-!
# Making nodes

A node is made under an id that was free and becomes an output of its inputs (`Created`); a network
that is well formed stays so if the inputs of the node are live and its key is new.
-/

namespace Rete.Network

variable {network after : Network}

/-- What making a node does to a network. -/
structure Created (network : Network) (kind : NodeKind) (id : NodeId) (after : Network) : Prop where
  fresh : network.kind? id = none
  node? : ∀ other, after.node? other =
    if other = id then some { kind }
    else (network.node? other).map fun node => node.linked other id kind
  id_lt : id < after.slots
  slots_le : network.slots ≤ after.slots
  mem_free : ∀ other, other ∈ after.free ↔
    other < after.slots ∧ network.kind? other = none ∧ other ≠ id
  free_nodup : after.free.Nodup
  keys : after.keys =
    match kind.key? with
    | some key => (key, id) :: network.keys
    | none => network.keys
  rootChildren : after.rootChildren =
    if kind.left? = some none then network.rootChildren ++ [id] else network.rootChildren
  objectTypes : after.objectTypes = entriesWith network.objectTypes id kind
  rules : after.rules = network.rules
  names : after.names = network.names
  nextRule : after.nextRule = network.nextRule

/-- The id that is taken was not in use; of the ids that were not, the others remain. -/
theorem WellFormed.takeId (wellFormed : network.WellFormed) :
    ∃ id slots free, network.takeId = (id, { network with slots, free }) ∧
      network.kind? id = none ∧ id < slots ∧ network.slots ≤ slots ∧ free.Nodup ∧
      ∀ other, other ∈ free ↔ other < slots ∧ network.kind? other = none ∧ other ≠ id := by
  unfold Network.takeId
  cases available : network.free with
  | nil =>
      refine ⟨_, _, _, rfl, ?_, Nat.lt_succ_self _, Nat.le_succ _, List.nodup_nil, fun other => ?_⟩
      · cases live : network.kind? network.slots with
        | none => rfl
        | some kind => exact absurd (wellFormed.id_lt live) (Nat.lt_irrefl _)
      · have unused := @WellFormed.mem_free _ wellFormed other
        simp only [available, List.not_mem_nil, false_iff, not_and] at unused ⊢
        intro below dead same
        exact unused (Nat.lt_of_le_of_ne (Nat.lt_succ_iff.mp below) same) dead
  | cons id rest =>
      have distinct := wellFormed.free_nodup
      rw [available, List.nodup_cons] at distinct
      have unused := fun other => @WellFormed.mem_free _ wellFormed other
      simp only [available, List.mem_cons] at unused
      obtain ⟨below, dead⟩ := (unused id).mp (.inl rfl)
      refine ⟨_, _, _, rfl, dead, below, Nat.le_refl _, distinct.2, fun other => ?_⟩
      constructor
      · intro member
        obtain ⟨below, dead⟩ := (unused other).mp (.inr member)
        exact ⟨below, dead, fun same => distinct.1 (same ▸ member)⟩
      · rintro ⟨below, dead, different⟩
        exact ((unused other).mpr ⟨below, dead⟩).resolve_left different

/-- Making a node. -/
theorem WellFormed.create (wellFormed : network.WellFormed) {kind : NodeKind}
    (fits : network.Fits kind) :
    Created network kind (network.create kind).1 (network.create kind).2 := by
  obtain ⟨id, slots, free, taken, dead, below, grown, distinct, unused⟩ := wellFormed.takeId
  have noInput : id ∉ kind.inputs := fun input => by
    obtain ⟨found, live⟩ := fits.input_live input
    exact absurd (dead.symm.trans live) (by simp only [reduceCtorEq, not_false_eq_true])
  have notAbove : kind.above? ≠ some id := fun above =>
    noInput (NodeKind.mem_inputs.mpr (.inl above))
  have notRight : kind.right? ≠ some id := fun right =>
    noInput (NodeKind.mem_inputs.mpr (.inr right))
  unfold Network.create
  simp only [taken]
  rw [link_eq]
  refine ⟨dead, fun other => ?_, below, grown, unused, distinct, rfl, rfl, rfl, rfl, rfl, rfl⟩
  refine (node?_link _ id other kind).trans ?_
  simp only [Network.node?, SortedMap.find?_insert_eq]
  by_cases same : other = id
  · subst same
    simp only [↓reduceIte, Option.map_some, Node.linked, notAbove, notRight]
  · simp only [same, ↓reduceIte]

namespace Created

variable {kind : NodeKind} {id : NodeId}

/-- The new node has the wanted kind, and the others keep theirs. -/
theorem kind? (created : Created network kind id after) (other : NodeId) :
    after.kind? other = if other = id then some kind else network.kind? other := by
  unfold Network.kind?
  rw [created.node?]
  by_cases same : other = id
  · simp only [same, ↓reduceIte, Option.map_some]
  · simp only [same, ↓reduceIte, Option.map_map]
    rfl

/-- The node that was created is there. -/
theorem kind?_self (created : Created network kind id after) : after.kind? id = some kind := by
  rw [created.kind?, if_pos rfl]

/-- The nodes that were there before stay. -/
theorem kind?_of_live (created : Created network kind id after) {other : NodeId}
    {found : NodeKind} (live : network.kind? other = some found) :
    after.kind? other = some found := by
  rw [created.kind?, if_neg, live]
  rintro rfl
  exact absurd (created.fresh.symm.trans live) (by simp only [reduceCtorEq, not_false_eq_true])

/-- There is nothing but the created node and those from before. -/
theorem live_cases (created : Created network kind id after) {other : NodeId}
    {found : NodeKind} (live : after.kind? other = some found) :
    (other = id ∧ found = kind) ∨ (other ≠ id ∧ network.kind? other = some found) := by
  rw [created.kind?] at live
  by_cases same : other = id
  · rw [if_pos same] at live
    exact .inl ⟨same, (Option.some.inj live).symm⟩
  · rw [if_neg same] at live
    exact .inr ⟨same, live⟩

private theorem ne_of_live (created : Created network kind id after) {other : NodeId}
    (live : ∃ found, network.kind? other = some found) : other ≠ id := by
  rintro rfl
  obtain ⟨found, live⟩ := live
  exact absurd (created.fresh.symm.trans live) (by simp only [reduceCtorEq, not_false_eq_true])

/-- The new id goes behind live ids without a repetition. -/
theorem nodup_append (created : Created network kind id after) {ids : List NodeId}
    (distinct : ids.Nodup) (live : ∀ other ∈ ids, ∃ found, network.kind? other = some found) :
    (ids ++ [id]).Nodup := by
  refine List.nodup_append.mpr ⟨distinct, List.nodup_cons.mpr ⟨List.not_mem_nil, .nil⟩, ?_⟩
  intro other member _ new
  rw [List.mem_singleton.mp new]
  exact created.ne_of_live (live other member)

private theorem exists_kind?_iff (created : Created network kind id after) {other : NodeId}
    {holds : NodeKind → Prop} : (∃ found, after.kind? other = some found ∧ holds found) ↔
      (other = id ∧ holds kind) ∨
        (other ≠ id ∧ ∃ found, network.kind? other = some found ∧ holds found) := by
  constructor
  · rintro ⟨found, live, holding⟩
    rcases created.live_cases live with ⟨same, rfl⟩ | ⟨different, old⟩
    · exact .inl ⟨same, holding⟩
    · exact .inr ⟨different, found, old, holding⟩
  · rintro (⟨rfl, holding⟩ | ⟨-, found, old, holding⟩)
    · exact ⟨kind, created.kind?_self, holding⟩
    · exact ⟨found, created.kind?_of_live old, holding⟩

/-- Nodes from before have changed by the link to the created one at most. -/
theorem node_cases (created : Created network kind id after) {other : NodeId} {node : Node}
    (live : after.node? other = some node) : (other = id ∧ node = { kind }) ∨
      (other ≠ id ∧ ∃ old, network.node? other = some old ∧ node = old.linked other id kind) := by
  rw [created.node?] at live
  by_cases same : other = id
  · rw [if_pos same] at live
    exact .inl ⟨same, (Option.some.inj live).symm⟩
  · rw [if_neg same] at live
    obtain ⟨old, found, rfl⟩ := Option.map_eq_some_iff.mp live
    exact .inr ⟨same, old, found, rfl⟩

/-- No node has the new one as an input. -/
theorem not_mem_inputs (created : Created network kind id after) (before : network.WellFormed)
    (fits : network.Fits kind) {other : NodeId} {found : NodeKind}
    (live : after.kind? other = some found) : id ∉ found.inputs := by
  intro input
  have fit : network.Fits found := by
    rcases created.live_cases live with ⟨-, rfl⟩ | ⟨-, old⟩
    · exact fits
    · exact before.fits old
  obtain ⟨inner, present⟩ := fit.input_live input
  exact absurd (created.fresh.symm.trans present) (by simp only [reduceCtorEq, not_false_eq_true])

/-- Lists of outputs stay right when the new node is put into those that it belongs to. -/
theorem lists (created : Created network kind id after) {wanted : NodeKind → Prop}
    [Decidable (wanted kind)] {nodes : List NodeId} (lists : network.Lists wanted nodes) :
    after.Lists wanted (if wanted kind then nodes ++ [id] else nodes) := by
  have isOld : ∀ {other}, other ∈ nodes → other ≠ id := fun member =>
    created.ne_of_live ((lists.mem.mp member).imp fun _ => And.left)
  have old : ∀ {other}, other ∈ nodes ↔ other ≠ id ∧ other ∈ nodes := fun {other} =>
    (and_iff_right_of_imp isOld).symm
  by_cases own : wanted kind
  · rw [if_pos own]
    refine ⟨created.nodup_append lists.nodup fun other member =>
      (lists.mem.mp member).imp fun _ => And.left, fun {other} => ?_⟩
    rw [created.exists_kind?_iff, ← lists.mem, List.mem_append, List.mem_singleton, ← old, or_comm,
      and_iff_left own]
  · rw [if_neg own]
    refine ⟨lists.nodup, fun {other} => ?_⟩
    rw [created.exists_kind?_iff, ← lists.mem, ← old]
    exact (or_iff_right fun here => own here.2).symm

/-- The outputs of every node are listed. -/
theorem outputs (created : Created network kind id after) (before : network.WellFormed)
    (fits : network.Fits kind) {self : NodeId} {node : Node} (live : after.node? self = some node) :
    after.Lists (fun kind => kind.above? = some self) node.children ∧
      after.Lists (fun kind => kind.right? = some self) node.rightChildren := by
  rcases created.node_cases live with ⟨rfl, rfl⟩ | ⟨-, old, found, rfl⟩
  · refine ⟨⟨.nil, iff_of_false List.not_mem_nil ?_⟩, .nil, iff_of_false List.not_mem_nil ?_⟩
    · rintro ⟨found, present, above⟩
      exact created.not_mem_inputs before fits present (NodeKind.mem_inputs.mpr (.inl above))
    · rintro ⟨found, present, right⟩
      exact created.not_mem_inputs before fits present (NodeKind.mem_inputs.mpr (.inr right))
  · exact ⟨created.lists (before.children found), created.lists (before.rightChildren found)⟩

/-- A network that is well formed stays so if the inputs of a new node fit and its key is new. -/
theorem wellFormed (created : Created network kind id after) (before : network.WellFormed)
    (fits : network.Fits kind)
    (newKey : ∀ key, kind.key? = some key → ∀ other, (key, other) ∉ network.keys) :
    after.WellFormed where
  id_lt live := by
    rcases created.live_cases live with ⟨rfl, -⟩ | ⟨-, old⟩
    · exact created.id_lt
    · exact Nat.lt_of_lt_of_le (before.id_lt old) created.slots_le
  mem_free := by
    intro other
    rw [created.mem_free, created.kind?]
    by_cases same : other = id <;> simp [same]
  free_nodup := created.free_nodup
  mem_keys := by
    intro key other
    rw [created.keys]
    have old : (key, other) ∈ network.keys ↔
        ∃ found, network.kind? other = some found ∧ found.key? = some key := before.mem_keys
    by_cases same : other = id
    · subst same
      have gone : (key, other) ∉ network.keys := fun member => by
        obtain ⟨found, live, -⟩ := old.mp member
        exact absurd (created.fresh.symm.trans live)
          (by simp only [reduceCtorEq, not_false_eq_true])
      rw [created.kind?_self]
      cases wanted : kind.key? <;> simp [gone, wanted, eq_comm]
    · rw [created.kind?, if_neg same, ← old]
      cases kind.key? <;> simp [same]
  keys_nodup := by
    rw [created.keys]
    cases wanted : kind.key? with
    | none => exact before.keys_nodup
    | some key =>
        refine List.nodup_cons.mpr ⟨fun member => ?_, before.keys_nodup⟩
        obtain ⟨⟨_, other⟩, present, rfl⟩ := List.mem_map.mp member
        exact newKey _ wanted other present
  mem_children live := (created.outputs before fits live).1.mem
  children_nodup live := (created.outputs before fits live).1.nodup
  mem_rightChildren live := (created.outputs before fits live).2.mem
  rightChildren_nodup live := (created.outputs before fits live).2.nodup
  mem_rootChildren := by
    rw [created.rootChildren]
    exact (created.lists before.rootChildren).mem
  rootChildren_nodup := by
    rw [created.rootChildren]
    exact (created.lists before.rootChildren).nodup
  objectType := by
    intro typeName other
    have old : network.objectType? typeName = some other ↔
        network.kind? other = some (.objectType typeName) := before.objectType
    have noEntry : ∀ other, kind = .objectType typeName →
        network.kind? other ≠ some (.objectType typeName) := by
      rintro other rfl live
      exact newKey _ rfl other (before.mem_keys.mpr ⟨_, live, rfl⟩)
    have entry : after.objectType? typeName =
        if kind = .objectType typeName then some id else network.objectType? typeName := by
      unfold objectType?
      rw [created.objectTypes]
      cases kind <;> simp [entriesWith, eq_comm]
    rw [entry, created.kind?]
    by_cases wanted : kind = .objectType typeName
    · rw [if_pos wanted]
      by_cases same : other = id
      · simp only [same, ↓reduceIte, wanted]
      · simp only [same, ↓reduceIte, Option.some.injEq, noEntry other wanted, iff_false]
        exact fun equal => same equal.symm
    · rw [if_neg wanted, old]
      by_cases same : other = id
      · subst same
        simp only [created.fresh, ↓reduceIte, Option.some.injEq, wanted, reduceCtorEq]
      · simp only [same, ↓reduceIte]
  fits live := by
    rcases created.live_cases live with ⟨rfl, rfl⟩ | ⟨-, old⟩
    · exact fits.congr fun _ _ _ present => created.kind?_of_live present
    · exact (before.fits old).congr fun _ _ _ present => created.kind?_of_live present

end Created

end Rete.Network
