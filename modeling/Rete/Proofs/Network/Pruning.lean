import Mathlib.Data.List.Nodup
import Rete.Proofs.Network.Meaning

/-!
# Dropping nodes

A node that is no node's input can be dropped from a well-formed network (`Dropped.wellFormed`).
Giving up the path of a rule, last node first, drops exactly the nodes that no other path uses, and
never one that is still an input (`Accounted.releaseAll`).
-/

namespace Rete.Network

variable {network after : Network}

/-! ## Dropping one node -/

/-- What dropping a node does to a network. -/
structure Dropped (network : Network) (kind : NodeKind) (id : NodeId) (after : Network) : Prop where
  live : network.kind? id = some kind
  node? : ∀ other, after.node? other =
    if other = id then none
    else (network.node? other).map fun node => node.unlinked other id kind
  slots : after.slots = network.slots
  free : after.free = id :: network.free
  keys : after.keys = network.keys.filter fun entry => some entry.1 != kind.key?
  rootChildren : after.rootChildren =
    if kind.left? = some none then network.rootChildren.filter (· != id) else network.rootChildren
  objectTypes : after.objectTypes = entriesWithout network.objectTypes kind
  rules : after.rules = network.rules
  names : after.names = network.names
  nextRule : after.nextRule = network.nextRule

private theorem dropped {id : NodeId} {kind : NodeKind} (live : network.kind? id = some kind) :
    Dropped network kind id (network.drop id kind) := by
  unfold Network.drop
  rw [unlink_eq]
  refine ⟨live, fun other => ?_, rfl, rfl, rfl, rfl, rfl, rfl, rfl, rfl⟩
  refine (node?_unlink _ id other kind).trans ?_
  simp only [Network.node?, SortedMap.find?_erase_eq]
  by_cases same : other = id
  · simp only [same, ↓reduceIte, Option.map_none]
  · simp only [same, ↓reduceIte]

namespace Dropped

variable {kind : NodeKind} {id : NodeId}

/-- Dropping a node leaves all others there. -/
theorem kind? (dropped : Dropped network kind id after) (other : NodeId) :
    after.kind? other = if other = id then none else network.kind? other := by
  unfold Network.kind?
  rw [dropped.node?]
  by_cases same : other = id
  · simp only [same, ↓reduceIte, Option.map_none]
  · simp only [same, ↓reduceIte, Option.map_map]
    rfl

private theorem kind?_of_ne (dropped : Dropped network kind id after) {other : NodeId}
    (different : other ≠ id) : after.kind? other = network.kind? other := by
  rw [dropped.kind?, if_neg different]

private theorem exists_kind?_iff (dropped : Dropped network kind id after) {other : NodeId}
    {holds : NodeKind → Prop} : (∃ found, after.kind? other = some found ∧ holds found) ↔
      other ≠ id ∧ ∃ found, network.kind? other = some found ∧ holds found := by
  rw [dropped.kind?]
  by_cases same : other = id
  · simp only [same, ↓reduceIte, reduceCtorEq, false_and, exists_false, ne_eq, not_true_eq_false]
  · simp only [same, ↓reduceIte, ne_eq, not_false_eq_true, true_and]

private theorem node_cases (dropped : Dropped network kind id after) {other : NodeId} {node : Node}
    (live : after.node? other = some node) :
    other ≠ id ∧ ∃ old, network.node? other = some old ∧ node = old.unlinked other id kind := by
  rw [dropped.node?] at live
  by_cases same : other = id
  · rw [if_pos same] at live
    cases live
  · rw [if_neg same] at live
    obtain ⟨old, found, rfl⟩ := Option.map_eq_some_iff.mp live
    exact ⟨same, old, found, rfl⟩

/-- Lists of outputs stay right when the node is taken out of those that it is in. -/
theorem lists (dropped : Dropped network kind id after) {wanted : NodeKind → Prop}
    [Decidable (wanted kind)] {nodes : List NodeId} (lists : network.Lists wanted nodes) :
    after.Lists wanted (if wanted kind then nodes.filter (· != id) else nodes) := by
  by_cases own : wanted kind
  · rw [if_pos own]
    refine ⟨lists.nodup.filter _, fun {other} => ?_⟩
    rw [List.mem_filter, bne_iff_ne, dropped.exists_kind?_iff, ← lists.mem]
    exact and_comm
  · rw [if_neg own]
    refine ⟨lists.nodup, fun {other} => ?_⟩
    rw [dropped.exists_kind?_iff, ← lists.mem]
    refine (and_iff_right_of_imp ?_).symm
    rintro member rfl
    obtain ⟨_, present, here⟩ := lists.mem.mp member
    cases present.symm.trans dropped.live
    exact own here

/-- The outputs of a node that is left are listed. -/
theorem outputs (dropped : Dropped network kind id after) (before : network.WellFormed)
    {self : NodeId} {node : Node} (live : after.node? self = some node) :
    after.Lists (fun kind => kind.above? = some self) node.children ∧
      after.Lists (fun kind => kind.right? = some self) node.rightChildren := by
  obtain ⟨-, old, found, rfl⟩ := dropped.node_cases live
  exact ⟨dropped.lists (before.children found), dropped.lists (before.rightChildren found)⟩

/-- A network that is well formed stays so when a node is dropped that is no input. -/
theorem wellFormed (dropped : Dropped network kind id after) (before : network.WellFormed)
    (noInput : ∀ {other found}, network.kind? other = some found → id ∉ found.inputs) :
    after.WellFormed where
  id_lt {other found} present := by
    rw [dropped.kind?] at present
    by_cases same : other = id
    · rw [if_pos same] at present
      cases present
    · rw [if_neg same] at present
      rw [dropped.slots]
      exact before.id_lt present
  mem_free := by
    intro other
    rw [dropped.free, dropped.slots, dropped.kind?, List.mem_cons, before.mem_free]
    by_cases same : other = id
    · simp only [same, true_or, ↓reduceIte, and_true, true_iff]
      exact before.id_lt dropped.live
    · simp only [same, false_or, ↓reduceIte]
  free_nodup := by
    rw [dropped.free]
    refine List.nodup_cons.mpr ⟨fun member => ?_, before.free_nodup⟩
    have dead := (before.mem_free.mp member).2
    rw [dropped.live] at dead
    cases dead
  mem_keys := by
    intro key other
    rw [dropped.keys, dropped.exists_kind?_iff, List.mem_filter, ← before.mem_keys]
    constructor
    · rintro ⟨member, different⟩
      refine ⟨?_, member⟩
      rintro rfl
      obtain ⟨found, present, isKey⟩ := before.mem_keys.mp member
      cases present.symm.trans dropped.live
      exact bne_iff_ne.mp different isKey.symm
    · rintro ⟨different, member⟩
      refine ⟨member, bne_iff_ne.mpr fun same => different ?_⟩
      have own : (key, id) ∈ network.keys := before.mem_keys.mpr ⟨kind, dropped.live, same.symm⟩
      have distinct := before.keys_nodup
      exact Prod.mk.inj (List.inj_on_of_nodup_map distinct member own rfl) |>.2
  keys_nodup := by
    rw [dropped.keys]
    exact before.keys_nodup.sublist (List.filter_sublist.map _)
  mem_children live := (dropped.outputs before live).1.mem
  children_nodup live := (dropped.outputs before live).1.nodup
  mem_rightChildren live := (dropped.outputs before live).2.mem
  rightChildren_nodup live := (dropped.outputs before live).2.nodup
  mem_rootChildren := by
    rw [dropped.rootChildren]
    exact (dropped.lists before.rootChildren).mem
  rootChildren_nodup := by
    rw [dropped.rootChildren]
    exact (dropped.lists before.rootChildren).nodup
  objectType := by
    intro typeName other
    have old : network.objectType? typeName = some other ↔
        network.kind? other = some (.objectType typeName) := before.objectType
    have entry : after.objectType? typeName =
        if kind = .objectType typeName then none else network.objectType? typeName := by
      unfold objectType?
      rw [dropped.objectTypes]
      cases kind <;> simp [entriesWithout, eq_comm]
    rw [entry, dropped.kind?]
    by_cases wanted : kind = .objectType typeName
    · have own := before.objectType.mpr (wanted ▸ dropped.live)
      by_cases same : other = id
      · simp only [wanted, ↓reduceIte, same, reduceCtorEq]
      · rw [if_pos wanted, if_neg same, ← old, own, Option.some.injEq]
        exact iff_of_false (by simp only [reduceCtorEq, not_false_eq_true]) fun equal =>
          same equal.symm
    · rw [if_neg wanted, old]
      by_cases same : other = id
      · subst same
        simp only [dropped.live, Option.some.injEq, wanted, ↓reduceIte, reduceCtorEq]
      · simp only [same, ↓reduceIte]
  fits {other found} present := by
    rw [dropped.kind?] at present
    by_cases same : other = id
    · rw [if_pos same] at present
      cases present
    · rw [if_neg same] at present
      refine (before.fits present).congr fun input isInput inner live => ?_
      rw [dropped.kind?_of_ne, live]
      rintro rfl
      exact noInput present isInput

end Dropped

/-! ## Giving up paths -/

/-- A network with fewer uses: the nodes that are left are the ones that the given paths use. -/
structure Shrunk (network after : Network) (paths : List (List NodeId)) : Prop where
  old : ∀ {id kind}, after.kind? id = some kind → network.kind? id = some kind
  wellFormed : after.WellFormed
  accounted : Accounted after paths
  rules : after.rules = network.rules
  names : after.names = network.names
  nextRule : after.nextRule = network.nextRule

namespace Shrunk

variable {paths : List (List NodeId)}

private theorem trans {last : Network} {fewer : List (List NodeId)}
    (first : Shrunk network after paths)
    (second : Shrunk after last fewer) : Shrunk network last fewer where
  old live := first.old (second.old live)
  wellFormed := second.wellFormed
  accounted := second.accounted
  rules := second.rules.trans first.rules
  names := second.names.trans first.names
  nextRule := second.nextRule.trans first.nextRule

/-- The nodes of the paths that are left stay as they are. -/
theorem kept (shrunk : Shrunk network after paths) {path : List NodeId} (present : path ∈ paths)
    {id : NodeId} (member : id ∈ path) {kind : NodeKind} (live : network.kind? id = some kind) :
    after.kind? id = some kind := by
  obtain ⟨found, here⟩ := shrunk.accounted.live present member
  cases live.symm.trans (shrunk.old here)
  exact here

end Shrunk

variable {paths : List (List NodeId)}

private theorem uses_pos_iff {id : NodeId} : 0 < uses paths id ↔ ∃ path ∈ paths, id ∈ path := by
  rw [uses, List.count_pos_iff, List.mem_flatten]

/-- The counts and the order hold whatever the order of the paths. -/
theorem Accounted.perm {others : List (List NodeId)} (accounted : Accounted network paths)
    (same : paths.Perm others) : Accounted network others := by
  have counts : ∀ id, uses paths id = uses others id := fun id => same.flatten.count_eq id
  refine ⟨fun live => counts _ ▸ accounted.used live, fun live => counts _ ▸ accounted.refs live,
    fun live isTerminal => counts _ ▸ accounted.terminal live isTerminal, fun member => ?_⟩
  exact accounted.ordered (same.mem_iff.mpr member)

/-- A node whose last use is at the end of a path is no input. -/
theorem Accounted.not_mem_inputs {path : List NodeId} {id : NodeId}
    (accounted : Accounted network ((path ++ [id]) :: paths))
    (last : uses (path :: paths) id = 0) {other : NodeId} {kind : NodeKind}
    (live : network.kind? other = some kind) : id ∉ kind.inputs := by
  intro isInput
  have unused : ∀ path' ∈ path :: paths, id ∉ path' := fun path' present member =>
    absurd last (Nat.pos_iff_ne_zero.mp (uses_pos_iff.mpr ⟨path', present, member⟩))
  obtain ⟨path', present, member⟩ := uses_pos_iff.mp (accounted.used live)
  obtain ⟨before, rest, split⟩ := List.append_of_mem member
  obtain ⟨found, same, inputs⟩ := accounted.ordered present split
  cases live.symm.trans same
  have within := inputs id isInput
  rcases List.mem_cons.mp present with rfl | present
  · -- The input comes before another node of the path, so it is not its last one.
    rcases List.eq_nil_or_concat rest with rfl | ⟨rest, final, rfl⟩
    · obtain ⟨rfl, -⟩ := List.append_inj' split rfl
      exact unused path List.mem_cons_self within
    · rw [List.concat_eq_append, ← List.cons_append, ← List.append_assoc] at split
      obtain ⟨rfl, -⟩ := List.append_inj' split rfl
      exact unused _ List.mem_cons_self (List.mem_append_left _ within)
  · refine unused path' (List.mem_cons_of_mem _ present) ?_
    rw [split]
    exact List.mem_append_left _ within

/-- A path loses its last node, which is gone or has other uses. -/
theorem Accounted.init {path : List NodeId} {id : NodeId}
    (accounted : Accounted network ((path ++ [id]) :: paths))
    (old : ∀ {other kind}, after.kind? other = some kind → network.kind? other = some kind)
    (stays : ∀ {other kind}, 0 < uses (path :: paths) other → network.kind? other = some kind →
      after.kind? other = some kind)
    (more : ∀ {kind}, after.kind? id = some kind →
      kind.isTerminal = false ∧ 0 < uses (path :: paths) id)
    (refs : ∀ {other node}, after.node? other = some node → node.refs =
      if node.kind.isTerminal then 0 else uses (path :: paths) other) :
    Accounted after (path :: paths) where
  used {other kind} live := by
    have used := accounted.used (old live)
    by_cases same : other = id
    · subst same
      exact (more live).2
    · rwa [uses_snoc, if_neg same] at used
  refs := refs
  terminal {other kind} live isTerminal := by
    have once := accounted.terminal (old live) isTerminal
    have different : other ≠ id := by
      rintro rfl
      rw [(more live).1] at isTerminal
      cases isTerminal
    rwa [uses_snoc, if_neg different] at once
  ordered {path'} present {before other rest} split := by
    have used : 0 < uses (path :: paths) other := by
      refine uses_pos_iff.mpr ⟨path', present, ?_⟩
      rw [split]
      exact List.mem_append_right _ List.mem_cons_self
    have first : ∃ kind, network.kind? other = some kind ∧
        ∀ input ∈ kind.inputs, input ∈ before := by
      rcases List.mem_cons.mp present with rfl | present
      · have longer : path' ++ [id] = before ++ other :: (rest ++ [id]) := by
          simp only [split, List.append_assoc, List.cons_append]
        exact accounted.ordered List.mem_cons_self longer
      · exact accounted.ordered (List.mem_cons_of_mem _ present) split
    obtain ⟨kind, live, inputs⟩ := first
    exact ⟨kind, stays used live, inputs⟩

/-- Giving up the last node of a path while other uses of it remain. -/
theorem WellFormed.release_of_shared (wellFormed : network.WellFormed) {path : List NodeId}
    {id : NodeId} (accounted : Accounted network ((path ++ [id]) :: paths)) {node : Node}
    (found : network.node? id = some node) (more : 1 < node.refs) :
    Shrunk network (network.modify id fun node => { node with refs := node.refs - 1 })
      (path :: paths) := by
  have live : network.kind? id = some node.kind := kind?_eq_some.mpr ⟨node, found, rfl⟩
  have own := accounted.refs found
  rw [uses_snoc, if_pos rfl] at own
  have shared : node.kind.isTerminal = false := by
    cases terminal : node.kind.isTerminal with
    | false => rfl
    | true =>
        rw [terminal, if_pos rfl] at own
        exact absurd more (by rw [own]; decide)
  rw [shared, if_neg Bool.false_ne_true] at own
  set after := network.modify id fun node => { node with refs := node.refs - 1 } with isAfter
  have kinds : ∀ other, after.kind? other = network.kind? other := fun other =>
    kind?_modify network id other _ fun _ => rfl
  refine ⟨fun here => (kinds _).symm.trans here, wellFormed.count id _,
    accounted.init (fun here => (kinds _).symm.trans here) (fun _ here => (kinds _).trans here)
      (fun here => ?_) fun {other node'} here => ?_, ?_, ?_, ?_⟩
  · cases live.symm.trans ((kinds id).symm.trans here)
    exact ⟨shared, by omega⟩
  · rw [isAfter, node?_modify] at here
    by_cases same : other = id
    · subst same
      rw [if_pos rfl, found, Option.map_some, Option.some.injEq] at here
      subst here
      simp only [shared, Bool.false_eq_true, ↓reduceIte, own, Nat.add_sub_cancel]
    · rw [if_neg same] at here
      have old := accounted.refs here
      rwa [uses_snoc, if_neg same, Nat.add_zero] at old
  all_goals rw [isAfter, modify_eq]

/-- Giving up the last node of a path with its last use. -/
theorem WellFormed.release_of_last (wellFormed : network.WellFormed) {path : List NodeId}
    {id : NodeId} (accounted : Accounted network ((path ++ [id]) :: paths)) {node : Node}
    (found : network.node? id = some node) (last : ¬ 1 < node.refs) :
    Shrunk network (network.drop id node.kind) (path :: paths) := by
  have live : network.kind? id = some node.kind := kind?_eq_some.mpr ⟨node, found, rfl⟩
  have own := accounted.refs found
  rw [uses_snoc, if_pos rfl] at own
  have unused : uses (path :: paths) id = 0 := by
    cases terminal : node.kind.isTerminal with
    | false =>
        rw [terminal, if_neg Bool.false_ne_true] at own
        omega
    | true =>
        have once := accounted.terminal live terminal
        rw [uses_snoc, if_pos rfl] at once
        omega
  have dropped := dropped live
  have old : ∀ {other kind}, (network.drop id node.kind).kind? other = some kind →
      other ≠ id ∧ network.kind? other = some kind := by
    intro other kind here
    rw [dropped.kind?] at here
    by_cases same : other = id
    · rw [if_pos same] at here
      cases here
    · exact ⟨same, by rwa [if_neg same] at here⟩
  refine ⟨fun here => (old here).2, dropped.wellFormed wellFormed (accounted.not_mem_inputs unused),
    accounted.init (fun here => (old here).2) (fun {other kind} used here => ?_)
      (fun here => absurd rfl (old here).1) fun {other node'} here => ?_, dropped.rules,
    dropped.names, dropped.nextRule⟩
  · rw [dropped.kind?_of_ne, here]
    rintro rfl
    omega
  · obtain ⟨different, before, present, rfl⟩ := dropped.node_cases here
    have refs := accounted.refs present
    rwa [uses_snoc, if_neg different, Nat.add_zero] at refs

/-- Giving up the last node of a path. -/
theorem WellFormed.release (wellFormed : network.WellFormed) {path : List NodeId} {id : NodeId}
    (accounted : Accounted network ((path ++ [id]) :: paths)) :
    Shrunk network (network.release id) (path :: paths) := by
  obtain ⟨kind, live⟩ := accounted.live List.mem_cons_self
    (List.mem_append_right path (List.mem_singleton_self id))
  obtain ⟨node, found, rfl⟩ := kind?_eq_some.mp live
  unfold Network.release
  simp only [found]
  by_cases more : 1 < node.refs
  · rw [if_pos more]
    exact wellFormed.release_of_shared accounted found more
  · rw [if_neg more]
    exact wellFormed.release_of_last accounted found more

/-- Giving up a whole path, last node first. -/
theorem WellFormed.releaseAll (reversed : List NodeId) {network : Network}
    (wellFormed : network.WellFormed) (accounted : Accounted network (reversed.reverse :: paths)) :
    Shrunk network (reversed.foldl Network.release network) ([] :: paths) := by
  induction reversed generalizing network with
  | nil => exact ⟨id, wellFormed, accounted, rfl, rfl, rfl⟩
  | cons id rest ih =>
      rw [List.reverse_cons] at accounted
      have first := wellFormed.release accounted
      exact first.trans (ih first.wellFormed first.accounted)

end Rete.Network
