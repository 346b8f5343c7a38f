import Rete.Proofs.Network.Growth

/-!
# The paths of rules

A node counts how often it occurs in the paths of the rules that are present (`Accounted`), and
inputs come before the nodes that use them. Obtaining a node for a path keeps this
(`Grown.use`), and what the nodes of a rule mean together stays as the network grows
(`Realizes.mono`).
-/

namespace Rete.Network

variable {network after : Network}

/-! ## Counting -/

/-- How often a node occurs in paths. -/
def uses (paths : List (List NodeId)) (id : NodeId) : Nat := paths.flatten.count id

/-- A path that goes on to a node uses it once more. -/
theorem uses_snoc (path : List NodeId) (paths : List (List NodeId)) (id other : NodeId) :
    uses ((path ++ [id]) :: paths) other =
      uses (path :: paths) other + if other = id then 1 else 0 := by
  simp only [uses, List.flatten_cons, List.count_append, List.count_singleton, beq_iff_eq,
    eq_comm (a := id)]
  omega

/-- The counts of nodes are those of given paths, in which inputs come first. -/
structure Accounted (network : Network) (paths : List (List NodeId)) : Prop where
  used : ∀ {id kind}, network.kind? id = some kind → 0 < uses paths id
  refs : ∀ {id node}, network.node? id = some node →
    node.refs = if node.kind.isTerminal then 0 else uses paths id
  terminal : ∀ {id kind}, network.kind? id = some kind → kind.isTerminal = true →
    uses paths id = 1
  ordered : ∀ {path}, path ∈ paths → ∀ {before id rest}, path = before ++ id :: rest →
    ∃ kind, network.kind? id = some kind ∧ ∀ input ∈ kind.inputs, input ∈ before

namespace Accounted

variable {paths : List (List NodeId)}

/-- The nodes of a path are live. -/
theorem live (accounted : Accounted network paths) {path : List NodeId} (present : path ∈ paths)
    {id : NodeId} (member : id ∈ path) : ∃ kind, network.kind? id = some kind := by
  obtain ⟨before, rest, split⟩ := List.append_of_mem member
  exact (accounted.ordered present split).imp fun _ => And.left

/-- The inputs of a node of a path are in the path. -/
theorem input_mem (accounted : Accounted network paths) {path : List NodeId}
    (present : path ∈ paths) {id : NodeId} (member : id ∈ path) {kind : NodeKind}
    (live : network.kind? id = some kind) {input : NodeId} (isInput : input ∈ kind.inputs) :
    input ∈ path := by
  obtain ⟨before, rest, split⟩ := List.append_of_mem member
  obtain ⟨found, same, inputs⟩ := accounted.ordered present split
  cases live.symm.trans same
  rw [split]
  exact List.mem_append_left _ (inputs input isInput)

/-- A path is extended by a node whose inputs it holds. -/
theorem snoc {path : List NodeId} (accounted : Accounted network (path :: paths)) {id : NodeId}
    {kind : NodeKind} (live : after.kind? id = some kind)
    (terminal : kind.isTerminal = true → uses (path :: paths) id = 0)
    (inputs : ∀ input ∈ kind.inputs, input ∈ path)
    (others : ∀ other, other ≠ id → after.kind? other = network.kind? other)
    (kept : ∀ {other found}, network.kind? other = some found → after.kind? other = some found)
    (refs : ∀ {other node}, after.node? other = some node → node.refs =
      if node.kind.isTerminal then 0 else uses ((path ++ [id]) :: paths) other) :
    Accounted after ((path ++ [id]) :: paths) where
  used {other found} present := by
    rw [uses_snoc]
    by_cases same : other = id
    · rw [if_pos same]
      exact Nat.succ_pos _
    · exact Nat.add_pos_left (accounted.used ((others other same).symm.trans present)) _
  refs := refs
  terminal {other found} present isTerminal := by
    rw [uses_snoc]
    by_cases same : other = id
    · subst same
      cases live.symm.trans present
      rw [terminal isTerminal, if_pos rfl]
    · rw [if_neg same]
      exact accounted.terminal ((others other same).symm.trans present) isTerminal
  ordered {path'} member {before other rest} split := by
    rcases List.mem_cons.mp member with rfl | member
    · rcases List.eq_nil_or_concat rest with rfl | ⟨rest, last, rfl⟩
      · obtain ⟨rfl, same⟩ := List.append_inj' split rfl
        cases same
        exact ⟨kind, live, inputs⟩
      · rw [List.concat_eq_append, ← List.cons_append, ← List.append_assoc] at split
        obtain ⟨within, -⟩ := List.append_inj' split rfl
        obtain ⟨found, present, first⟩ := accounted.ordered List.mem_cons_self within
        exact ⟨found, kept present, first⟩
    · obtain ⟨found, present, first⟩ :=
        accounted.ordered (List.mem_cons_of_mem _ member) split
      exact ⟨found, kept present, first⟩

/-- No path uses a node that is not there. -/
theorem uses_eq_zero (accounted : Accounted network paths) {id : NodeId}
    (dead : network.kind? id = none) : uses paths id = 0 := by
  refine List.count_eq_zero.mpr fun member => ?_
  obtain ⟨path, present, member⟩ := List.mem_flatten.mp member
  obtain ⟨kind, live⟩ := accounted.live present member
  exact absurd (dead.symm.trans live) (by simp only [reduceCtorEq, not_false_eq_true])

end Accounted

/-! ## Growing -/

/-- A network with more nodes, which are of given kinds; its rules are the same. -/
structure Grown (network after : Network) (added : NodeKind → Prop) : Prop where
  kept : ∀ {id kind}, network.kind? id = some kind → after.kind? id = some kind
  new : ∀ {id kind}, after.kind? id = some kind → network.kind? id = some kind ∨ added kind
  rules : after.rules = network.rules
  names : after.names = network.names
  nextRule : after.nextRule = network.nextRule

namespace Grown

variable {added : NodeKind → Prop}

/-- A network without new nodes has grown. -/
theorem refl (network : Network) : Grown network network added :=
  ⟨id, .inl, rfl, rfl, rfl⟩

/-- What is known of new nodes may be weakened. -/
theorem imp {other : NodeKind → Prop} (grown : Grown network after added)
    (within : ∀ {kind}, added kind → other kind) : Grown network after other :=
  { grown with new := fun live => (grown.new live).imp_right within }

/-- A network grows in two steps as in one. -/
theorem trans {last : Network} (first : Grown network after added)
    (second : Grown after last added) : Grown network last added where
  kept live := second.kept (first.kept live)
  new live := (second.new live).elim first.new .inr
  rules := second.rules.trans first.rules
  names := second.names.trans first.names
  nextRule := second.nextRule.trans first.nextRule

end Grown

/-- A change that leaves the kind of a node alone changes no kinds. -/
theorem kind?_modify (network : Network) (id other : NodeId) (change : Node → Node)
    (same : ∀ node, (change node).kind = node.kind) :
    (network.modify id change).kind? other = network.kind? other := by
  unfold kind?
  rw [node?_modify]
  by_cases here : other = id
  · simp only [here, ↓reduceIte, Option.map_map]
    exact congrArg (Option.map · _) (funext same)
  · simp only [here, ↓reduceIte]

/-- Counting a use makes no node. -/
theorem Grown.count {added : NodeKind → Prop} (network : Network) (id : NodeId)
    (count : Node → Nat) :
    Grown network (network.modify id fun node => { node with refs := count node }) added := by
  have kinds : ∀ other, (network.modify id fun node => { node with refs := count node }).kind?
      other = network.kind? other := fun other => kind?_modify network id other _ fun _ => rfl
  refine ⟨fun live => (kinds _).trans live, fun live => .inl ((kinds _).symm.trans live),
    ?_, ?_, ?_⟩ <;> rw [modify_eq]

/-- Counting a use changes nothing else. -/
theorem WellFormed.count (wellFormed : network.WellFormed) (id : NodeId) (count : Node → Nat) :
    (network.modify id fun node => { node with refs := count node }).WellFormed := by
  set after := network.modify id fun node => { node with refs := count node } with isAfter
  have kinds : ∀ other, after.kind? other = network.kind? other := fun other =>
    kind?_modify network id other _ fun _ => rfl
  have others : after = { network with nodes := after.nodes } := modify_eq ..
  have nodes : ∀ {other node}, after.node? other = some node → ∃ old,
      network.node? other = some old ∧ node.children = old.children ∧
        node.rightChildren = old.rightChildren := by
    intro other node live
    rw [isAfter, node?_modify] at live
    by_cases here : other = id
    · rw [if_pos here] at live
      obtain ⟨old, found, rfl⟩ := Option.map_eq_some_iff.mp live
      exact ⟨old, here ▸ found, rfl, rfl⟩
    · rw [if_neg here] at live
      exact ⟨node, live, rfl, rfl⟩
  constructor
  · intro other kind live
    rw [others]
    exact wellFormed.id_lt ((kinds other).symm.trans live)
  · intro other
    rw [kinds, others]
    exact wellFormed.mem_free
  · rw [others]
    exact wellFormed.free_nodup
  · intro key other
    rw [kinds, others]
    exact wellFormed.mem_keys
  · rw [others]
    exact wellFormed.keys_nodup
  · intro other node live found
    obtain ⟨old, present, same, -⟩ := nodes live
    rw [same, kinds]
    exact wellFormed.mem_children present
  · intro other node live
    obtain ⟨old, present, same, -⟩ := nodes live
    rw [same]
    exact wellFormed.children_nodup present
  · intro other node live found
    obtain ⟨old, present, -, same⟩ := nodes live
    rw [same, kinds]
    exact wellFormed.mem_rightChildren present
  · intro other node live
    obtain ⟨old, present, -, same⟩ := nodes live
    rw [same]
    exact wellFormed.rightChildren_nodup present
  · intro other
    rw [kinds, others]
    exact wellFormed.mem_rootChildren
  · rw [others]
    exact wellFormed.rootChildren_nodup
  · intro typeName other
    rw [kinds, others]
    exact wellFormed.objectType
  · intro other kind live
    rw [kinds] at live
    exact (wellFormed.fits live).congr fun _ _ _ present => (kinds _).trans present

/-! ## Obtaining nodes -/

/-- What a node that was obtained has in common with the wanted one: all that makes up its key. -/
def Stands (network : Network) (id : NodeId) (wanted : NodeKind) : Prop :=
  ∃ kind, network.kind? id = some kind ∧ kind.key? = wanted.key?

/-- A node that stands for a condition still does in a network that has grown. -/
theorem Stands.mono {added : NodeKind → Prop} {id : NodeId} {wanted : NodeKind}
    (stands : network.Stands id wanted) (grown : Grown network after added) :
    after.Stands id wanted :=
  stands.imp fun _ found => ⟨grown.kept found.1, found.2⟩

/-- A node is found by its key, or else made. -/
theorem WellFormed.obtain (wellFormed : network.WellFormed) {kind : NodeKind}
    (shared : kind.isTerminal = false) (fits : network.Fits kind) :
    (∃ id, network.obtain kind = (id, network) ∧ network.Stands id kind) ∨
      ∃ id after, network.obtain kind = (id, after) ∧ Created network kind id after ∧
        after.WellFormed := by
  cases isKey : kind.key? with
  | none =>
      rw [NodeKind.key?_eq_none_iff.mp isKey] at shared
      exact absurd shared (by decide)
  | some key =>
      unfold Network.obtain
      simp only [isKey, Option.bind_some]
      cases found : network.keys.lookup key with
      | some id =>
          obtain ⟨before, rest, split, -⟩ := List.lookup_eq_some_iff.mp found
          have member : (key, id) ∈ network.keys := by
            rw [split]
            exact List.mem_append_right _ List.mem_cons_self
          obtain ⟨present, live, same⟩ := wellFormed.mem_keys.mp member
          exact .inl ⟨id, rfl, present, live, same.trans isKey.symm⟩
      | none =>
          have created := wellFormed.create fits
          refine .inr ⟨_, _, rfl, created, created.wellFormed wellFormed fits ?_⟩
          intro other sameKey id member
          rw [isKey, Option.some.injEq] at sameKey
          subst sameKey
          exact bne_iff_ne.mp (List.lookup_eq_none_iff.mp found (key, id) member) rfl

/-- Creating a node is a way to grow. -/
theorem Created.grown {kind : NodeKind} {id : NodeId} (created : Created network kind id after) :
    Grown network after (· = kind) where
  kept live := created.kind?_of_live live
  new live := (created.live_cases live).elim (fun new => .inr new.2) fun old => .inl old.2
  rules := created.rules
  names := created.names
  nextRule := created.nextRule

/-- Nodes with one key have the same inputs. -/
theorem inputs_eq_of_key?_eq {kind wanted : NodeKind} (same : kind.key? = wanted.key?)
    (shared : wanted.isTerminal = false) : kind.inputs = wanted.inputs := by
  cases wanted with
  | terminal => cases shared
  | objectType | alpha | join | eval =>
      cases kind <;>
        simp_all [NodeKind.key?, NodeKind.inputs, NodeKind.above?, NodeKind.right?]

private theorem isTerminal_eq_of_key?_eq {kind wanted : NodeKind} (same : kind.key? = wanted.key?) :
    kind.isTerminal = wanted.isTerminal := by
  rw [Bool.eq_iff_iff, ← NodeKind.key?_eq_none_iff, ← NodeKind.key?_eq_none_iff, same]

/-- What obtaining a node for a path does. -/
structure Used (network : Network) (paths : List (List NodeId)) (path : List NodeId)
    (kind : NodeKind) (id : NodeId) (after : Network) : Prop where
  grown : Grown network after (· = kind)
  wellFormed : after.WellFormed
  accounted : Accounted after ((path ++ [id]) :: paths)
  stands : after.Stands id kind

/-- Using a node that is there extends the path by the node. -/
theorem WellFormed.used_of_stands (wellFormed : network.WellFormed) {paths : List (List NodeId)}
    {path : List NodeId} (accounted : Accounted network (path :: paths)) {kind : NodeKind}
    (shared : kind.isTerminal = false) (inputs : ∀ input ∈ kind.inputs, input ∈ path) {id : NodeId}
    (stands : network.Stands id kind) : Used network paths path kind id
      (network.modify id fun node => { node with refs := node.refs + 1 }) := by
  set counted := network.modify id fun node => { node with refs := node.refs + 1 } with isCounted
  have kinds : ∀ other, counted.kind? other = network.kind? other := fun other =>
    kind?_modify network id other _ fun _ => rfl
  obtain ⟨present, live, same⟩ := stands
  have notTerminal : present.isTerminal = false := (isTerminal_eq_of_key?_eq same).trans shared
  refine ⟨.count .., wellFormed.count id _, ?_, ⟨present, (kinds id).trans live, same⟩⟩
  refine accounted.snoc ((kinds id).trans live)
    (fun isTerminal => absurd (notTerminal.symm.trans isTerminal) Bool.false_ne_true) ?_
    (fun other _ => kinds other) (fun live => (kinds _).trans live) ?_
  · rw [inputs_eq_of_key?_eq same shared]
    exact inputs
  · intro other node found
    rw [isCounted, node?_modify] at found
    rw [uses_snoc]
    by_cases here : other = id
    · subst here
      rw [if_pos rfl] at found
      obtain ⟨old, oldFound, rfl⟩ := Option.map_eq_some_iff.mp found
      have oldKind : old.kind = present := by
        simpa only [kind?, oldFound, Option.map_some, Option.some.injEq] using live
      have notTerminal : old.kind.isTerminal = false := by
        rw [oldKind, isTerminal_eq_of_key?_eq same, shared]
      simp only [accounted.refs oldFound, notTerminal, Bool.false_eq_true, ↓reduceIte]
    · rw [if_neg here] at found
      simpa only [here, ↓reduceIte, Nat.add_zero] using accounted.refs found

/-- Using a node that was made for it extends the path by the node. -/
theorem Accounted.used_of_created {paths : List (List NodeId)} {path : List NodeId}
    (accounted : Accounted network (path :: paths)) {kind : NodeKind}
    (shared : kind.isTerminal = false) (inputs : ∀ input ∈ kind.inputs, input ∈ path) {id : NodeId}
    {made : Network} (created : Created network kind id made) (wellFormed : made.WellFormed) :
    Used network paths path kind id
      (made.modify id fun node => { node with refs := node.refs + 1 }) := by
  set counted := made.modify id fun node => { node with refs := node.refs + 1 } with isCounted
  have kinds : ∀ other, counted.kind? other = made.kind? other := fun other =>
    kind?_modify made id other _ fun _ => rfl
  refine ⟨created.grown.trans (.count ..), wellFormed.count id _, ?_,
    ⟨kind, (kinds id).trans created.kind?_self, rfl⟩⟩
  refine accounted.snoc ((kinds id).trans created.kind?_self)
    (fun isTerminal => absurd (shared.symm.trans isTerminal) Bool.false_ne_true) inputs ?_
    (fun live => (kinds _).trans (created.kind?_of_live live)) ?_
  · intro other different
    rw [kinds, created.kind?, if_neg different]
  · intro other node found
    rw [isCounted, node?_modify] at found
    rw [uses_snoc]
    by_cases here : other = id
    · subst here
      rw [if_pos rfl, created.node?, if_pos rfl] at found
      obtain rfl := Option.some.inj found
      simp only [shared, Bool.false_eq_true, ↓reduceIte, accounted.uses_eq_zero created.fresh]
    · rw [if_neg here, created.node?, if_neg here] at found
      obtain ⟨old, oldFound, rfl⟩ := Option.map_eq_some_iff.mp found
      simpa only [Node.linked, here, ↓reduceIte, Nat.add_zero] using accounted.refs oldFound

/-- Obtaining a node whose inputs are in a path extends the path by the node. -/
theorem WellFormed.use (wellFormed : network.WellFormed) {paths : List (List NodeId)}
    {path : List NodeId} (accounted : Accounted network (path :: paths)) (kind : NodeKind)
    (shared : kind.isTerminal = false) (fits : network.Fits kind)
    (inputs : ∀ input ∈ kind.inputs, input ∈ path) :
    ∃ id after, network.use path kind = (id, path ++ [id], after) ∧
      Used network paths path kind id after := by
  rcases wellFormed.obtain shared fits with ⟨id, found, stands⟩ | ⟨id, made, obtained, created, wf⟩
  · refine ⟨id, _, ?_, wellFormed.used_of_stands accounted shared inputs stands⟩
    simp only [Network.use, found]
  · refine ⟨id, _, ?_, accounted.used_of_created shared inputs created wf⟩
    simp only [Network.use, obtained]

end Rete.Network
