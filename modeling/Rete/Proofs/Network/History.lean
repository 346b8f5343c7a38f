import Rete.Proofs.Network.Rules

/-!
# Networks after any history

Rules are added to a network and removed from it in any order, and some of these changes are
refused. Whatever the history, the tables of the network agree with each other
(`Network.Represented`): keys and links stand for live nodes only, counts are those of the paths,
every id that is not in use can be given out once, and no rule id was given out twice
(`represented_history`).
-/

namespace Rete

/-- The nodes that a key refers to. -/
def NodeKey.inputs : NodeKey → List NodeId
  | objectType _ => []
  | alpha parent .. => [parent]
  | join left right .. => left.toList ++ [right]
  | eval left .. => left.toList

/-- A key refers to the inputs of its node. -/
theorem NodeKind.inputs_eq_of_key? {kind : NodeKind} {key : NodeKey}
    (isKey : kind.key? = some key) : key.inputs = kind.inputs := by
  cases kind with
  | terminal => cases isKey
  | objectType | alpha | join | eval =>
      cases isKey
      simp only [NodeKey.inputs, inputs, above?, right?, Option.toList_none, Option.toList_some,
        List.append_nil]

namespace Network

/-- A change of the rules of a network. -/
inductive Change where
  | add (rule : Rule)
  | remove (id : RuleId)
  deriving DecidableEq, Inhabited

variable {network after : Network}

/-- The network after a change, with the id that was given out. A rule whose name is taken and an
id that is not known change nothing. -/
def alter (network : Network) : Change → List RuleId × Network
  | .add rule =>
    match network.addRule rule with
    | .ok (id, after) => ([id], after)
    | .error _ => ([], network)
  | .remove id =>
    match network.removeRule id with
    | some (_, after) => ([], after)
    | none => ([], network)

/-- The network after changes, one after the other, with the ids that were given out. -/
def history (network : Network) : List Change → List RuleId × Network
  | [] => ([], network)
  | change :: rest =>
    let (issued, network) := network.alter change
    let (later, network) := network.history rest
    (issued ++ later, network)

/-- The tables of a network agree with its nodes, and these with the rules. -/
structure Represented (network : Network) : Prop where
  /-- The key table maps the keys of the live nodes, terminal nodes apart, to their ids. -/
  keys : ∀ {key id}, network.keys.lookup key = some id ↔
    ∃ node, network.node? id = some node ∧ node.kind.key? = some key
  /-- No key is listed twice. -/
  keys_nodup : (network.keys.map Prod.fst).Nodup
  /-- Two live nodes have different keys. -/
  key_unique : ∀ {id other node same}, network.node? id = some node →
    network.node? other = some same → node.kind.isTerminal = false →
    node.kind.key? = same.kind.key? → id = other
  /-- A key refers to live nodes. -/
  key_live : ∀ {key id}, network.keys.lookup key = some id → ∀ input ∈ key.inputs,
    (network.node? input).isSome = true
  /-- A node counts its uses in the paths of the rules, and has one. -/
  refs : ∀ {id node}, network.node? id = some node → node.kind.isTerminal = false →
    node.refs = uses network.paths id ∧ 1 ≤ node.refs
  /-- A terminal node counts nothing; it has one use. -/
  terminal : ∀ {id node}, network.node? id = some node → node.kind.isTerminal = true →
    node.refs = 0 ∧ uses network.paths id = 1
  /-- The nodes that a live node refers to are live. -/
  live : ∀ {id node}, network.node? id = some node →
    ∀ other ∈ node.kind.inputs ++ node.children ++ node.rightChildren,
      (network.node? other).isSome = true
  /-- The outputs of a node are the nodes that have it as input. -/
  outputs : ∀ {id node}, network.node? id = some node → ∀ {other},
    (other ∈ node.children ↔
      ∃ below, network.node? other = some below ∧ below.kind.above? = some id) ∧
    (other ∈ node.rightChildren ↔
      ∃ join, network.node? other = some join ∧ join.kind.right? = some id)
  rootChildren_live : ∀ id ∈ network.rootChildren, (network.node? id).isSome = true
  /-- The entry of a type is the node of the type. -/
  objectType : ∀ {typeName id}, network.objectType? typeName = some id ↔
    ∃ node, network.node? id = some node ∧ node.kind = .objectType typeName
  path_live : ∀ {id entry}, network.rules.find? id = some entry →
    entry.terminal ∈ entry.path ∧ ∀ node ∈ entry.path, (network.node? node).isSome = true
  /-- A node with a left input is one of its outputs once, or one of the root. -/
  left : ∀ {id node left}, network.node? id = some node → node.kind.left? = some left →
    match left with
    | none => network.rootChildren.count id = 1
    | some above => ∃ input, network.node? above = some input ∧ input.children.count id = 1
  /-- A join is one of the joins behind its right input once. -/
  right : ∀ {id node right}, network.node? id = some node → node.kind.right? = some right →
    ∃ input, network.node? right = some input ∧ input.rightChildren.count id = 1
  /-- An alpha node is one of the outputs of the node above it once. -/
  alpha : ∀ {id node parent test functions}, network.node? id = some node →
    node.kind = .alpha parent test functions →
    ∃ above, network.node? parent = some above ∧ above.children.count id = 1
  /-- The ids that can be given out again are those that are not in use, each once. -/
  free : ∀ id, network.free.count id =
    if id < network.slots ∧ network.node? id = none then 1 else 0
  slots : ∀ {id node}, network.node? id = some node → id < network.slots
  /-- A rule is found by its name. -/
  names : ∀ {package name id}, network.ruleId? package name = some id ↔
    ∃ rule, network.rule? id = some rule ∧ rule.package = package ∧ rule.name = name

private theorem isSome_node? {id : NodeId} :
    (network.node? id).isSome = true ↔ ∃ kind, network.kind? id = some kind := by
  rw [Option.isSome_iff_exists]
  exact ⟨fun ⟨node, found⟩ => ⟨node.kind, kind?_eq_some.mpr ⟨node, found, rfl⟩⟩,
    fun ⟨kind, found⟩ => (kind?_eq_some.mp found).imp fun _ => And.left⟩

private theorem exists_kind? {id : NodeId} {holds : NodeKind → Prop} :
    (∃ kind, network.kind? id = some kind ∧ holds kind) ↔
      ∃ node, network.node? id = some node ∧ holds node.kind := by
  constructor
  · rintro ⟨kind, live, own⟩
    obtain ⟨node, found, rfl⟩ := kind?_eq_some.mp live
    exact ⟨node, found, own⟩
  · rintro ⟨node, found, own⟩
    exact ⟨node.kind, kind?_eq_some.mpr ⟨node, found, rfl⟩, own⟩

/-- A node that is found has a kind. -/
theorem kind?_of_node? {id : NodeId} {node : Node} (found : network.node? id = some node) :
    network.kind? id = some node.kind :=
  kind?_eq_some.mpr ⟨node, found, rfl⟩

/-- A look-up in the key table finds exactly the listed ids. -/
theorem WellFormed.lookup_keys (wellFormed : network.WellFormed) {key : NodeKey} {id : NodeId} :
    network.keys.lookup key = some id ↔ (key, id) ∈ network.keys :=
  lookup_eq_some_iff_mem wellFormed.keys_nodup

private theorem WellFormed.keys_iff (wellFormed : network.WellFormed) {key : NodeKey}
    {id : NodeId} :
    network.keys.lookup key = some id ↔
      ∃ node, network.node? id = some node ∧ node.kind.key? = some key := by
  rw [wellFormed.lookup_keys, wellFormed.mem_keys]
  exact exists_kind?

/-- The inputs of a live node are live. -/
theorem WellFormed.input_live (wellFormed : network.WellFormed) {id : NodeId} {kind : NodeKind}
    (live : network.kind? id = some kind) {input : NodeId} (isInput : input ∈ kind.inputs) :
    ∃ node, network.node? input = some node := by
  obtain ⟨found, present⟩ := (wellFormed.fits live).input_live isInput
  exact (kind?_eq_some.mp present).imp fun _ => And.left

/-- A node is one of the outputs of the node above it once. -/
theorem WellFormed.count_children (wellFormed : network.WellFormed) {id above : NodeId}
    {kind : NodeKind} (live : network.kind? id = some kind) (isAbove : kind.above? = some above) :
    ∃ input, network.node? above = some input ∧ input.children.count id = 1 := by
  obtain ⟨input, found⟩ :=
    wellFormed.input_live live (NodeKind.mem_inputs.mpr (.inl isAbove))
  have member : id ∈ input.children := (wellFormed.mem_children found).mpr ⟨kind, live, isAbove⟩
  exact ⟨input, found, List.count_eq_one_of_mem (wellFormed.children_nodup found) member⟩

/-- The tables of a sound network agree. -/
theorem Sound.represented (sound : network.Sound) : network.Represented where
  keys := sound.wellFormed.keys_iff
  keys_nodup := sound.wellFormed.keys_nodup
  key_unique {id other node same} found present notTerminal equal := by
    obtain ⟨key, isKey⟩ : ∃ key, node.kind.key? = some key := by
      refine Option.ne_none_iff_exists'.mp fun none => ?_
      exact Bool.false_ne_true (notTerminal.symm.trans (NodeKind.key?_eq_none_iff.mp none))
    have own := sound.wellFormed.keys_iff.mpr ⟨node, found, isKey⟩
    have others := sound.wellFormed.keys_iff.mpr ⟨same, present, equal.symm.trans isKey⟩
    exact Option.some.inj (own.symm.trans others)
  key_live {key id} found input isInput := by
    obtain ⟨node, present, isKey⟩ := sound.wellFormed.keys_iff.mp found
    rw [NodeKind.inputs_eq_of_key? isKey] at isInput
    obtain ⟨above, live⟩ := sound.wellFormed.input_live (kind?_of_node? present) isInput
    exact Option.isSome_iff_exists.mpr ⟨above, live⟩
  refs {id node} found notTerminal := by
    have counts := sound.accounted.refs found
    rw [notTerminal, if_neg Bool.false_ne_true] at counts
    exact ⟨counts, counts ▸ sound.accounted.used (kind?_of_node? found)⟩
  terminal {id node} found isTerminal := by
    have counts := sound.accounted.refs found
    rw [isTerminal, if_pos rfl] at counts
    exact ⟨counts, sound.accounted.terminal (kind?_of_node? found) isTerminal⟩
  live {id node} found other member := by
    rw [isSome_node?]
    rcases List.mem_append.mp member with member | isRight
    · rcases List.mem_append.mp member with isInput | isChild
      · exact (sound.wellFormed.fits (kind?_of_node? found)).input_live isInput
      · exact ((sound.wellFormed.mem_children found).mp isChild).imp fun _ => And.left
    · exact ((sound.wellFormed.mem_rightChildren found).mp isRight).imp fun _ => And.left
  outputs {id node} found other :=
    ⟨(sound.wellFormed.mem_children found).trans exists_kind?,
      (sound.wellFormed.mem_rightChildren found).trans exists_kind?⟩
  rootChildren_live id member :=
    isSome_node?.mpr ((sound.wellFormed.mem_rootChildren.mp member).imp fun _ => And.left)
  objectType {typeName id} := sound.wellFormed.objectType.trans kind?_eq_some
  path_live {id entry} found := by
    obtain ⟨⟨left, live, member, -⟩, -⟩ := sound.represents found
    exact ⟨member, fun node present =>
      isSome_node?.mpr (sound.accounted.live (mem_paths.mpr ⟨id, entry, found, rfl⟩) present)⟩
  left {id node left} found isLeft := by
    have live := kind?_of_node? found
    cases left with
    | none =>
        exact List.count_eq_one_of_mem sound.wellFormed.rootChildren_nodup
          (sound.wellFormed.mem_rootChildren.mpr ⟨node.kind, live, isLeft⟩)
    | some above =>
        exact sound.wellFormed.count_children live (NodeKind.above?_of_left? isLeft)
  right {id node right} found isRight := by
    have live := kind?_of_node? found
    obtain ⟨input, present⟩ :=
      sound.wellFormed.input_live live (NodeKind.mem_inputs.mpr (.inr isRight))
    have member : id ∈ input.rightChildren :=
      (sound.wellFormed.mem_rightChildren present).mpr ⟨node.kind, live, isRight⟩
    exact ⟨input, present,
      List.count_eq_one_of_mem (sound.wellFormed.rightChildren_nodup present) member⟩
  alpha {id node parent test functions} found isAlpha := by
    refine sound.wellFormed.count_children (kind?_of_node? found) ?_
    rw [isAlpha]
    rfl
  free id := by
    have member : id ∈ network.free ↔ id < network.slots ∧ network.node? id = none :=
      sound.wellFormed.mem_free.trans (and_congr_right fun _ => kind?_eq_none)
    by_cases vacant : id < network.slots ∧ network.node? id = none
    · rw [if_pos vacant]
      exact List.count_eq_one_of_mem sound.wellFormed.free_nodup (member.mpr vacant)
    · rw [if_neg vacant]
      exact List.count_eq_zero.mpr (mt member.mp vacant)
  slots {id node} found := sound.wellFormed.id_lt (kind?_of_node? found)
  names {package name id} := by
    unfold ruleId? rule?
    rw [sound.names]
    constructor
    · rintro ⟨entry, found, same⟩
      obtain ⟨rfl, rfl⟩ := Prod.mk.inj same
      exact ⟨entry.rule, by rw [found, Option.map_some], rfl, rfl⟩
    · rintro ⟨rule, found, rfl, rfl⟩
      obtain ⟨entry, isEntry, rfl⟩ := Option.map_eq_some_iff.mp found
      exact ⟨entry, isEntry, rfl⟩

/-! ## Histories -/

/-- A change keeps the network sound, and gives out ids from the next one on. -/
structure Altered (network : Network) (issued : List RuleId) (after : Network) : Prop where
  sound : after.Sound
  next : network.nextRule ≤ after.nextRule
  range : ∀ id ∈ issued, network.nextRule ≤ id ∧ id < after.nextRule
  distinct : issued.Nodup

private theorem Altered.refl (sound : network.Sound) : Altered network [] network where
  sound := sound
  next := Nat.le_refl _
  range := fun _ none => absurd none List.not_mem_nil
  distinct := .nil

/-- Ids that were given out later are others. -/
theorem Altered.trans {mid : Network} {issued later : List RuleId}
    (first : Altered network issued mid) (second : Altered mid later after) :
    Altered network (issued ++ later) after where
  sound := second.sound
  next := Nat.le_trans first.next second.next
  range id member := by
    rcases List.mem_append.mp member with early | late
    · have own := first.range id early
      exact ⟨own.1, Nat.lt_of_lt_of_le own.2 second.next⟩
    · have own := second.range id late
      exact ⟨Nat.le_trans first.next own.1, own.2⟩
  distinct := by
    refine List.nodup_append'.mpr ⟨first.distinct, second.distinct, fun id early late => ?_⟩
    exact absurd (second.range id late).1 (Nat.not_le.mpr (first.range id early).2)

private theorem Sound.alter (sound : network.Sound) (change : Change) :
    Altered network (network.alter change).1 (network.alter change).2 := by
  cases change with
  | add rule =>
      cases added : network.addRule rule with
      | error =>
          simp only [Network.alter, added]
          exact .refl sound
      | ok result =>
          simp only [Network.alter, added]
          obtain ⟨entry, done⟩ := sound.addRule added
          refine ⟨done.sound, ?_, fun id member => ?_, List.nodup_singleton _⟩
          · rw [done.nextRule, done.isNext]
            exact Nat.le_succ _
          · rw [List.mem_singleton.mp member, done.nextRule]
            exact ⟨Nat.le_of_eq done.isNext.symm, Nat.lt_succ_self _⟩
  | remove id =>
      cases removed : network.removeRule id with
      | none =>
          simp only [Network.alter, removed]
          exact .refl sound
      | some result =>
          simp only [Network.alter, removed]
          obtain ⟨entry, done⟩ := sound.removeRule removed
          refine ⟨done.sound, Nat.le_of_eq done.nextRule.symm, fun id none => ?_, .nil⟩
          exact absurd none List.not_mem_nil

/-- Changes one after the other keep the network sound. -/
theorem Sound.history (sound : network.Sound) (changes : List Change) :
    Altered network (network.history changes).1 (network.history changes).2 := by
  induction changes generalizing network with
  | nil => exact .refl sound
  | cons change rest ih =>
      have first := sound.alter change
      exact first.trans (ih first.sound)

/-- Whatever rules were added to an empty network and removed from it, its tables agree with its
nodes and rules, and no rule id was given out twice. -/
theorem represented_history (changes : List Change) :
    (({} : Network).history changes).2.Represented ∧
      (({} : Network).history changes).1.Nodup := by
  have altered := sound_empty.history changes
  exact ⟨altered.sound.represented, altered.distinct⟩

end Network

end Rete
