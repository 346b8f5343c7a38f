import Mathlib.Data.List.Dedup
import Mathlib.Data.List.Induction
import Rete.Proofs.Network.Shapes

/-!
# The size of a network

The path of a rule has the shapes that the rule says (`Drawn`), however the network came about
(`Composed.drawn`). So the nodes of a network are one for each shape of its rules, and one
terminal node for each rule (`Sound.labels_perm`). How many nodes there are, and how many of each
kind, depends on nothing but the rules (`Sound.size_eq_of_perm`).
-/

namespace Rete

/-- The names of the kinds of the nodes that rules need, each as often as it is needed. -/
def Rule.labels (rules : List Rule) : List String :=
  (rules.flatMap Rule.shapes).dedup.map Shape.label ++ rules.map fun _ => "terminal"

private theorem Rule.labels_perm {rules others : List Rule} (same : rules.Perm others) :
    (Rule.labels rules).Perm (Rule.labels others) :=
  ((same.flatMap fun _ _ => .refl _).dedup.map _).append (same.map _)

/-- In lists that are related item by item, every item has its counterpart. -/
theorem exists_of_forall₂ {α β : Type} {related : α → β → Prop} {first : List α} {second : List β}
    (each : List.Forall₂ related first second) :
    (∀ a ∈ first, ∃ b ∈ second, related a b) ∧ ∀ b ∈ second, ∃ a ∈ first, related a b := by
  induction each with
  | nil => exact ⟨fun _ none => absurd none List.not_mem_nil,
      fun _ none => absurd none List.not_mem_nil⟩
  | cons head _ ih =>
      obtain ⟨left, right⟩ := ih
      constructor
      · refine List.forall_mem_cons.mpr ⟨⟨_, List.mem_cons_self, head⟩, fun a member => ?_⟩
        exact (left a member).imp fun _ found => ⟨List.mem_cons_of_mem _ found.1, found.2⟩
      · refine List.forall_mem_cons.mpr ⟨⟨_, List.mem_cons_self, head⟩, fun b member => ?_⟩
        exact (right b member).imp fun _ found => ⟨List.mem_cons_of_mem _ found.1, found.2⟩

namespace Network

variable {network after : Network}

/-! ## Paths of rules -/

/-- The rules, in the order of their ids. -/
def members (network : Network) : List Rule := network.rules.values.map RuleEntry.rule

/-- The path of each rule has the shapes that the rule says, and ends in its terminal node. -/
def Drawn (network : Network) : Prop :=
  ∀ id entry, network.rules.find? id = some entry → ∃ nodes,
    entry.path = nodes ++ [entry.terminal] ∧
    List.Forall₂ (fun node shape => Resolves network (some node) shape) nodes entry.rule.shapes

private theorem drawn_empty : ({} : Network).Drawn := fun _ _ found => by cases found

private theorem Sound.drawn_addRule (sound : network.Sound) (drawn : network.Drawn) {rule : Rule}
    {id : RuleId} (added : network.addRule rule = .ok (id, after)) : after.Drawn := by
  obtain ⟨_, done⟩ := sound.addRule added
  have kept {node : NodeId} {kind : NodeKind} (live : network.kind? node = some kind) :
      after.kind? node = some kind := done.kept live
  have unnamed : ¬(network.ruleId? rule.package rule.name).isSome := by
    rw [done.fresh]
    exact Bool.false_ne_true
  obtain ⟨left, longer, mid, obtained, tracks, fits⟩ :=
    sound.wellFormed.tracks_useConditions rule.functions rule.conditions [] .root rfl
  obtain ⟨_, rfl, each⟩ := tracks.nodes
  set terminal : Terminal := ⟨network.nextRule, rule.salience, rule.noLoop⟩
  have created : Created mid (.terminal left terminal) _ _ := tracks.wellFormed.create fits
  unfold Network.addRule at added
  simp only [if_neg unnamed, obtained, Except.ok.injEq, Prod.mk.injEq] at added
  obtain ⟨rfl, rfl⟩ := added
  intro other entry found
  rw [SortedMap.find?_insert_eq] at found
  by_cases same : other = network.nextRule
  · rw [if_pos same] at found
    obtain rfl := Option.some.inj found
    refine ⟨longer, rfl, each.imp fun _ _ resolves => ?_⟩
    exact resolves.mono fun live => created.kind?_of_live live
  · rw [if_neg same, created.rules, tracks.grown.rules] at found
    obtain ⟨nodes, isPath, each⟩ := drawn other entry found
    exact ⟨nodes, isPath, each.imp fun _ _ resolves => resolves.mono kept⟩

private theorem Sound.drawn_removeRule (sound : network.Sound) (drawn : network.Drawn) {rule : Rule}
    {id : RuleId} (removed : network.removeRule id = some (rule, after)) : after.Drawn := by
  obtain ⟨_, done⟩ := sound.removeRule removed
  intro other entry found
  have stays : network.rules.find? other = some entry := by
    rw [done.rules, SortedMap.find?_erase_eq] at found
    split at found
    · cases found
    · exact found
  obtain ⟨nodes, isPath, each⟩ := drawn other entry stays
  have present : entry.path ∈ network.paths := mem_paths.mpr ⟨other, entry, stays, rfl⟩
  have remains : entry.path ∈ after.paths := mem_paths.mpr ⟨other, entry, found, rfl⟩
  refine ⟨nodes, isPath, List.forall₂_iff_get.mpr ⟨each.length_eq, fun place here there => ?_⟩⟩
  refine (each.get here there).congr (· ∈ entry.path) ?_ ?_ ?_
  · intro node kind within live input isInput
    exact sound.accounted.input_mem present within live isInput
  · -- Nodes of the paths that remain are live, and what is live was so before.
    intro node kind within live
    obtain ⟨same, lives⟩ := done.sound.accounted.live remains within
    cases live.symm.trans (done.old lives)
    exact lives
  · intro node isNode
    cases isNode
    rw [isPath]
    exact List.mem_append_left _ (List.get_mem ..)

/-- Whatever rules were added and removed, the paths are those of the rules. -/
theorem Composed.drawn {origin : Rule → Prop} (composed : network.Composed origin) :
    network.Drawn := by
  induction composed with
  | empty => exact drawn_empty
  | add composed _ added ih => exact composed.sound.drawn_addRule ih added
  | remove composed removed ih => exact composed.sound.drawn_removeRule ih removed

/-! ## Counting nodes -/

/-- The names of the kinds of the live nodes. -/
def labels (network : Network) : List String := network.nodes.values.map fun node => node.kind.label

private theorem mem_entries {id : NodeId} {node : Node} :
    (id, node) ∈ network.nodes.entries ↔ network.node? id = some node :=
  network.nodes.mem_entries id node

/-- Every node that is not a terminal one has a shape of some rule. -/
theorem Sound.exists_shape (sound : network.Sound) (drawn : network.Drawn) {id : NodeId}
    {kind : NodeKind} (live : network.kind? id = some kind) (shared : kind.isTerminal = false) :
    ∃ shape ∈ network.members.flatMap Rule.shapes, Resolves network (some id) shape := by
  obtain ⟨path, present, member⟩ :=
    List.mem_flatten.mp (List.count_pos_iff.mp (sound.accounted.used live))
  obtain ⟨rule, entry, found, rfl⟩ := mem_paths.mp present
  obtain ⟨nodes, isPath, each⟩ := drawn rule entry found
  rw [isPath] at member
  rcases List.mem_append.mp member with inside | last
  · obtain ⟨shape, isShape, resolves⟩ := (exists_of_forall₂ each).1 id inside
    refine ⟨shape, List.mem_flatMap.mpr ⟨entry.rule, ?_, isShape⟩, resolves⟩
    exact List.mem_map_of_mem (SortedMap.mem_values.mpr ⟨rule, found⟩)
  · obtain ⟨⟨left, isTerminal, -⟩, -⟩ := sound.represents found
    rw [← List.mem_singleton.mp last, live] at isTerminal
    cases isTerminal
    cases shared

/-- There is a node of each shape of a rule. -/
theorem Drawn.exists_node (drawn : network.Drawn) {shape : Shape}
    (member : shape ∈ network.members.flatMap Rule.shapes) :
    ∃ id, Resolves network (some id) shape := by
  obtain ⟨rule, isRule, isShape⟩ := List.mem_flatMap.mp member
  obtain ⟨entry, isEntry, rfl⟩ := List.mem_map.mp isRule
  obtain ⟨id, found⟩ := SortedMap.mem_values.mp isEntry
  obtain ⟨nodes, -, each⟩ := drawn id entry found
  obtain ⟨node, -, resolves⟩ := (exists_of_forall₂ each).2 shape isShape
  exact ⟨node, resolves⟩

/-- A node with a shape is live, and no terminal one. -/
theorem Resolves.exists_node {id : NodeId} {shape : Shape}
    (resolves : Resolves network (some id) shape) :
    ∃ node, network.node? id = some node ∧ node.kind.isTerminal = false := by
  have shared {key : NodeKey} (keyed : network.Keyed id key) :
      ∃ node, network.node? id = some node ∧ node.kind.isTerminal = false := by
    obtain ⟨kind, live, isKey⟩ := keyed
    obtain ⟨node, found, rfl⟩ := kind?_eq_some.mp live
    refine ⟨node, found, Bool.eq_false_iff.mpr fun terminal => ?_⟩
    cases isKey.symm.trans (NodeKind.key?_eq_none_iff.mpr terminal)
  cases resolves with
  | objectType keyed | alpha keyed | join keyed | eval keyed => exact shared keyed

/-- The terminal nodes. -/
def terminals (network : Network) : List (NodeId × Node) :=
  network.nodes.entries.filter fun entry => entry.2.kind.isTerminal

/-- The nodes that rules can share, which are all others. -/
def shared (network : Network) : List (NodeId × Node) :=
  network.nodes.entries.filter fun entry => !entry.2.kind.isTerminal

private theorem mem_shared {id : NodeId} {node : Node} : (id, node) ∈ network.shared ↔
    network.node? id = some node ∧ node.kind.isTerminal = false := by
  rw [shared, List.mem_filter, mem_entries, Bool.not_eq_true']

private theorem mem_terminals {id : NodeId} {node : Node} : (id, node) ∈ network.terminals ↔
    network.node? id = some node ∧ node.kind.isTerminal = true := by
  rw [terminals, List.mem_filter, mem_entries]

/-- The terminal nodes are those of the rules, one for each. -/
theorem Sound.terminals_perm (sound : network.Sound) : (network.terminals.map Prod.fst).Perm
    (network.rules.values.map RuleEntry.terminal) := by
  have distinct : (network.rules.values.map RuleEntry.terminal).Nodup := by
    rw [SortedMap.values, List.map_map]
    refine network.rules.ascending.nodup.map_on fun first isFirst second isSecond same => ?_
    have one := (SortedMap.mem_entries ..).mp isFirst
    have two := (SortedMap.mem_entries ..).mp isSecond
    obtain ⟨⟨left, live, -⟩, -⟩ := sound.represents one
    obtain ⟨⟨other, present, -⟩, -⟩ := sound.represents two
    have equal : first.2.terminal = second.2.terminal := same
    rw [equal, present, Option.some.injEq, NodeKind.terminal.injEq, Terminal.mk.injEq] at live
    exact List.inj_on_of_nodup_map network.rules.nodup_keys isFirst isSecond live.2.1.symm
  refine (List.perm_ext_iff_of_nodup ?_ distinct).mpr fun id => ?_
  · exact network.nodes.ascending.nodup_keys.sublist (List.filter_sublist.map _)
  · simp only [List.mem_map, SortedMap.mem_values]
    constructor
    · rintro ⟨⟨id, node⟩, member, rfl⟩
      obtain ⟨present, isTerminal⟩ := mem_terminals.mp member
      have live := kind?_of_node? present
      cases isKind : node.kind with
      | terminal left terminal =>
          rw [isKind] at live
          obtain ⟨entry, found, same⟩ := sound.terminal live
          exact ⟨entry, ⟨terminal.rule, found⟩, same⟩
      | objectType | alpha | join | eval =>
          rw [isKind] at isTerminal
          cases isTerminal
    · rintro ⟨entry, ⟨rule, found⟩, rfl⟩
      obtain ⟨⟨left, live, -⟩, -⟩ := sound.represents found
      obtain ⟨node, present, isKind⟩ := kind?_eq_some.mp live
      exact ⟨⟨entry.terminal, node⟩, mem_terminals.mpr ⟨present, isKind ▸ rfl⟩, rfl⟩

/-- There is one label for each rule among the terminal nodes. -/
theorem Sound.labels_terminals (sound : network.Sound) :
    (network.terminals.map fun entry => entry.2.kind.label) =
      network.members.map fun _ => "terminal" := by
  have count := sound.terminals_perm.length_eq
  rw [List.length_map, List.length_map] at count
  rw [List.map_const', members, List.length_map, ← count, List.eq_replicate_iff, List.length_map]
  refine ⟨rfl, List.forall_mem_map.mpr fun entry member => ?_⟩
  have isTerminal := (mem_terminals.mp member).2
  cases isKind : entry.2.kind with
  | terminal => rfl
  | objectType | alpha | join | eval =>
      rw [isKind] at isTerminal
      cases isTerminal

/-- The shapes of the other nodes are those of the rules, each once. -/
theorem Sound.shapes_perm (sound : network.Sound) (drawn : network.Drawn)
    {shapeOf : NodeId × Node → Shape}
    (isShape : ∀ entry ∈ network.shared, shapeOf entry ∈ network.members.flatMap Rule.shapes ∧
      Resolves network (some entry.1) (shapeOf entry)) :
    (network.shared.map shapeOf).Perm (network.members.flatMap Rule.shapes).dedup := by
  refine (List.perm_ext_iff_of_nodup ?_ (List.nodup_dedup _)).mpr fun shape => ?_
  · refine (network.nodes.ascending.nodup.filter _).map_on fun first isFirst second isSecond
      same => ?_
    have one := (isShape first isFirst).2
    rw [same] at one
    have key := one.id_unique sound.wellFormed (isShape second isSecond).2
    exact List.inj_on_of_nodup_map network.nodes.nodup_keys (List.mem_filter.mp isFirst).1
      (List.mem_filter.mp isSecond).1 (Option.some.inj key)
  · rw [List.mem_dedup, List.mem_map]
    constructor
    · rintro ⟨entry, member, rfl⟩
      exact (isShape entry member).1
    · intro member
      obtain ⟨id, resolves⟩ := drawn.exists_node member
      obtain ⟨node, found⟩ := resolves.exists_node
      have isMember : (id, node) ∈ network.shared := mem_shared.mpr found
      exact ⟨(id, node), isMember, (isShape _ isMember).2.unique resolves⟩

/-- The nodes are one for each shape of the rules, and a terminal one for each rule. -/
theorem Sound.labels_perm (sound : network.Sound) (drawn : network.Drawn) :
    network.labels.Perm (Rule.labels network.members) := by
  have live {entry : NodeId × Node} (member : entry ∈ network.shared) :
      network.kind? entry.1 = some entry.2.kind :=
    kind?_of_node? (mem_shared.mp member).1
  have shaped (entry : NodeId × Node) : ∃ shape, entry ∈ network.shared →
      shape ∈ network.members.flatMap Rule.shapes ∧ Resolves network (some entry.1) shape := by
    by_cases member : entry ∈ network.shared
    · obtain ⟨shape, found⟩ := sound.exists_shape drawn (live member) (mem_shared.mp member).2
      exact ⟨shape, fun _ => found⟩
    · exact ⟨.root, fun here => absurd here member⟩
  choose shapeOf isShape using shaped
  have names : (network.shared.map fun entry => entry.2.kind.label) =
      (network.shared.map shapeOf).map Shape.label := by
    rw [List.map_map]
    exact List.map_congr_left fun entry member => (isShape entry member).2.label_eq (live member)
  have apart : network.nodes.entries.Perm (network.shared ++ network.terminals) :=
    (List.filter_append_perm (fun entry : NodeId × Node => entry.2.kind.isTerminal)
      network.nodes.entries).symm.trans List.perm_append_comm
  have labels := apart.map fun entry => entry.2.kind.label
  rw [List.map_append, names, sound.labels_terminals] at labels
  have shapes := (sound.shapes_perm drawn isShape).map Shape.label
  have same : network.labels = network.nodes.entries.map fun entry => entry.2.kind.label := by
    rw [Network.labels, SortedMap.values, List.map_map]
    rfl
  rw [same]
  exact labels.trans (shapes.append_right _)

/-- The ids below the bound that are not free are those of the live nodes. -/
theorem WellFormed.nodeCount_eq (wellFormed : network.WellFormed) :
    network.nodeCount = network.nodes.size := by
  have ids : (network.free ++ network.nodes.keys).Perm (List.range network.slots) := by
    refine (List.perm_ext_iff_of_nodup ?_ List.nodup_range).mpr fun id => ?_
    · refine List.nodup_append'.mpr
        ⟨wellFormed.free_nodup, network.nodes.nodup_keys, fun id isFree isLive => ?_⟩
      obtain ⟨node, found⟩ := SortedMap.contains_eq_true.mp (SortedMap.mem_keys.mp isLive)
      cases (wellFormed.mem_free.mp isFree).2.symm.trans (kind?_of_node? found)
    · rw [List.mem_append, List.mem_range, wellFormed.mem_free, SortedMap.mem_keys,
        SortedMap.contains_eq_true]
      constructor
      · rintro (⟨below, -⟩ | ⟨node, found⟩)
        · exact below
        · exact wellFormed.id_lt (kind?_of_node? found)
      · intro below
        cases found : network.nodes.find? id with
        | none => exact .inl ⟨below, kind?_eq_none.mpr found⟩
        | some node => exact .inr ⟨node, rfl⟩
  have count := ids.length_eq
  rw [List.length_append, List.length_range] at count
  have same : network.nodes.keys.length = network.nodes.size := List.length_map _
  rw [nodeCount]
  omega

private theorem length_labels (network : Network) : network.labels.length = network.nodes.size := by
  rw [labels, SortedMap.values, List.length_map, List.length_map]
  rfl

/-- The summary tells how often each name occurs. -/
theorem find?_summary (network : Network) (label : String) : network.summary.find? label =
    if network.labels.count label = 0 then none else some (network.labels.count label) := by
  unfold summary labels
  induction network.nodes.values using List.reverseRecOn generalizing label with
  | nil => rfl
  | append_singleton nodes node ih =>
      set counts := nodes.foldl _ (∅ : SortedMap String Nat)
      rw [List.foldl_concat, SortedMap.find?_insert_eq, ih, ih, List.map_append, List.count_append,
        List.map_singleton, List.count_singleton]
      by_cases same : label = node.kind.label
      · subst same
        simp only [↓reduceIte, beq_self_eq_true]
        split <;> simp_all
      · simp only [same, ↓reduceIte, beq_iff_eq, Ne.symm same, Nat.add_zero]

/-- Networks whose rules are the same are of the same size. -/
theorem Sound.size_eq_of_perm {other : Network} (sound : network.Sound) (drawn : network.Drawn)
    (otherSound : other.Sound) (otherDrawn : other.Drawn)
    (same : network.members.Perm other.members) :
    network.nodeCount = other.nodeCount ∧ network.summary = other.summary := by
  have labels := (sound.labels_perm drawn).trans
    ((Rule.labels_perm same).trans (otherSound.labels_perm otherDrawn).symm)
  constructor
  · rw [sound.wellFormed.nodeCount_eq, otherSound.wellFormed.nodeCount_eq, ← length_labels,
      ← length_labels, labels.length_eq]
  · refine SortedMap.ext_find? fun label => ?_
    rw [find?_summary, find?_summary, labels.count_eq]

/-- A network without rules is bare. -/
theorem Sound.bare (sound : network.Sound) (none : ∀ id, network.rules.find? id = none) :
    network.nodes = ∅ ∧ network.nodeCount = 0 ∧ network.objectTypes = ∅ ∧
      network.rootChildren = [] := by
  have dead (id : NodeId) : network.kind? id = Option.none := by
    refine Option.eq_none_iff_forall_ne_some.mpr fun kind live => ?_
    obtain ⟨rule, entry, found, -⟩ := sound.explained live
    cases (none rule).symm.trans found
  have bare : network.nodes = ∅ := SortedMap.ext_find? fun id => kind?_eq_none.mp (dead id)
  refine ⟨bare, sound.wellFormed.nodeCount_eq.trans (congrArg SortedMap.size bare),
    SortedMap.ext_find? fun name => ?_, List.eq_nil_iff_forall_not_mem.mpr fun id member => ?_⟩
  · refine Option.eq_none_iff_forall_ne_some.mpr fun id found => ?_
    cases (dead id).symm.trans (sound.wellFormed.objectType.mp found)
  · obtain ⟨kind, live, -⟩ := sound.wellFormed.mem_rootChildren.mp member
    cases (dead id).symm.trans live

end Network

end Rete
