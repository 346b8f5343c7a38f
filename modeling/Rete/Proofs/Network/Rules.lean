import Rete.Proofs.Network.Pruning

/-!
# The rules of a network

Every rule of a network has its own terminal node, behind nodes that realize its conditions, and
every node is there for a rule (`Network.Sound`). The empty network is sound, and adding and
removing rules keeps it so (`Sound.addRule`, `Sound.removeRule`). So the networks that rules were
added to and removed from are sound (`Composed.sound`).
-/

namespace Rete.Network

variable {network after : Network}

/-- The paths of the rules. -/
def paths (network : Network) : List (List NodeId) := network.rules.values.map RuleEntry.path

/-- The nodes of a rule do what the rule says. -/
def Represents (network : Network) (id : RuleId) (entry : RuleEntry) : Prop :=
  (∃ left, network.kind? entry.terminal =
      some (.terminal left ⟨id, entry.rule.salience, entry.rule.noLoop⟩) ∧
    entry.terminal ∈ entry.path ∧
    Realizes network entry.rule.functions left entry.rule.conditions) ∧
  ∀ node ∈ entry.path, ∃ kind, network.kind? node = some kind ∧
    Explains entry.rule.functions entry.rule.conditions kind

/-- The nodes are those of the rules, and the names are those of the rules. -/
structure Sound (network : Network) : Prop where
  wellFormed : network.WellFormed
  accounted : Accounted network network.paths
  represents : ∀ {id entry}, network.rules.find? id = some entry → network.Represents id entry
  terminal : ∀ {node left terminal}, network.kind? node = some (.terminal left terminal) →
    ∃ entry, network.rules.find? terminal.rule = some entry ∧ entry.terminal = node
  rule_lt : ∀ {id entry}, network.rules.find? id = some entry → id < network.nextRule
  names : ∀ {name id}, network.names.lookup name = some id ↔
    ∃ entry, network.rules.find? id = some entry ∧ (entry.rule.package, entry.rule.name) = name

/-- The paths of a network are those of its rules. -/
theorem mem_paths {path : List NodeId} :
    path ∈ network.paths ↔ ∃ id entry, network.rules.find? id = some entry ∧ entry.path = path := by
  simp only [paths, List.mem_map, SortedMap.mem_values]
  constructor
  · rintro ⟨entry, ⟨id, found⟩, same⟩
    exact ⟨id, entry, found, same⟩
  · rintro ⟨id, entry, found, same⟩
    exact ⟨entry, ⟨id, found⟩, same⟩

/-- Whether links and ids agree with the nodes has nothing to do with the rules. -/
theorem WellFormed.of_rules (wellFormed : network.WellFormed) (rules : SortedMap RuleId RuleEntry)
    (names : List ((String × String) × RuleId)) (nextRule : RuleId) :
    { network with rules, names, nextRule }.WellFormed where
  id_lt := wellFormed.id_lt
  mem_free := wellFormed.mem_free
  free_nodup := wellFormed.free_nodup
  mem_keys := wellFormed.mem_keys
  keys_nodup := wellFormed.keys_nodup
  mem_children := wellFormed.mem_children
  children_nodup := wellFormed.children_nodup
  mem_rightChildren := wellFormed.mem_rightChildren
  rightChildren_nodup := wellFormed.rightChildren_nodup
  mem_rootChildren := wellFormed.mem_rootChildren
  rootChildren_nodup := wellFormed.rootChildren_nodup
  objectType := wellFormed.objectType
  fits live := (wellFormed.fits live).congr fun _ _ _ live => live

private theorem Accounted.of_rules {paths : List (List NodeId)}
    (accounted : Accounted network paths)
    (rules : SortedMap RuleId RuleEntry) (names : List ((String × String) × RuleId))
    (nextRule : RuleId) : Accounted { network with rules, names, nextRule } paths :=
  ⟨accounted.used, accounted.refs, accounted.terminal, accounted.ordered⟩

/-- What a left input realizes has nothing to do with the rules either. -/
theorem Realizes.of_rules {functions : FunctionTable} {left : Option NodeId}
    {conditions : List Condition} (realizes : Realizes network functions left conditions)
    (rules : SortedMap RuleId RuleEntry) (names : List ((String × String) × RuleId))
    (nextRule : RuleId) :
    Realizes { network with rules, names, nextRule } functions left conditions :=
  realizes.congr (fun _ => True) (fun _ _ _ _ => trivial) (fun _ live => live) fun _ _ => trivial

/-- An empty path uses no node. -/
theorem Accounted.cons_nil {paths : List (List NodeId)} :
    Accounted network ([] :: paths) ↔ Accounted network paths := by
  constructor
  · intro accounted
    exact ⟨accounted.used, accounted.refs, accounted.terminal, fun present =>
      accounted.ordered (List.mem_cons_of_mem _ present)⟩
  · intro accounted
    refine ⟨accounted.used, accounted.refs, accounted.terminal,
      fun {path} present {before id rest} split => ?_⟩
    rcases List.mem_cons.mp present with rfl | present
    · cases before <;> cases split
    · exact accounted.ordered present split

/-- The conditions of a rule stay realized while its nodes stay. -/
theorem Represents.congr {id : RuleId} {entry : RuleEntry}
    (represents : network.Represents id entry)
    {paths : List (List NodeId)} (accounted : Accounted network paths)
    (present : entry.path ∈ paths)
    (kept : ∀ {node kind}, node ∈ entry.path → network.kind? node = some kind →
      after.kind? node = some kind) : after.Represents id entry := by
  obtain ⟨⟨left, live, member, realizes⟩, explained⟩ := represents
  refine ⟨⟨left, kept member live, member, realizes.congr (· ∈ entry.path) ?_ kept ?_⟩,
    fun node within => (explained node within).imp fun _ found => ⟨kept within found.1, found.2⟩⟩
  · intro node kind within live input isInput
    exact accounted.input_mem present within live isInput
  · rintro node rfl
    exact accounted.input_mem present member live (NodeKind.mem_inputs.mpr (.inl rfl))

/-- A terminal node is that of its rule, and has the salience and the mark of the rule. -/
theorem Sound.terminal_eq (sound : network.Sound) {node : NodeId} {left : Option NodeId}
    {terminal : Terminal} (live : network.kind? node = some (.terminal left terminal)) :
    ∃ rule, network.rule? terminal.rule = some rule ∧
      terminal = ⟨terminal.rule, rule.salience, rule.noLoop⟩ := by
  obtain ⟨entry, isEntry, rfl⟩ := sound.terminal live
  obtain ⟨⟨_, own, -, -⟩, -⟩ := sound.represents isEntry
  have same := NodeKind.terminal.inj (Option.some.inj (live.symm.trans own))
  exact ⟨entry.rule, congrArg (Option.map RuleEntry.rule) isEntry, same.2⟩

/-! ## The names of the rules -/

/-- The names are those of the rules. -/
def Indexes (names : List ((String × String) × RuleId)) (rules : SortedMap RuleId RuleEntry) :
    Prop :=
  ∀ {name id}, names.lookup name = some id ↔
    ∃ entry, rules.find? id = some entry ∧ (entry.rule.package, entry.rule.name) = name

private theorem lookup_filter_bne {α β : Type} [BEq α] [LawfulBEq α] (entries : List (α × β))
    (dropped key : α) : (entries.filter fun entry => entry.1 != dropped).lookup key =
      if key == dropped then none else entries.lookup key := by
  induction entries with
  | nil => simp only [List.filter_nil, List.lookup_nil, ite_self]
  | cons entry rest ih =>
      obtain ⟨own, value⟩ := entry
      rw [List.filter_cons, List.lookup_cons]
      by_cases same : own = dropped
      · subst same
        simp only [bne_self_eq_false, Bool.false_eq_true, ↓reduceIte, ih]
        cases key == own <;> rfl
      · have different : (own != dropped) = true := bne_iff_ne.mpr same
        simp only [different, ↓reduceIte, List.lookup_cons, ih]
        cases wanted : key == own with
        | false => rfl
        | true =>
            rw [eq_of_beq wanted, beq_eq_false_iff_ne.mpr same]
            rfl

namespace Indexes

variable {names : List ((String × String) × RuleId)} {rules : SortedMap RuleId RuleEntry}
  {id : RuleId} {entry : RuleEntry}

/-- One more rule under a new name. -/
theorem insert (indexes : Indexes names rules) (unused : rules.find? id = none)
    (unnamed : names.lookup (entry.rule.package, entry.rule.name) = none) :
    Indexes (((entry.rule.package, entry.rule.name), id) :: names) (rules.insert id entry) := by
  intro name other
  rw [List.lookup_cons]
  by_cases same : name = (entry.rule.package, entry.rule.name)
  · subst same
    simp only [beq_self_eq_true, Option.some.injEq]
    constructor
    · rintro rfl
      exact ⟨entry, by rw [SortedMap.find?_insert_eq, if_pos rfl], rfl⟩
    · rintro ⟨present, isPresent, isNamed⟩
      by_contra different
      rw [SortedMap.find?_insert_eq, if_neg (Ne.symm different)] at isPresent
      cases unnamed.symm.trans (indexes.mpr ⟨present, isPresent, isNamed⟩)
  · rw [beq_eq_false_iff_ne.mpr same]
    simp only [@indexes name]
    refine exists_congr fun present => and_congr_left fun isNamed => ?_
    rw [SortedMap.find?_insert_eq]
    by_cases own : other = id
    · subst own
      rw [if_pos rfl, unused]
      refine iff_of_false (fun none => by cases none) fun here => ?_
      cases here
      exact same isNamed.symm
    · rw [if_neg own]

/-- One rule less, and its name with it. -/
theorem erase (indexes : Indexes names rules) (found : rules.find? id = some entry) :
    Indexes (names.filter fun name => name.1 != (entry.rule.package, entry.rule.name))
      (rules.erase id) := by
  intro name other
  have owner : ∀ {other present}, rules.find? other = some present →
      (present.rule.package, present.rule.name) = (entry.rule.package, entry.rule.name) →
      other = id := by
    intro other present isPresent isNamed
    have listed := indexes.mpr ⟨present, isPresent, isNamed⟩
    rw [indexes.mpr ⟨entry, found, rfl⟩] at listed
    exact (Option.some.inj listed).symm
  rw [lookup_filter_bne]
  by_cases isDropped : name = (entry.rule.package, entry.rule.name)
  · subst isDropped
    rw [if_pos (beq_self_eq_true _)]
    refine iff_of_false (fun none => by cases none) ?_
    rintro ⟨present, isPresent, isNamed⟩
    rw [SortedMap.find?_erase_eq] at isPresent
    split at isPresent
    · cases isPresent
    · exact absurd (owner isPresent isNamed) ‹_›
  · rw [if_neg (mt eq_of_beq isDropped), indexes]
    refine exists_congr fun present => and_congr_left fun isNamed => ?_
    rw [SortedMap.find?_erase_eq]
    by_cases own : other = id
    · subst own
      rw [if_pos rfl, found]
      refine iff_of_false (fun here => ?_) fun none => by cases none
      cases here
      exact isDropped isNamed.symm
    · rw [if_neg own]

end Indexes

/-! ## The empty network -/

/-- The empty network is sound. -/
theorem sound_empty : ({} : Network).Sound := by
  have noNode : ∀ id, ({} : Network).node? id = none := fun _ => rfl
  have noKind : ∀ id, ({} : Network).kind? id = none := fun _ => rfl
  have unlisted : ∀ {holds : NodeKind → Prop} {id : NodeId},
      ¬ ∃ kind, ({} : Network).kind? id = some kind ∧ holds kind := by
    rintro holds id ⟨kind, live, -⟩
    cases (noKind id).symm.trans live
  refine ⟨⟨fun live => ?_, fun {id} => ?_, .nil, ?_, .nil, fun live => ?_, fun live => ?_,
    fun live => ?_, fun live => ?_, ?_, .nil, ?_, fun live => ?_⟩, ⟨fun live => ?_, fun live => ?_,
    fun live => ?_, fun present => ?_⟩, fun found => ?_, fun live => ?_, fun found => ?_, ?_⟩
  case refine_2 =>
    exact iff_of_false List.not_mem_nil fun below => Nat.not_lt_zero id below.1
  case refine_3 | refine_8 =>
    intros
    exact iff_of_false List.not_mem_nil unlisted
  case refine_9 =>
    intros
    exact iff_of_false nofun nofun
  case refine_14 => exact absurd present List.not_mem_nil
  case refine_18 =>
    intro name id
    refine iff_of_false nofun ?_
    rintro ⟨entry, found, -⟩
    cases found
  all_goals cases ‹_ = some _›

/-- Every node is there for a condition of a rule. -/
theorem Sound.explained (sound : network.Sound) {node : NodeId} {kind : NodeKind}
    (live : network.kind? node = some kind) : ∃ id entry, network.rules.find? id = some entry ∧
      Explains entry.rule.functions entry.rule.conditions kind := by
  obtain ⟨path, present, member⟩ :=
    List.mem_flatten.mp (List.count_pos_iff.mp (sound.accounted.used live))
  obtain ⟨id, entry, found, rfl⟩ := mem_paths.mp present
  obtain ⟨other, same, explains⟩ := (sound.represents found).2 node member
  cases live.symm.trans same
  exact ⟨id, entry, found, explains⟩

/-! ## Adding a rule -/

/-- What adding a rule whose name is new does. -/
structure RuleAdded (network : Network) (rule : Rule) (id : RuleId) (entry : RuleEntry)
    (after : Network) : Prop where
  isRule : entry.rule = rule
  isNext : id = network.nextRule
  nextRule : after.nextRule = id + 1
  rules : after.rules = network.rules.insert id entry
  names : after.names = ((rule.package, rule.name), id) :: network.names
  fresh : network.ruleId? rule.package rule.name = none
  kept : ∀ {node kind}, network.kind? node = some kind → after.kind? node = some kind
  new : ∀ {node kind}, after.kind? node = some kind → network.kind? node = some kind ∨
    kind.isTerminal = true ∨ Serves after rule.functions rule.conditions kind
  sound : after.Sound

/-- The nodes of one more rule are there, and the rule is not entered yet. -/
structure Prepared (network : Network) (entry : RuleEntry) (last : Network) : Prop where
  rules : last.rules = network.rules
  names : last.names = network.names
  wellFormed : last.WellFormed
  accounted : Accounted last (entry.path :: network.paths)
  kept : ∀ {node kind}, network.kind? node = some kind → last.kind? node = some kind
  new : ∀ {node kind}, last.kind? node = some kind → network.kind? node = some kind ∨
    (node = entry.terminal ∧ kind.isTerminal = true) ∨
    Serves last entry.rule.functions entry.rule.conditions kind
  represents : last.Represents network.nextRule entry

/-- Creating a terminal node below the nodes of the conditions. -/
theorem Sound.prepare (sound : network.Sound) (rule : Rule) {left : Option NodeId}
    {longer : List NodeId} {mid : Network}
    (obtained : network.useConditions rule.functions [] none rule.conditions =
      (left, longer, mid)) :
    let created := mid.create (.terminal left ⟨network.nextRule, rule.salience, rule.noLoop⟩)
    Prepared network { rule, terminal := created.1, path := longer ++ [created.1] } created.2 := by
  obtain ⟨_, _, _, same, extended, realizes, within⟩ :=
    sound.wellFormed.useConditions rule.functions rule.conditions
      (Accounted.cons_nil.mpr sound.accounted) .root (fun _ isRoot => by cases isRoot)
  cases obtained.symm.trans same
  intro pair
  set terminal : Terminal := ⟨network.nextRule, rule.salience, rule.noLoop⟩
  have fits : mid.Fits (.terminal left terminal) := realizes.leftFits
  have created : Created mid (.terminal left terminal) pair.1 pair.2 :=
    extended.wellFormed.create fits
  refine ⟨created.rules.trans extended.grown.rules, created.names.trans extended.grown.names,
    created.wellFormed extended.wellFormed fits (fun _ isKey => by cases isKey), ?_,
    fun live => created.kind?_of_live (extended.grown.kept live), ?_, ?_⟩
  · refine extended.accounted.snoc created.kind?_self
      (fun _ => extended.accounted.uses_eq_zero created.fresh) ?_
      (fun other different => ?_) (fun live => created.kind?_of_live live) ?_
    · intro input isInput
      rcases NodeKind.mem_inputs.mp isInput with isLeft | isRight
      · exact within input isLeft
      · cases isRight
    · rw [created.kind?, if_neg different]
    · intro other found live
      rw [uses_snoc]
      rcases created.node_cases live with ⟨rfl, rfl⟩ | ⟨different, old, present, rfl⟩
      · rfl
      · rw [if_neg different]
        exact (extended.accounted.refs present :)
  · intro node kind live
    rcases created.live_cases live with ⟨rfl, rfl⟩ | ⟨-, old⟩
    · exact .inr (.inl ⟨rfl, rfl⟩)
    · refine (extended.grown.new old).imp_right fun serves => .inr ?_
      exact serves.mono (List.prefix_refl _) fun realizes => realizes.mono created.grown
  · refine ⟨⟨left, created.kind?_self, List.mem_append_right _ (List.mem_singleton_self _),
      realizes.mono created.grown⟩, fun other member => ?_⟩
    rcases List.mem_append.mp member with inside | same
    · obtain ⟨kind, live, explains⟩ :=
        (extended.explained other inside).resolve_left List.not_mem_nil
      exact ⟨kind, created.kind?_of_live live, explains⟩
    · rw [List.mem_singleton.mp same]
      exact ⟨_, created.kind?_self, trivial⟩

/-- The id of the next rule is not taken. -/
theorem Sound.nextRule_unused (sound : network.Sound) :
    network.rules.find? network.nextRule = none :=
  Option.eq_none_iff_forall_ne_some.mpr fun _ found =>
    absurd (sound.rule_lt found) (Nat.lt_irrefl _)

/-- Entering a rule whose nodes are there. -/
theorem Prepared.sound {entry : RuleEntry} {last : Network}
    (prepared : Prepared network entry last) (sound : network.Sound)
    (unnamed : network.ruleId? entry.rule.package entry.rule.name = none) :
    { last with
      rules := last.rules.insert network.nextRule entry
      names := ((entry.rule.package, entry.rule.name), network.nextRule) :: last.names
      nextRule := network.nextRule + 1 : Network }.Sound := by
  have unused := sound.nextRule_unused
  have own : (last.rules.insert network.nextRule entry).find? network.nextRule = some entry := by
    rw [SortedMap.find?_insert_eq, if_pos rfl]
  have older : ∀ {other present}, network.rules.find? other = some present →
      (last.rules.insert network.nextRule entry).find? other = some present := by
    intro other present isPresent
    rw [SortedMap.find?_insert_eq, if_neg (Nat.ne_of_lt (sound.rule_lt isPresent)), prepared.rules,
      isPresent]
  have found : ∀ {other present}, (last.rules.insert network.nextRule entry).find? other =
      some present → (other = network.nextRule ∧ present = entry) ∨
        network.rules.find? other = some present := by
    intro other present isPresent
    rw [SortedMap.find?_insert_eq, prepared.rules] at isPresent
    split at isPresent
    · exact .inl ⟨‹_›, (Option.some.inj isPresent).symm⟩
    · exact .inr isPresent
  refine ⟨prepared.wellFormed.of_rules .., Accounted.of_rules (prepared.accounted.perm ?_) .., ?_,
    ?_, ?_, ?_⟩
  · have entries := SortedMap.perm_entries_insert unused entry
    rw [← prepared.rules] at entries
    have same : last.paths = network.paths := by rw [paths, paths, prepared.rules]
    rw [← same]
    exact ((entries.map Prod.snd).map RuleEntry.path).symm
  · intro other present isPresent
    rcases found isPresent with ⟨rfl, rfl⟩ | old
    · obtain ⟨⟨left, live, member, realizes⟩, explained⟩ := prepared.represents
      exact ⟨⟨left, live, member, realizes.of_rules ..⟩, explained⟩
    · exact (sound.represents old).congr sound.accounted (mem_paths.mpr ⟨_, _, old, rfl⟩)
        fun _ live => prepared.kept live
  · intro node left terminal live
    rcases prepared.new live with old | ⟨rfl, -⟩ | serves
    · obtain ⟨present, isPresent, same⟩ := sound.terminal old
      exact ⟨present, older isPresent, same⟩
    · obtain ⟨⟨own', ownLive, -, -⟩, -⟩ := prepared.represents
      cases ownLive.symm.trans live
      exact ⟨entry, own, rfl⟩
    · cases serves
  · intro other present isPresent
    rcases found isPresent with ⟨rfl, -⟩ | old
    · exact Nat.lt_succ_self _
    · exact Nat.lt_succ_of_lt (sound.rule_lt old)
  · change Indexes (_ :: last.names) (last.rules.insert network.nextRule entry)
    rw [prepared.names, prepared.rules]
    exact Indexes.insert (fun {_ _} => sound.names) unused unnamed

private theorem Prepared.ruleAdded {entry : RuleEntry} {last : Network}
    (prepared : Prepared network entry last) (sound : network.Sound)
    (unnamed : network.ruleId? entry.rule.package entry.rule.name = none) :
    RuleAdded network entry.rule network.nextRule entry { last with
      rules := last.rules.insert network.nextRule entry
      names := ((entry.rule.package, entry.rule.name), network.nextRule) :: last.names
      nextRule := network.nextRule + 1 } where
  isRule := rfl
  isNext := rfl
  nextRule := rfl
  rules := by rw [prepared.rules]
  names := by rw [prepared.names]
  fresh := unnamed
  kept := prepared.kept
  new live := (prepared.new live).imp_right (Or.imp And.right fun serves =>
    serves.mono (List.prefix_refl _) fun realizes => realizes.of_rules ..)
  sound := prepared.sound sound unnamed

/-- Adding a rule adds what its path lacks. -/
theorem Sound.addRule (sound : network.Sound) {rule : Rule} {id : RuleId}
    (added : network.addRule rule = .ok (id, after)) :
    ∃ entry, RuleAdded network rule id entry after := by
  unfold Network.addRule at added
  by_cases taken : (network.ruleId? rule.package rule.name).isSome
  · rw [if_pos taken] at added
    cases added
  rw [if_neg taken] at added
  have unnamed : network.ruleId? rule.package rule.name = none :=
    Option.not_isSome_iff_eq_none.mp taken
  obtain ⟨⟨left, longer, mid⟩, obtained⟩ : ∃ built,
      network.useConditions rule.functions [] none rule.conditions = built := ⟨_, rfl⟩
  simp only [obtained, Except.ok.injEq, Prod.mk.injEq] at added
  obtain ⟨rfl, rfl⟩ := added
  exact ⟨_, (sound.prepare rule obtained).ruleAdded sound unnamed⟩

/-! ## Removing a rule -/

/-- What removing a rule does. -/
structure RuleRemoved (network : Network) (rule : Rule) (id : RuleId) (entry : RuleEntry)
    (after : Network) : Prop where
  isRule : entry.rule = rule
  found : network.rules.find? id = some entry
  nextRule : after.nextRule = network.nextRule
  rules : after.rules = network.rules.erase id
  names : after.names =
    network.names.filter fun name => name.1 != (rule.package, rule.name)
  old : ∀ {node kind}, after.kind? node = some kind → network.kind? node = some kind
  sound : after.Sound

/-- The only use of a terminal node is given up with its path. -/
theorem Accounted.terminal_gone {path : List NodeId} {others : List (List NodeId)}
    (accounted : Accounted network (path :: others)) (rest : Accounted after others) {id : NodeId}
    (member : id ∈ path) {kind : NodeKind} (live : network.kind? id = some kind)
    (isTerminal : kind.isTerminal = true) : after.kind? id = none := by
  refine Option.eq_none_iff_forall_ne_some.mpr fun found present => ?_
  have once := accounted.terminal live isTerminal
  have own : 0 < path.count id := List.count_pos_iff.mpr member
  have other := rest.used present
  simp only [uses, List.flatten_cons, List.count_append] at once other
  omega

/-- Removing a rule takes the nodes away that only its path uses. -/
theorem Sound.removeRule (sound : network.Sound) {rule : Rule} {id : RuleId}
    (removed : network.removeRule id = some (rule, after)) :
    ∃ entry, RuleRemoved network rule id entry after := by
  unfold Network.removeRule at removed
  obtain ⟨entry, found, same⟩ := Option.map_eq_some_iff.mp removed
  obtain ⟨rfl, rfl⟩ := Prod.mk.inj same
  refine ⟨entry, ?_⟩
  set rules := network.rules.erase id with isRules
  set names := network.names.filter fun name =>
    name.1 != (entry.rule.package, entry.rule.name) with isNames
  set others := rules.values.map RuleEntry.path with isOthers
  have paths : network.paths.Perm (entry.path :: others) :=
    ((SortedMap.perm_entries_erase found).map Prod.snd).map RuleEntry.path
  have accounted :
      Accounted { network with rules, names } (entry.path.reverse.reverse :: others) := by
      rw [List.reverse_reverse]
      exact (sound.accounted.perm paths).of_rules ..
  have shrunk := (sound.wellFormed.of_rules rules names network.nextRule).releaseAll
    entry.path.reverse accounted
  set last := entry.path.reverse.foldl release { network with rules, names } with isLast
  have lastRules : last.rules = rules := shrunk.rules
  have lastNames : last.names = names := shrunk.names
  have accountedRest : Accounted last others := Accounted.cons_nil.mp shrunk.accounted
  have isRule : ∀ {other present}, last.rules.find? other = some present ↔
      other ≠ id ∧ network.rules.find? other = some present := by
    intro other present
    rw [lastRules, isRules, SortedMap.find?_erase_eq]
    by_cases same : other = id
    · simp only [same, ↓reduceIte, reduceCtorEq, ne_eq, not_true_eq_false, false_and]
    · simp only [same, ↓reduceIte, ne_eq, not_false_eq_true, true_and]
  refine ⟨rfl, found, shrunk.nextRule, lastRules, lastNames, fun live => shrunk.old live,
    shrunk.wellFormed, ?_, ?_, ?_, ?_, ?_⟩
  · change Accounted last (last.rules.values.map RuleEntry.path)
    rw [lastRules]
    exact accountedRest
  · intro other present isPresent
    have member : present.path ∈ others :=
      List.mem_map_of_mem (SortedMap.mem_values.mpr ⟨other, lastRules ▸ isPresent⟩)
    have old := (isRule.mp isPresent).2
    refine (sound.represents old).congr sound.accounted (mem_paths.mpr ⟨other, present, old, rfl⟩)
      fun within live => ?_
    exact shrunk.kept (List.mem_cons_of_mem _ member) within live
  · intro node left terminal live
    obtain ⟨present, isPresent, own⟩ := sound.terminal (shrunk.old live)
    refine ⟨present, isRule.mpr ⟨?_, isPresent⟩, own⟩
    rintro rfl
    cases found.symm.trans isPresent
    obtain ⟨⟨_, _, member, -⟩, -⟩ := sound.represents found
    have gone := (sound.accounted.perm paths).terminal_gone accountedRest (own ▸ member)
      (shrunk.old live) rfl
    cases gone.symm.trans live
  · intro other present isPresent
    have below := sound.rule_lt (isRule.mp isPresent).2
    exact (shrunk.nextRule : last.nextRule = network.nextRule) ▸ below
  · change Indexes last.names last.rules
    rw [lastNames, lastRules]
    exact Indexes.erase (fun {_ _} => sound.names) found

/-! ## Adding and removing rules -/

/-- A network that rules of some origin were added to, and some of them removed again. -/
inductive Composed (origin : Rule → Prop) : Network → Prop
  | empty : Composed origin {}
  | add {network after : Network} {rule : Rule} {id : RuleId}
      (composed : Composed origin network) (isOrigin : origin rule)
      (added : network.addRule rule = .ok (id, after)) : Composed origin after
  | remove {network after : Network} {rule : Rule} {id : RuleId}
      (composed : Composed origin network)
      (removed : network.removeRule id = some (rule, after)) : Composed origin after

namespace Composed

variable {origin : Rule → Prop}

/-- What is known of where rules come from may be weakened. -/
theorem mono {more : Rule → Prop} (composed : network.Composed origin)
    (within : ∀ {rule}, origin rule → more rule) : network.Composed more := by
  induction composed with
  | empty => exact .empty
  | add _ isOrigin added ih => exact .add ih (within isOrigin) added
  | remove _ removed ih => exact .remove ih removed

/-- A network composed of rules is sound. -/
theorem sound (composed : network.Composed origin) : network.Sound := by
  induction composed with
  | empty => exact sound_empty
  | add _ _ added ih =>
      obtain ⟨entry, done⟩ := ih.addRule added
      exact done.sound
  | remove _ removed ih =>
      obtain ⟨entry, done⟩ := ih.removeRule removed
      exact done.sound

/-- The rules of the network are of the origin. -/
theorem origin_of_found (composed : network.Composed origin) {id : RuleId} {entry : RuleEntry}
    (found : network.rules.find? id = some entry) : origin entry.rule := by
  induction composed with
  | empty => cases found
  | @add network after rule other composed isOrigin added ih =>
      obtain ⟨own, done⟩ := composed.sound.addRule added
      rw [done.rules, SortedMap.find?_insert_eq] at found
      by_cases same : id = other
      · rw [if_pos same] at found
        cases found
        exact done.isRule ▸ isOrigin
      · rw [if_neg same] at found
        exact ih found
  | @remove network after rule other composed removed ih =>
      obtain ⟨own, done⟩ := composed.sound.removeRule removed
      rw [done.rules, SortedMap.find?_erase_eq] at found
      by_cases same : id = other
      · rw [if_pos same] at found
        cases found
      · rw [if_neg same] at found
        exact ih found

end Composed

end Rete.Network
