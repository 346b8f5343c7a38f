import Rete.Proofs.Network.Paths

/-!
# Walks through a network

The outputs of a node never lead back to it. Every node has a level, the number of nodes above it
(`Accounted.exists_level`), which is less than the number of nodes (`Accounted.level_lt_size`), so
a walk along outputs ends before the depth of the network is used up. What comes out of one node
may reach others behind it (`Feeds`), and all tokens of a left input are of one length (`Arity`).
-/

namespace Rete.Network

variable {network : Network}

/-! ## Levels -/

/-- The number of nodes above a node, from output to input. -/
inductive Level (network : Network) : NodeId → Nat → Prop
  | top {id : NodeId} {kind : NodeKind} (live : network.kind? id = some kind)
      (above : kind.above? = none) : Level network id 0
  | under {id parent : NodeId} {kind : NodeKind} {level : Nat}
      (live : network.kind? id = some kind) (above : kind.above? = some parent)
      (upper : Level network parent level) : Level network id (level + 1)

/-- A node stands on one level. -/
theorem Level.unique {id : NodeId} {level other : Nat} (first : Level network id level)
    (second : Level network id other) : level = other := by
  induction first generalizing other with
  | top live above =>
      cases second with
      | top => rfl
      | under live' above' _ =>
          cases live.symm.trans live'
          cases above.symm.trans above'
  | under live above _ ih =>
      cases second with
      | top live' above' =>
          cases live.symm.trans live'
          cases above.symm.trans above'
      | under live' above' upper' =>
          cases live.symm.trans live'
          cases above.symm.trans above'
          exact congrArg Nat.succ (ih upper')

/-- A node is one level below the node above it. -/
theorem Level.of_above {id parent : NodeId} {kind : NodeKind} {level : Nat}
    (own : Level network id level) (live : network.kind? id = some kind)
    (above : kind.above? = some parent) :
    ∃ upper, level = upper + 1 ∧ Level network parent upper := by
  cases own with
  | top live' above' =>
      cases live.symm.trans live'
      cases above.symm.trans above'
  | under live' above' upper =>
      cases live.symm.trans live'
      cases above.symm.trans above'
      exact ⟨_, rfl, upper⟩

namespace Accounted

variable {paths : List (List NodeId)}

/-- In a path, an input comes first before the node comes first. -/
theorem idxOf_lt (accounted : Accounted network paths) {path : List NodeId}
    (present : path ∈ paths) {id : NodeId} (member : id ∈ path) {kind : NodeKind}
    (live : network.kind? id = some kind) {input : NodeId} (isInput : input ∈ kind.inputs) :
    path.idxOf input < path.idxOf id := by
  obtain ⟨before, rest, split, first⟩ := List.eq_append_cons_of_mem member
  obtain ⟨found, same, inputs⟩ := accounted.ordered present split
  cases live.symm.trans same
  have within := inputs input isInput
  have position : path.idxOf id = before.length := by
    rw [split, List.idxOf_append_of_notMem first, List.idxOf_cons_self, Nat.add_zero]
  rw [position, split, List.idxOf_append_of_mem within]
  exact List.idxOf_lt_length_of_mem within

/-- Every live node has a level. -/
theorem exists_level (accounted : Accounted network paths) {id : NodeId} {kind : NodeKind}
    (live : network.kind? id = some kind) : ∃ level, Level network id level := by
  obtain ⟨path, present, member⟩ :=
    List.mem_flatten.mp (List.count_pos_iff.mp (accounted.used live))
  -- The induction is on the place of the node in a path that it is in.
  induction place : path.idxOf id using Nat.strongRecOn generalizing id kind with
  | ind place ih =>
      cases above : kind.above? with
      | none => exact ⟨0, .top live above⟩
      | some parent =>
          have isInput : parent ∈ kind.inputs := NodeKind.mem_inputs.mpr (.inl above)
          have within := accounted.input_mem present member live isInput
          have earlier := accounted.idxOf_lt present member live isInput
          obtain ⟨parentKind, parentLive⟩ := accounted.live present within
          obtain ⟨level, upper⟩ := ih _ (place ▸ earlier) parentLive within rfl
          exact ⟨level + 1, .under live above upper⟩

/-- The nodes above a node and the node itself, all in a path that the node is in. -/
private theorem exists_chain (accounted : Accounted network paths) {path : List NodeId}
    (present : path ∈ paths) {id : NodeId} {level : Nat} (own : Level network id level)
    (member : id ∈ path) : ∃ chain : List NodeId, chain.length = level + 1 ∧ chain.Nodup ∧
      ∀ node ∈ chain, node ∈ path ∧ path.idxOf node ≤ path.idxOf id := by
  induction own with
  | @top id kind live above =>
      refine ⟨[id], rfl, List.nodup_cons.mpr ⟨List.not_mem_nil, .nil⟩, fun node here => ?_⟩
      cases List.mem_singleton.mp here
      exact ⟨member, Nat.le_refl _⟩
  | @under id parent kind level live above upper ih =>
      have isInput : parent ∈ kind.inputs := NodeKind.mem_inputs.mpr (.inl above)
      have earlier := accounted.idxOf_lt present member live isInput
      obtain ⟨chain, long, distinct, within⟩ :=
        ih (accounted.input_mem present member live isInput)
      refine ⟨id :: chain, congrArg Nat.succ long, List.nodup_cons.mpr ⟨fun here => ?_, distinct⟩,
        fun node here => ?_⟩
      · exact absurd (within id here).2 (Nat.not_le_of_lt earlier)
      · rcases List.mem_cons.mp here with rfl | here
        · exact ⟨member, Nat.le_refl _⟩
        · exact ⟨(within node here).1, Nat.le_trans (within node here).2 (Nat.le_of_lt earlier)⟩

/-- A node is at most as deep as there are other nodes. -/
theorem level_lt_size (accounted : Accounted network paths) {id : NodeId} {level : Nat}
    (own : Level network id level) : level < network.nodes.size := by
  have live : ∃ kind, network.kind? id = some kind := by
    cases own with
    | top live _ => exact ⟨_, live⟩
    | under live _ _ => exact ⟨_, live⟩
  obtain ⟨kind, live⟩ := live
  obtain ⟨path, present, member⟩ :=
    List.mem_flatten.mp (List.count_pos_iff.mp (accounted.used live))
  obtain ⟨chain, long, distinct, within⟩ := accounted.exists_chain present own member
  have stored : ∀ node ∈ chain, network.nodes.contains node = true := by
    intro node here
    obtain ⟨kind, live⟩ := accounted.live present (within node here).1
    obtain ⟨found, isStored, -⟩ := kind?_eq_some.mp live
    exact SortedMap.contains_eq_true.mpr ⟨found, isStored⟩
  have bound := SortedMap.length_le_size distinct stored
  omega

end Accounted

/-! ## What comes of the output of a node -/

/-- The output of a node is the left input of another, directly or through nodes between them. -/
inductive Feeds (network : Network) (source : NodeId) : NodeId → Prop
  | self : Feeds network source source
  | next {id via : NodeId} {kind : NodeKind} (earlier : Feeds network source via)
      (live : network.kind? id = some kind) (left : kind.left? = some (some via)) :
      Feeds network source id

namespace Feeds

variable {source id : NodeId}

/-- What feeds a node feeds what that node feeds. -/
theorem trans {via : NodeId} (first : Feeds network source via) (second : Feeds network via id) :
    Feeds network source id := by
  induction second with
  | self => exact first
  | next _ live left ih => exact ih.next live left

/-- Whatever a node feeds comes through one of its outputs, the node itself apart. -/
theorem cases_head (feeds : Feeds network source id) : id = source ∨ ∃ child kind,
    network.kind? child = some kind ∧ kind.left? = some (some source) ∧ Feeds network child id := by
  induction feeds with
  | self => exact .inl rfl
  | @next id via kind _ live left ih =>
      rcases ih with rfl | ⟨child, childKind, childLive, childLeft, reached⟩
      · exact .inr ⟨id, kind, live, left, .self⟩
      · exact .inr ⟨child, childKind, childLive, childLeft, reached.next live left⟩

/-- A terminal node feeds nothing else. -/
theorem eq_of_terminal (wellFormed : network.WellFormed) {left : Option NodeId}
    {terminal : Terminal} (live : network.kind? source = some (.terminal left terminal))
    (feeds : Feeds network source id) : id = source := by
  rcases feeds.cases_head with same | ⟨child, kind, childLive, childLeft, -⟩
  · exact same
  · obtain ⟨input, isInput, beta⟩ := wellFormed.leftFits childLive childLeft
    cases live.symm.trans isInput
    cases beta

/-- Whatever a node feeds has a left input that it feeds, the node itself apart. -/
theorem cases_last (feeds : Feeds network source id) : id = source ∨ ∃ kind via,
    network.kind? id = some kind ∧ kind.left? = some (some via) ∧ Feeds network source via := by
  cases feeds with
  | self => exact .inl rfl
  | next earlier live left => exact .inr ⟨_, _, live, left, earlier⟩

/-- What a node feeds is not above it. -/
theorem level_le (feeds : Feeds network source id) {level other : Nat}
    (own : Level network source level) (below : Level network id other) : level ≤ other := by
  induction feeds generalizing other with
  | self => exact Nat.le_of_eq (own.unique below)
  | next _ live left ih =>
      obtain ⟨upper, rfl, parent⟩ := below.of_above live (NodeKind.above?_of_left? left)
      exact Nat.le_succ_of_le (ih parent)

/-- A node does not feed its own left input. -/
theorem not_left {paths : List (List NodeId)} (accounted : Accounted network paths)
    {kind : NodeKind} (live : network.kind? source = some kind)
    (left : kind.left? = some (some id)) : ¬ Feeds network source id := by
  intro feeds
  obtain ⟨level, own⟩ := accounted.exists_level live
  obtain ⟨upper, rfl, parent⟩ := own.of_above live (NodeKind.above?_of_left? left)
  exact absurd (feeds.level_le own parent) (Nat.not_succ_le_self _)

/-- Outputs of one node feed different nodes. -/
theorem sibling {paths : List (List NodeId)} (accounted : Accounted network paths)
    {parent : NodeId} {kind : NodeKind} (live : network.kind? source = some kind)
    (left : kind.left? = some (some parent)) {other : NodeId} {otherKind : NodeKind}
    (otherLive : network.kind? other = some otherKind)
    (otherLeft : otherKind.left? = some (some parent)) (feeds : Feeds network source id)
    (otherFeeds : Feeds network other id) : source = other := by
  induction feeds with
  | self =>
      rcases otherFeeds.cases_last with same | ⟨lastKind, via, lastLive, lastLeft, earlier⟩
      · exact same
      · cases live.symm.trans lastLive
        cases left.symm.trans lastLeft
        exact absurd earlier (not_left accounted otherLive otherLeft)
  | next earlier nextLive nextLeft ih =>
      rcases otherFeeds.cases_last with rfl | ⟨lastKind, via, lastLive, lastLeft, otherEarlier⟩
      · cases otherLive.symm.trans nextLive
        cases otherLeft.symm.trans nextLeft
        exact absurd earlier (not_left accounted live left)
      · cases nextLive.symm.trans lastLive
        cases nextLeft.symm.trans lastLeft
        exact ih otherEarlier

/-- Outputs of the root feed different nodes. -/
theorem root_unique {kind : NodeKind} (live : network.kind? source = some kind)
    (left : kind.left? = some none) {other : NodeId} {otherKind : NodeKind}
    (otherLive : network.kind? other = some otherKind) (otherLeft : otherKind.left? = some none)
    (feeds : Feeds network source id) (otherFeeds : Feeds network other id) : source = other := by
  induction feeds with
  | self =>
      rcases otherFeeds.cases_last with same | ⟨lastKind, via, lastLive, lastLeft, -⟩
      · exact same
      · cases live.symm.trans lastLive
        cases left.symm.trans lastLeft
  | next earlier nextLive nextLeft ih =>
      rcases otherFeeds.cases_last with rfl | ⟨lastKind, via, lastLive, lastLeft, otherEarlier⟩
      · cases otherLive.symm.trans nextLive
        cases otherLeft.symm.trans nextLeft
      · cases nextLive.symm.trans lastLive
        cases nextLeft.symm.trans lastLeft
        exact ih otherEarlier

end Feeds

/-- Every node with a left input is fed by an output of the root. -/
theorem WellFormed.exists_root (wellFormed : network.WellFormed) {paths : List (List NodeId)}
    (accounted : Accounted network paths) {id : NodeId} {kind : NodeKind}
    {left : Option NodeId} (live : network.kind? id = some kind) (isLeft : kind.left? = some left) :
    ∃ root rootKind, network.kind? root = some rootKind ∧ rootKind.left? = some none ∧
      Feeds network root id := by
  obtain ⟨level, own⟩ := accounted.exists_level live
  induction own generalizing kind left with
  | @top id found live' above =>
      cases live'.symm.trans live
      rw [NodeKind.above?_of_left? isLeft] at above
      exact ⟨id, _, live, above ▸ isLeft, .self⟩
  | @under id parent found level live' above _ ih =>
      cases live'.symm.trans live
      rw [NodeKind.above?_of_left? isLeft] at above
      subst above
      obtain ⟨parentKind, parentLive, parentBeta⟩ := wellFormed.leftFits live isLeft
      have parentLeft : ∃ upper, parentKind.left? = some upper := by
        cases parentKind with
        | join left | eval left => exact ⟨left, rfl⟩
        | objectType | alpha | terminal => cases parentBeta
      obtain ⟨upper, isUpper⟩ := parentLeft
      obtain ⟨root, rootKind, rootLive, rootLeft, feeds⟩ := ih parentLive isUpper
      exact ⟨root, rootKind, rootLive, rootLeft, feeds.next live isLeft⟩

/-! ## The length of tokens -/

/-- The number of facts in the tokens of a left input: one for every join on the way that is not
negated. -/
inductive Arity (network : Network) : Option NodeId → Nat → Prop
  | root : Arity network none 0
  | join {id right : NodeId} {left : Option NodeId} {tests : List Expr} {negated : Bool}
      {functions : FunctionTable} {arity : Nat}
      (live : network.kind? id = some (.join left right tests negated functions))
      (before : Arity network left arity) :
      Arity network (some id) (if negated then arity else arity + 1)
  | eval {id : NodeId} {left : Option NodeId} {test : Expr} {functions : FunctionTable}
      {arity : Nat} (live : network.kind? id = some (.eval left test functions))
      (before : Arity network left arity) : Arity network (some id) arity

/-- Where tuples come from, they all have the same length. -/
theorem Arity.unique {left : Option NodeId} {arity other : Nat} (first : Arity network left arity)
    (second : Arity network left other) : arity = other := by
  induction first generalizing other with
  | root =>
      cases second
      rfl
  | join live _ ih =>
      cases second with
      | join live' before' =>
          cases live.symm.trans live'
          rw [ih before']
      | eval live' _ => cases live.symm.trans live'
  | eval live _ ih =>
      cases second with
      | join live' _ => cases live.symm.trans live'
      | eval live' before' =>
          cases live.symm.trans live'
          exact ih before'

/-- Every left input that fits has an arity. -/
theorem WellFormed.exists_arity (wellFormed : network.WellFormed) {paths : List (List NodeId)}
    (accounted : Accounted network paths) {left : Option NodeId} (fits : network.LeftFits left) :
    ∃ arity, Arity network left arity := by
  cases left with
  | none => exact ⟨0, .root⟩
  | some id =>
      obtain ⟨kind, live, beta⟩ := fits
      obtain ⟨level, own⟩ := accounted.exists_level live
      induction own generalizing kind with
      | @top id found live' above =>
          cases live'.symm.trans live
          cases found with
          | objectType | alpha | terminal => cases beta
          | join left right tests negated functions =>
              cases above
              exact ⟨_, .join live .root⟩
          | eval left test functions =>
              cases above
              exact ⟨_, .eval live .root⟩
      | @under id parent found level live' above _ ih =>
          cases live'.symm.trans live
          cases found with
          | objectType | alpha | terminal => cases beta
          | join left right tests negated functions =>
              cases above
              obtain ⟨kind, leftLive, leftBeta⟩ := (wellFormed.fits live).1
              obtain ⟨arity, before⟩ := ih kind leftLive leftBeta
              exact ⟨_, .join live before⟩
          | eval left test functions =>
              cases above
              obtain ⟨kind, leftLive, leftBeta⟩ := wellFormed.fits live
              obtain ⟨arity, before⟩ := ih kind leftLive leftBeta
              exact ⟨_, .eval live before⟩

/-- Tuples at a node of the beta level have a length. -/
theorem WellFormed.exists_arity_of_beta (wellFormed : network.WellFormed)
    {paths : List (List NodeId)} (accounted : Accounted network paths) {id : NodeId}
    {kind : NodeKind} (live : network.kind? id = some kind) (beta : kind.isBetaLevel = true) :
    ∃ arity, Arity network (some id) arity :=
  wellFormed.exists_arity accounted ⟨kind, live, beta⟩

/-- All tokens of the left input of a node are of one length. -/
theorem WellFormed.exists_left_arity (wellFormed : network.WellFormed) {paths : List (List NodeId)}
    (accounted : Accounted network paths) {id : NodeId} {kind : NodeKind}
    (live : network.kind? id = some kind) {left : Option NodeId} (isLeft : kind.left? = some left) :
    ∃ arity, Arity network left arity :=
  wellFormed.exists_arity accounted (wellFormed.leftFits live isLeft)

end Rete.Network
