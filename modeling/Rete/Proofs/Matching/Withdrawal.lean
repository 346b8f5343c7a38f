import Rete.Proofs.Matching.Cells

/-!
# Withdrawing tokens

A token that is withdrawn takes with it everything that came of it: behind the node, nothing is
kept of tuples that start with it, and nothing else changes (`withdraw_cleared`). This holds where
everything kept behind a node came of a token that the node let through (`Rooted`), since the walk
stops at nodes without such tokens.
-/

namespace Rete.Matching

variable {network : Network} {base : Agenda} {state mid after : Matching}

/-- Tokens are kept only behind the alpha level. -/
structure Tidy (network : Network) (base : Agenda) (state : Matching) : Prop where
  token : ∀ {id tuple}, (state.cell network base id tuple).token = true →
    ∃ kind, network.kind? id = some kind ∧ kind.isBetaLevel = true
  blocked : ∀ {id tuple facts}, (state.cell network base id tuple).blocked = some facts →
    ∃ kind, network.kind? id = some kind ∧ kind.isBetaLevel = true

/-- What is left of the tokens and of the tuples held back is where it was. -/
theorem Tidy.mono (tidy : Tidy network base state)
    (token : ∀ {id tuple}, (after.cell network base id tuple).token = true →
      (state.cell network base id tuple).token = true)
    (blocked : ∀ {id tuple facts}, (after.cell network base id tuple).blocked = some facts →
      (state.cell network base id tuple).blocked = some facts) : Tidy network base after :=
  ⟨fun here => tidy.token (token here), fun here => tidy.blocked (blocked here)⟩

/-- Nothing but matches is kept at a terminal node. -/
theorem Tidy.terminal (tidy : Tidy network base state) {id : NodeId} {left : Option NodeId}
    {terminal : Terminal} (live : network.kind? id = some (.terminal left terminal))
    (tuple : Tuple) : (state.cell network base id tuple).token = false ∧
      (state.cell network base id tuple).blocked = none := by
  constructor
  · refine Bool.eq_false_iff.mpr fun token => ?_
    obtain ⟨found, isFound, beta⟩ := tidy.token token
    cases live.symm.trans isFound
    cases beta
  · refine Option.eq_none_iff_forall_ne_some.mpr fun facts blocked => ?_
    obtain ⟨found, isFound, beta⟩ := tidy.blocked blocked
    cases live.symm.trans isFound
    cases beta

/-- Behind a node, everything that is kept of tuples with a stem came of tokens with the stem. -/
def Rooted (network : Network) (base : Agenda) (state : Matching) (source : NodeId)
    (stem : Tuple) : Prop :=
  ∀ id tuple, network.Feeds source id → id ≠ source → stem <+: tuple →
    state.cell network base id tuple ≠ {} → ∃ kind via origin, network.kind? id = some kind ∧
      kind.left? = some (some via) ∧ stem <+: origin ∧
      (state.cell network base via origin).token = true

/-- A part of what is kept is cleared, and everything else stays. -/
structure Cleared (network : Network) (base : Agenda) (state : Matching)
    (region : NodeId → Tuple → Prop) (after : Matching) : Prop where
  seeded : after.memory.seeded = state.memory.seeded
  alpha : after.memory.alpha = state.memory.alpha
  nextSequence : (after.agenda base).nextSequence = (state.agenda base).nextSequence
  firing : (after.agenda base).firing = (state.agenda base).firing
  states : ∀ {found kept}, (after.agenda base).states.find? found = some kept →
    (state.agenda base).states.find? found = some kept
  inside : ∀ {id tuple}, region id tuple → after.cell network base id tuple = {}
  outside : ∀ {id tuple}, ¬ region id tuple →
    after.cell network base id tuple = state.cell network base id tuple

namespace Cleared

variable {region other : NodeId → Tuple → Prop}

private theorem refl
    (empty : ∀ {id tuple}, region id tuple → state.cell network base id tuple = {}) :
    Cleared network base state region state :=
  ⟨rfl, rfl, rfl, rfl, fun found => found, fun inside => empty inside, fun _ => rfl⟩

private theorem trans (first : Cleared network base state region mid)
    (second : Cleared network base mid other after) :
    Cleared network base state (fun id tuple => region id tuple ∨ other id tuple) after where
  seeded := second.seeded.trans first.seeded
  alpha := second.alpha.trans first.alpha
  nextSequence := second.nextSequence.trans first.nextSequence
  firing := second.firing.trans first.firing
  states found := first.states (second.states found)
  inside {id tuple} inside := by
    by_cases later : other id tuple
    · exact second.inside later
    · rw [second.outside later]
      exact first.inside (inside.resolve_right later)
  outside outside := by
    obtain ⟨notFirst, notSecond⟩ := not_or.mp outside
    rw [second.outside notSecond, first.outside notFirst]

/-- The cleared part may be described otherwise. -/
theorem congr (cleared : Cleared network base state region after)
    (same : ∀ id tuple, region id tuple ↔ other id tuple) :
    Cleared network base state other after where
  seeded := cleared.seeded
  alpha := cleared.alpha
  nextSequence := cleared.nextSequence
  firing := cleared.firing
  states := cleared.states
  inside inside := cleared.inside ((same _ _).mpr inside)
  outside outside := cleared.outside (mt (same _ _).mp outside)

/-- What is left was there before. -/
theorem eq_of_ne (cleared : Cleared network base state region after) {id : NodeId} {tuple : Tuple}
    (kept : after.cell network base id tuple ≠ {}) : ¬ region id tuple ∧
      after.cell network base id tuple = state.cell network base id tuple := by
  by_cases within : region id tuple
  · exact absurd (cleared.inside within) kept
  · exact ⟨within, cleared.outside within⟩

private theorem tidy (cleared : Cleared network base state region after)
    (tidy : Tidy network base state) :
    Tidy network base after := by
  have kept : ∀ {id tuple}, after.cell network base id tuple ≠ {} →
      after.cell network base id tuple = state.cell network base id tuple :=
    fun present => (cleared.eq_of_ne present).2
  refine tidy.mono (fun {id tuple} token => ?_) (fun {id tuple facts} blocked => ?_)
  · rw [← kept, token]
    intro empty
    rw [empty] at token
    cases token
  · rw [← kept, blocked]
    intro empty
    rw [empty] at blocked
    cases blocked

end Cleared

/-- What came of the output of a node with a stem. -/
def Behind (network : Network) (source : NodeId) (stem : Tuple) (id : NodeId) (tuple : Tuple) :
    Prop :=
  network.Feeds source id ∧ id ≠ source ∧ stem <+: tuple

/-- What was kept for what a node is offered with a stem. -/
def Within (network : Network) (source : NodeId) (stem : Tuple) (id : NodeId) (tuple : Tuple) :
    Prop :=
  network.Feeds source id ∧ stem <+: tuple

/-- What a node is offered is kept at the node, or came of its output. -/
theorem within_iff {source : NodeId} {stem : Tuple} {id : NodeId} {tuple : Tuple} :
    Within network source stem id tuple ↔
      (id = source ∧ stem <+: tuple) ∨ Behind network source stem id tuple := by
  constructor
  · rintro ⟨feeds, starts⟩
    by_cases same : id = source
    · exact .inl ⟨same, starts⟩
    · exact .inr ⟨feeds, same, starts⟩
  · rintro (⟨rfl, starts⟩ | ⟨feeds, -, starts⟩)
    · exact ⟨.self, starts⟩
    · exact ⟨feeds, starts⟩

/-- What came of the output of a node was kept for what one of its outputs was offered. -/
theorem behind_iff_within (sound : network.Sound) {source : NodeId} {node : Node}
    (found : network.node? source = some node) (beta : node.kind.isBetaLevel = true) {stem : Tuple}
    {id : NodeId} {tuple : Tuple} : Behind network source stem id tuple ↔
      ∃ child ∈ node.children, Within network child stem id tuple := by
  have isChild : ∀ {child}, child ∈ node.children ↔ ∃ kind, network.kind? child = some kind ∧
      kind.left? = some (some source) := sound.wellFormed.mem_children_of_beta found beta
  constructor
  · rintro ⟨feeds, different, starts⟩
    obtain same | ⟨child, kind, live, left, reaches⟩ := feeds.cases_head
    · exact absurd same different
    · exact ⟨child, isChild.mpr ⟨kind, live, left⟩, reaches, starts⟩
  · rintro ⟨child, member, reaches, starts⟩
    obtain ⟨kind, live, left⟩ := isChild.mp member
    refine ⟨(Network.Feeds.self.next live left).trans reaches, ?_, starts⟩
    rintro rfl
    exact Network.Feeds.not_left sound.accounted live left reaches

/-- A node without tokens of the stem has nothing behind it: without a token at the node, there is
none at the next one, and so on. -/
theorem Rooted.behind_empty {source : NodeId} {stem : Tuple}
    (rooted : Rooted network base state source stem)
    (absent : ∀ {origin}, stem <+: origin → (state.cell network base source origin).token = false)
    {id : NodeId} {tuple : Tuple} (behind : Behind network source stem id tuple) :
    state.cell network base id tuple = {} := by
  obtain ⟨feeds, different, starts⟩ := behind
  induction feeds generalizing tuple with
  | self => exact absurd rfl different
  | @next id via kind earlier live left ih =>
      by_contra kept
      obtain ⟨found, foundVia, origin, foundLive, foundLeft, originStarts, token⟩ :=
        rooted id tuple (earlier.next live left) different starts kept
      cases live.symm.trans foundLive
      cases left.symm.trans foundLeft
      by_cases own : via = source
      · subst own
        rw [absent originStarts] at token
        cases token
      · rw [ih own originStarts] at token
        cases token

/-- Forgetting tuples that are held back at the node itself keeps the origins. -/
theorem Rooted.dropBlocked {source : NodeId} {stem : Tuple}
    (rooted : Rooted network base state source stem) :
    Rooted network base { state with memory := state.memory.dropBlocked source stem } source
      stem := by
  intro id tuple feeds different starts kept
  rw [state.cell_dropBlocked, if_neg (not_and_of_not_left _ different)] at kept
  obtain ⟨kind, via, origin, live, left, originStarts, token⟩ :=
    rooted id tuple feeds different starts kept
  refine ⟨kind, via, origin, live, left, originStarts, ?_⟩
  rw [state.cell_dropBlocked]
  split <;> exact token

private theorem Tidy.dropBlocked (tidy : Tidy network base state) (id : NodeId) (stem : Tuple) :
    Tidy network base { state with memory := state.memory.dropBlocked id stem } := by
  refine tidy.mono (fun {other tuple} token => ?_) (fun {other tuple facts} blocked => ?_)
  · rw [state.cell_dropBlocked] at token
    split at token <;> exact token
  · rw [state.cell_dropBlocked] at blocked
    split at blocked
    · cases blocked
    · exact blocked

private theorem Tidy.dropTokens (tidy : Tidy network base state) (id : NodeId) (stem : Tuple) :
    Tidy network base { state with memory := (state.memory.dropTokens id stem).2 } := by
  refine tidy.mono (fun {other tuple} token => ?_) (fun {other tuple facts} blocked => ?_)
  · rw [state.cell_dropTokens] at token
    split at token
    · cases token
    · exact token
  · rw [state.cell_dropTokens] at blocked
    split at blocked <;> exact blocked

/-- A node without a terminal keeps nothing of a stem once both its tokens and the tuples it holds
back are forgotten. -/
theorem dropped_cleared {id : NodeId} {kind : NodeKind} (live : network.kind? id = some kind)
    (shared : kind.isTerminal = false) (stem : Tuple) :
    Cleared network base state (fun other tuple => other = id ∧ stem <+: tuple)
      { state with memory := ((state.memory.dropBlocked id stem).dropTokens id stem).2 } := by
  have cells : ∀ other tuple,
      ({ state with memory := ((state.memory.dropBlocked id stem).dropTokens id stem).2 }.cell
        network base other tuple) = if other = id ∧ stem <+: tuple then
          { state.cell network base other tuple with token := false, blocked := none }
        else state.cell network base other tuple := by
    intro other tuple
    refine (cell_dropTokens { state with memory := state.memory.dropBlocked id stem }
      id stem other tuple).trans ?_
    rw [state.cell_dropBlocked]
    split <;> rfl
  refine ⟨?_, ?_, rfl, rfl, fun found => found, fun {other tuple} inside => ?_,
    fun {other tuple} outside => ?_⟩
  · simp only [NetworkMemory.seeded_dropTokens, NetworkMemory.seeded_dropBlocked]
  · simp only [NetworkMemory.alpha_dropTokens, NetworkMemory.alpha_dropBlocked]
  · rw [cells, if_pos inside, inside.1]
    simp only [state.matched_of_not_terminal live shared]
  · rw [cells, if_neg outside]

/-- Clearing what came of one node keeps the origins behind another. -/
theorem Rooted.cleared {source other : NodeId} {stem : Tuple}
    (rooted : Rooted network base state source stem)
    (cleared : Cleared network base state (Within network other stem) after) :
    Rooted network base after source stem := by
  intro id tuple feeds different starts kept
  obtain ⟨outside, same⟩ := cleared.eq_of_ne kept
  rw [same] at kept
  obtain ⟨kind, via, origin, live, left, originStarts, token⟩ :=
    rooted id tuple feeds different starts kept
  refine ⟨kind, via, origin, live, left, originStarts, ?_⟩
  rw [cleared.outside, token]
  rintro ⟨reaches, -⟩
  exact outside ⟨reaches.next live left, starts⟩

/-- Calls for the outputs of a node clear everything behind it. -/
theorem foldl_cleared {stem : Tuple} {below : Matching → NodeId → Matching}
    (children : List NodeId)
    (each : ∀ child ∈ children, ∀ state, Tidy network base state →
      Rooted network base state child stem →
      Cleared network base state (Within network child stem) (below state child)) :
    ∀ {state : Matching}, Tidy network base state →
      (∀ child ∈ children, Rooted network base state child stem) →
      Cleared network base state
        (fun other tuple => ∃ child ∈ children, Within network child stem other tuple)
        (children.foldl below state) := by
  induction children with
  | nil =>
      intro state _ _
      exact .refl fun inside => by
        obtain ⟨_, member, -⟩ := inside
        cases member
  | cons child rest ih =>
      intro state tidy rooted
      have first := each child List.mem_cons_self state tidy (rooted child List.mem_cons_self)
      have second := ih (fun other member => each other (List.mem_cons_of_mem _ member))
        (first.tidy tidy)
        fun other member => (rooted other (List.mem_cons_of_mem _ member)).cleared first
      refine (first.trans second).congr fun other tuple => ?_
      simp only [List.mem_cons, exists_eq_or_imp]

section

variable (sound : network.Sound)

include sound

/-- Dropping the tokens of a node leaves the origins behind its outputs. -/
theorem Rooted.child {id child : NodeId} {kind : NodeKind} {stem : Tuple}
    (rooted : Rooted network base state id stem) (live : network.kind? child = some kind)
    (left : kind.left? = some (some id))
    (same : ∀ other tuple, other ≠ id →
      after.cell network base other tuple = state.cell network base other tuple) :
    Rooted network base after child stem := by
  have feedsChild : network.Feeds id child := .next .self live left
  have notBack : ¬ network.Feeds child id := Network.Feeds.not_left sound.accounted live left
  intro other tuple feeds different starts kept
  have apart : other ≠ id := fun equal => notBack (equal ▸ feeds)
  rw [same other tuple apart] at kept
  obtain ⟨otherKind, via, origin, otherLive, otherLeft, originStarts, token⟩ :=
    rooted other tuple (feedsChild.trans feeds) apart starts kept
  refine ⟨otherKind, via, origin, otherLive, otherLeft, originStarts, ?_⟩
  rw [same, token]
  -- The origin lies behind the child, and so not at the node itself.
  rintro rfl
  rcases feeds.cases_last with equal | ⟨lastKind, last, lastLive, lastLeft, earlier⟩
  · exact different equal
  · cases otherLive.symm.trans lastLive
    cases otherLeft.symm.trans lastLeft
    exact notBack earlier

/-- Dropping the tokens of a node, and calling for its outputs if there were any, clears what came
of them if the calls do so. -/
theorem retractOutputWith_cleared {id : NodeId} {kind : NodeKind}
    (live : network.kind? id = some kind) (beta : kind.isBetaLevel = true) {stem : Tuple}
    {below : Matching → NodeId → Matching}
    (each : ∀ child childKind, network.kind? child = some childKind →
      childKind.left? = some (some id) → ∀ state, Tidy network base state →
      Rooted network base state child stem →
      Cleared network base state (Within network child stem) (below state child))
    (tidy : Tidy network base state) (rooted : Rooted network base state id stem) :
    Cleared network base { state with memory := (state.memory.dropTokens id stem).2 }
      (Behind network id stem) (retractOutputWith network below stem state id) := by
  obtain ⟨node, found, rfl⟩ := Network.kind?_eq_some.mp live
  have isChild : ∀ {child}, child ∈ node.children ↔ ∃ childKind,
      network.kind? child = some childKind ∧ childKind.left? = some (some id) :=
    sound.wellFormed.mem_children_of_beta found beta
  set mid : Matching := { state with memory := (state.memory.dropTokens id stem).2 } with isMid
  have cells : ∀ other tuple, mid.cell network base other tuple =
      if other = id ∧ stem <+: tuple then
        { state.cell network base other tuple with token := false }
      else state.cell network base other tuple := state.cell_dropTokens id stem
  have apart : ∀ other tuple, other ≠ id →
      mid.cell network base other tuple = state.cell network base other tuple := by
    intro other tuple different
    rw [cells, if_neg (not_and_of_not_left _ different)]
  have unfolded : retractOutputWith network below stem state id =
      if (state.memory.dropTokens id stem).1 then node.children.foldl below mid else mid := by
    simp only [retractOutputWith, found, isMid]
  rw [unfolded]
  by_cases dropped : (state.memory.dropTokens id stem).1 = true
  · rw [if_pos dropped]
    have cleared := foldl_cleared node.children
      (fun child member => by
        obtain ⟨childKind, childLive, childLeft⟩ := isChild.mp member
        exact each child childKind childLive childLeft)
      (tidy.dropTokens id stem) fun child member => by
        obtain ⟨childKind, childLive, childLeft⟩ := isChild.mp member
        exact rooted.child sound childLive childLeft apart
    exact cleared.congr fun _ _ => (behind_iff_within sound found beta).symm
  · rw [if_neg dropped]
    refine .refl fun {other tuple} behind => ?_
    rw [apart other tuple behind.2.1]
    refine rooted.behind_empty (fun {origin} starts => Bool.eq_false_iff.mpr fun token => ?_) behind
    exact dropped ((NetworkMemory.dropTokens_fst ..).mpr ⟨origin, starts, token⟩)

/-- The matches of a rule that start with a stem are all that is kept for its terminal node. -/
theorem lost_cleared {id : NodeId} {left : Option NodeId} {terminal : Terminal}
    (live : network.kind? id = some (.terminal left terminal)) (stem : Tuple)
    (tidy : Tidy network base state) :
    Cleared network base state (Within network id stem)
      (state.note (.lost terminal.rule stem)) := by
  have cells := @Matching.cell_note_lost _ base state sound _ _ _ live stem
  have here : ∀ {other tuple}, Within network id stem other tuple → other = id ∧ stem <+: tuple :=
    fun within => ⟨within.1.eq_of_terminal sound.wellFormed live, within.2⟩
  refine ⟨rfl, rfl, ?_, ?_, fun {found kept} present => ?_, fun {other tuple} inside => ?_,
    fun {other tuple} outside => ?_⟩
  · rw [agenda_note]
    rfl
  · rw [agenda_note]
    rfl
  · rw [agenda_note, Agenda.follow, Agenda.find?_deactivate] at present
    split at present
    · cases present
    · exact present
  · obtain ⟨rfl, starts⟩ := here inside
    obtain ⟨noToken, notBlocked⟩ := tidy.terminal live tuple
    rw [cells, if_pos ⟨rfl, starts⟩]
    exact Cell.ext noToken notBlocked rfl
  · rw [cells, if_neg fun same => outside (within_iff.mpr (.inl same))]

/-- Behind the alpha level, forgetting what the node keeps and calling for its outputs clears what
was kept for it. -/
theorem withdrawBeta_cleared {id : NodeId} {kind : NodeKind} (live : network.kind? id = some kind)
    (beta : kind.isBetaLevel = true) {stem : Tuple} {below : Matching → NodeId → Matching}
    (each : ∀ child childKind, network.kind? child = some childKind →
      childKind.left? = some (some id) → ∀ state, Tidy network base state →
      Rooted network base state child stem →
      Cleared network base state (Within network child stem) (below state child))
    (tidy : Tidy network base state) (rooted : Rooted network base state id stem) :
    Cleared network base state (Within network id stem)
      (retractOutputWith network below stem
        { state with memory := state.memory.dropBlocked id stem } id) := by
  have shared : kind.isTerminal = false := by cases kind <;> first | rfl | cases beta
  have cleared := retractOutputWith_cleared sound live beta each (tidy.dropBlocked id stem)
    rooted.dropBlocked
  exact ((dropped_cleared live shared stem).trans cleared).congr fun _ _ => within_iff.symm

/-- Withdrawing what a node was offered clears everything kept for it. -/
theorem withdraw_cleared {stem : Tuple} (depth : Nat) {id : NodeId} {level : Nat}
    (own : network.Level id level) (enough : network.depth ≤ depth + level) {kind : NodeKind}
    (live : network.kind? id = some kind) {left : Option NodeId} (behind : kind.left? = some left) :
    ∀ {state : Matching}, Tidy network base state → Rooted network base state id stem →
      Cleared network base state (Within network id stem)
        (withdraw network depth stem state id) := by
  induction depth generalizing id level kind left with
  | zero =>
      have bound := sound.accounted.level_lt_size own
      rw [Network.depth] at enough
      omega
  | succ depth ih =>
      intro state tidy rooted
      have isKind : (network.node? id).map Node.kind = some kind := live
      have below : ∀ child childKind, network.kind? child = some childKind →
          childKind.left? = some (some id) → ∀ state, Tidy network base state →
          Rooted network base state child stem →
          Cleared network base state (Within network child stem)
            (withdraw network depth stem state child) := by
        intro child childKind childLive childLeft state childTidy childRooted
        exact ih (.under childLive (NodeKind.above?_of_left? childLeft) own) (by omega) childLive
          childLeft childTidy childRooted
      cases kind with
      | objectType | alpha => cases behind
      | join | eval =>
          simp only [withdraw, isKind]
          exact withdrawBeta_cleared sound live rfl below tidy rooted
      | terminal _ terminal =>
          simp only [withdraw, isKind]
          exact lost_cleared sound live stem tidy

/-- Dropping the tokens of a node that start with a stem clears what came of them. -/
theorem retractOutput_cleared {stem : Tuple} {id : NodeId} {kind : NodeKind}
    (live : network.kind? id = some kind) (beta : kind.isBetaLevel = true)
    (tidy : Tidy network base state) (rooted : Rooted network base state id stem) :
    Cleared network base { state with memory := (state.memory.dropTokens id stem).2 }
      (Behind network id stem) (retractOutput network stem state id) := by
  refine retractOutputWith_cleared sound live beta ?_ tidy rooted
  intro child childKind childLive childLeft state childTidy childRooted
  obtain ⟨level, own⟩ := sound.accounted.exists_level childLive
  exact withdraw_cleared sound network.depth own (Nat.le_add_right _ _) childLive childLeft
    childTidy childRooted

end

end Rete.Matching
