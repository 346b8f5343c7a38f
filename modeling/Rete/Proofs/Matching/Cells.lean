import Rete.Proofs.Agenda
import Rete.Proofs.Network.Levels
import Rete.Proofs.Network.Rules

/-!
# What is kept of a tuple at a node

The memories of a network and the agenda together keep, for every node and tuple, whether the node
let the tuple through as a token, what holds it back, and what became of it as a complete match
(`Matching.cell`). The steps of propagation are stated by what they do to these cells; the agenda is
that of the session, as it follows the changes noted so far.
-/

namespace Rete

/-- What is kept of a tuple at a node. -/
@[ext] structure Cell where
  /-- Whether the node let it through. -/
  token : Bool := false
  /-- The facts that hold it back at a negated join. -/
  blocked : Option (SortedSet Handle) := none
  /-- What became of it as a match of the rule of a terminal node. -/
  matched : Option MatchState := none

/-- A tuple is let through or held back. -/
def Cell.Covered (cell : Cell) : Prop := cell.token = true ∨ cell.blocked ≠ none

/-- One fact alone holds a tuple back. -/
def Cell.HeldOnlyBy (cell : Cell) (fact : Handle) : Prop :=
  ∃ facts, cell.blocked = some facts ∧ ∀ other, facts.contains other = true ↔ other = fact

namespace NetworkMemory

variable (memory : NetworkMemory) (id other : NodeId)

/-- What nodes hold depends on the alpha level only. -/
theorem factsAt_congr {memory other : NetworkMemory} (alpha : other.alpha = memory.alpha) :
    other.factsAt = memory.factsAt := by
  unfold factsAt
  rw [alpha]

@[simp] theorem factsAt_addFact (fact : Handle) : (memory.addFact id fact).factsAt other =
    if other = id then (memory.factsAt id).add fact else memory.factsAt other := by
  by_cases same : other = id <;> simp [factsAt, addFact, same]

@[simp] theorem factsAt_removeFact (fact : Handle) : (memory.removeFact id fact).factsAt other =
    if other = id then (memory.factsAt id).erase fact else memory.factsAt other := by
  by_cases same : other = id <;> simp [factsAt, removeFact, same]

@[simp] theorem tokensAt_addToken (token : Tuple) : (memory.addToken id token).tokensAt other =
    if other = id then (memory.tokensAt id).add token else memory.tokensAt other := by
  by_cases same : other = id <;> simp [tokensAt, addToken, same]

@[simp] theorem blockedAt_setBlocked (blocked : Blocked) :
    (memory.setBlocked id blocked).blockedAt other =
      if other = id then blocked else memory.blockedAt other := by
  by_cases same : other = id <;> simp [blockedAt, setBlocked, same]

/-- Cutting out a stem parts the entries by whether they start with it. -/
theorem cutStem_eq {ν : Type} (stem : Tuple) (map : SortedMap Tuple ν) :
    cutStem stem map = (map.entries.filter (fun entry => stem.isPrefixOf entry.1),
      map.filter fun tuple _ => !stem.isPrefixOf tuple) :=
  SortedMap.cutRange_eq_filter (Tuple.segment stem) map

/-- Dropping a stem takes the tokens at a node that begin with it, and no others. -/
theorem tokensAt_dropTokens (stem : Tuple) :
    (memory.dropTokens id stem).2.tokensAt other =
      if other = id then (memory.tokensAt id).filter fun tuple _ => !stem.isPrefixOf tuple
      else memory.tokensAt other := by
  unfold dropTokens
  cases found : memory.beta.find? id with
  | none =>
      by_cases same : other = id
      · subst same
        simp only [tokensAt, found, Option.getD_none, ↓reduceIte]
        rfl
      · rw [if_neg same]
  | some tokens =>
      by_cases same : other = id <;> simp [tokensAt, cutStem_eq, found, same]

/-- Dropping tokens tells whether there were any. -/
theorem dropTokens_fst (stem : Tuple) : (memory.dropTokens id stem).1 = true ↔
    ∃ token, stem <+: token ∧ (memory.tokensAt id).contains token = true := by
  unfold dropTokens
  cases found : memory.beta.find? id with
  | none => simp [tokensAt, found]
  | some tokens =>
      simp only [cutStem_eq, Bool.not_eq_true', List.isEmpty_eq_false_iff_exists_mem, tokensAt,
        found, Option.getD_some, List.mem_filter, List.isPrefixOf_iff_prefix]
      constructor
      · rintro ⟨⟨token, value⟩, member, starts⟩
        exact ⟨token, starts, SortedMap.contains_eq_true.mpr
          ⟨value, (SortedMap.mem_entries ..).mp member⟩⟩
      · rintro ⟨token, starts, present⟩
        obtain ⟨value, stored⟩ := SortedMap.contains_eq_true.mp present
        exact ⟨(token, value), (SortedMap.mem_entries ..).mpr stored, starts⟩

@[simp] theorem seeded_dropTokens (stem : Tuple) :
    (memory.dropTokens id stem).2.seeded = memory.seeded := by
  unfold dropTokens
  split <;> rfl

@[simp] theorem alpha_dropTokens (stem : Tuple) :
    (memory.dropTokens id stem).2.alpha = memory.alpha := by
  unfold dropTokens
  split <;> rfl

@[simp] theorem blockers_dropTokens (stem : Tuple) :
    (memory.dropTokens id stem).2.blockers = memory.blockers := by
  unfold dropTokens
  split <;> rfl

@[simp] theorem seeded_dropBlocked (stem : Tuple) :
    (memory.dropBlocked id stem).seeded = memory.seeded := by
  unfold dropBlocked
  split <;> rfl

@[simp] theorem alpha_dropBlocked (stem : Tuple) :
    (memory.dropBlocked id stem).alpha = memory.alpha := by
  unfold dropBlocked
  split <;> rfl

@[simp] theorem beta_dropBlocked (stem : Tuple) :
    (memory.dropBlocked id stem).beta = memory.beta := by
  unfold dropBlocked
  split <;> rfl

/-- Dropping a stem releases what a node holds back that begins with it, and nothing else. -/
theorem blockedAt_dropBlocked (stem : Tuple) :
    (memory.dropBlocked id stem).blockedAt other =
      if other = id then (memory.blockedAt id).filter fun tuple _ => !stem.isPrefixOf tuple
      else memory.blockedAt other := by
  unfold dropBlocked
  cases found : memory.blockers.find? id with
  | none =>
      by_cases same : other = id
      · subst same
        simp only [blockedAt, found, Option.getD_none, ↓reduceIte]
        rfl
      · rw [if_neg same]
  | some blocked =>
      by_cases same : other = id <;> simp [blockedAt, setBlocked, cutStem_eq, found, same]

end NetworkMemory

namespace Network

/-- What became of a tuple as a match of the rule of a terminal node. -/
def matchState? (network : Network) (agenda : Agenda) (id : NodeId) (tuple : Tuple) :
    Option MatchState :=
  match network.kind? id with
  | some (.terminal _ terminal) => agenda.states.find? ⟨terminal.rule, tuple⟩
  | _ => none

/-- The state of a match at a terminal is what the agenda says of its rule. -/
theorem matchState?_of_terminal {network : Network} {id : NodeId} {left : Option NodeId}
    {terminal : Terminal} (live : network.kind? id = some (.terminal left terminal))
    (agenda : Agenda) (tuple : Tuple) :
    network.matchState? agenda id tuple = agenda.states.find? ⟨terminal.rule, tuple⟩ := by
  simp only [matchState?, live]

/-- A match has a state only at terminals, and there the agenda says which. -/
theorem matchState?_eq_some {network : Network} {agenda : Agenda} {id : NodeId} {tuple : Tuple}
    {state : MatchState} : network.matchState? agenda id tuple = some state ↔
      ∃ left terminal, network.kind? id = some (.terminal left terminal) ∧
        agenda.states.find? ⟨terminal.rule, tuple⟩ = some state := by
  unfold matchState?
  constructor
  · intro found
    split at found
    · next left terminal live => exact ⟨left, terminal, live, found⟩
    · cases found
  · rintro ⟨left, terminal, live, found⟩
    simp only [live, found]

/-- Every rule has one terminal node. -/
theorem Sound.rule_eq_iff {network : Network} (sound : network.Sound) {id other : NodeId}
    {left otherLeft : Option NodeId} {terminal otherTerminal : Terminal}
    (live : network.kind? id = some (.terminal left terminal))
    (otherLive : network.kind? other = some (.terminal otherLeft otherTerminal)) :
    otherTerminal.rule = terminal.rule ↔ other = id := by
  constructor
  · intro same
    obtain ⟨entry, found, rfl⟩ := sound.terminal live
    obtain ⟨otherEntry, otherFound, rfl⟩ := sound.terminal otherLive
    rw [← same, otherFound] at found
    cases found
    rfl
  · rintro rfl
    cases live.symm.trans otherLive
    rfl

end Network

namespace Matching

variable (network : Network) (base : Agenda)

/-- The agenda as it follows the changes noted so far. -/
def agenda (state : Matching) : Agenda := base.followAll state.changes

/-- What is kept of a tuple at a node. -/
def cell (state : Matching) (id : NodeId) (tuple : Tuple) : Cell where
  token := (state.memory.tokensAt id).contains tuple
  blocked := (state.memory.blockedAt id).find? tuple
  matched := network.matchState? (state.agenda base) id tuple

/-- The agenda makes no difference for tokens. -/
theorem token_cell_of_memory (other : Agenda) {state after : Matching}
    (memory : after.memory = state.memory) (id : NodeId) (tuple : Tuple) :
    (after.cell network other id tuple).token = (state.cell network base id tuple).token := by
  unfold cell
  rw [memory]

/-- The agenda makes no difference for what holds a token back. -/
theorem blocked_cell_of_memory (other : Agenda) {state after : Matching}
    (memory : after.memory = state.memory) (id : NodeId) (tuple : Tuple) :
    (after.cell network other id tuple).blocked = (state.cell network base id tuple).blocked := by
  unfold cell
  rw [memory]

variable {network base} (state : Matching)

/-- A match is tracked if something has become of it at the terminal node of its rule. -/
theorem knows_iff_matched {id : NodeId} {left : Option NodeId} {terminal : Terminal}
    (live : network.kind? id = some (.terminal left terminal)) (tuple : Tuple) :
    (state.agenda base).knows ⟨terminal.rule, tuple⟩ = true ↔
      (state.cell network base id tuple).matched ≠ none := by
  rw [Agenda.knows, SortedMap.contains_eq_true, Option.ne_none_iff_exists']
  change _ ↔ ∃ found, network.matchState? (state.agenda base) id tuple = some found
  rw [Network.matchState?_of_terminal live]

/-- Only terminal nodes have matches. -/
theorem matched_of_not_terminal {id : NodeId} {kind : NodeKind}
    (live : network.kind? id = some kind) (shared : kind.isTerminal = false) (tuple : Tuple) :
    (state.cell network base id tuple).matched = none := by
  cases kind <;> simp_all [cell, Network.matchState?, NodeKind.isTerminal]

/-- The agenda that follows a noted change follows the changes before it first. -/
theorem agenda_note (change : MatchChange) :
    (state.note change).agenda base = (state.agenda base).follow change := by
  simp only [agenda, note, Agenda.followAll_append]
  rfl

/-- A token that is added. -/
theorem cell_addToken (id : NodeId) (token : Tuple) (other : NodeId) (tuple : Tuple) :
    ({ state with memory := state.memory.addToken id token }.cell network base other tuple) =
      if other = id ∧ tuple = token then { state.cell network base other tuple with token := true }
      else state.cell network base other tuple := by
  by_cases here : other = id
  · subst here
    by_cases same : tuple = token
    · subst same
      simp only [cell, NetworkMemory.tokensAt_addToken, ↓reduceIte, SortedSet.contains_add,
        decide_true, Bool.true_or, and_self]
      rfl
    · simp only [cell, NetworkMemory.tokensAt_addToken, ↓reduceIte, SortedSet.contains_add, same,
        decide_false, Bool.false_or, and_false]
      rfl
  · simp only [cell, NetworkMemory.tokensAt_addToken, here, ↓reduceIte, false_and]
    rfl

/-- A node whose tokens that are held back are others. -/
theorem cell_setBlocked (id : NodeId) (blocked : Blocked) (other : NodeId) (tuple : Tuple) :
    ({ state with memory := state.memory.setBlocked id blocked }.cell network base other tuple) =
      if other = id then { state.cell network base other tuple with blocked := blocked.find? tuple }
      else state.cell network base other tuple := by
  by_cases here : other = id
  · subst here
    simp only [cell, NetworkMemory.blockedAt_setBlocked, ↓reduceIte]
    rfl
  · simp only [cell, NetworkMemory.blockedAt_setBlocked, here, ↓reduceIte]
    rfl

/-- A token of a node that is held back by others. -/
theorem cell_insertBlocked (id : NodeId) (token : Tuple) (facts : SortedSet Handle) (other : NodeId)
    (tuple : Tuple) :
    ({ state with
        memory := state.memory.setBlocked id
          ((state.memory.blockedAt id).insert token facts) }.cell network base other tuple) =
      if other = id ∧ tuple = token then
        { state.cell network base other tuple with blocked := some facts }
      else state.cell network base other tuple := by
  rw [state.cell_setBlocked, SortedMap.find?_insert_eq]
  by_cases here : other = id
  · subst here
    by_cases same : tuple = token
    · simp only [same, ↓reduceIte, and_self]
    · simp only [same, ↓reduceIte, and_false]
      rfl
  · simp only [here, ↓reduceIte, false_and]

/-- Tokens that are dropped. -/
theorem cell_dropTokens (id : NodeId) (stem : Tuple) (other : NodeId) (tuple : Tuple) :
    ({ state with memory := (state.memory.dropTokens id stem).2 }.cell network base other tuple) =
      if other = id ∧ stem <+: tuple then
        { state.cell network base other tuple with token := false }
      else state.cell network base other tuple := by
  have others := state.memory.blockers_dropTokens id stem
  by_cases here : other = id
  · subst here
    by_cases starts : stem <+: tuple
    · have isStem := List.isPrefixOf_iff_prefix.mpr starts
      simp only [cell, NetworkMemory.tokensAt_dropTokens, ↓reduceIte, SortedMap.contains,
        SortedMap.find?_filter, isStem, Bool.not_true, starts, and_self, NetworkMemory.blockedAt,
        others]
      cases (state.memory.tokensAt other).find? tuple <;> rfl
    · have isStem : stem.isPrefixOf tuple = false :=
        Bool.eq_false_iff.mpr (mt List.isPrefixOf_iff_prefix.mp starts)
      simp only [cell, NetworkMemory.tokensAt_dropTokens, ↓reduceIte, SortedMap.contains,
        SortedMap.find?_filter, isStem, Bool.not_false, starts, and_false, NetworkMemory.blockedAt,
        others]
      cases (state.memory.tokensAt other).find? tuple <;> rfl
  · simp only [cell, NetworkMemory.tokensAt_dropTokens, here, ↓reduceIte, false_and,
      NetworkMemory.blockedAt, others]
    rfl

/-- Tokens that are not held back any more. -/
theorem cell_dropBlocked (id : NodeId) (stem : Tuple) (other : NodeId) (tuple : Tuple) :
    ({ state with memory := state.memory.dropBlocked id stem }.cell network base other tuple) =
      if other = id ∧ stem <+: tuple then
        { state.cell network base other tuple with blocked := none }
      else state.cell network base other tuple := by
  have others := state.memory.beta_dropBlocked id stem
  by_cases here : other = id
  · subst here
    by_cases starts : stem <+: tuple
    · have isStem := List.isPrefixOf_iff_prefix.mpr starts
      simp only [cell, NetworkMemory.blockedAt_dropBlocked, ↓reduceIte, SortedMap.find?_filter,
        isStem, Bool.not_true, starts, and_self, NetworkMemory.tokensAt, others]
      cases (state.memory.blockedAt other).find? tuple <;> rfl
    · have isStem : stem.isPrefixOf tuple = false :=
        Bool.eq_false_iff.mpr (mt List.isPrefixOf_iff_prefix.mp starts)
      simp only [cell, NetworkMemory.blockedAt_dropBlocked, ↓reduceIte, SortedMap.find?_filter,
        isStem, Bool.not_false, starts, and_false, NetworkMemory.tokensAt, others]
      cases (state.memory.blockedAt other).find? tuple <;> rfl
  · simp only [cell, NetworkMemory.blockedAt_dropBlocked, here, ↓reduceIte, false_and,
      NetworkMemory.tokensAt, others]
    rfl

/-- Matches that are lost. -/
theorem cell_note_lost (sound : network.Sound) {id : NodeId} {left : Option NodeId}
    {terminal : Terminal} (live : network.kind? id = some (.terminal left terminal))
    (stem : Tuple) (other : NodeId) (tuple : Tuple) :
    (state.note (.lost terminal.rule stem)).cell network base other tuple =
      if other = id ∧ stem <+: tuple then
        { state.cell network base other tuple with matched := none }
      else state.cell network base other tuple := by
  have matched : network.matchState? ((state.note (.lost terminal.rule stem)).agenda base) other
      tuple = if other = id ∧ stem <+: tuple then none
        else network.matchState? (state.agenda base) other tuple := by
    rw [agenda_note]
    unfold Network.matchState?
    cases kind : network.kind? other with
    | none => simp only [ite_self]
    | some found =>
        cases found with
        | terminal otherLeft otherTerminal =>
            simp only [Agenda.follow, Agenda.find?_deactivate, Match.isWithin_iff,
              sound.rule_eq_iff live kind]
        | objectType | alpha | join | eval => simp only [ite_self]
  simp only [cell, matched]
  split <;> rfl

/-- A match that is found. -/
theorem cell_note_found (sound : network.Sound) {id : NodeId} {left : Option NodeId}
    {terminal : Terminal} (live : network.kind? id = some (.terminal left terminal))
    (token : Tuple) : ∃ matched, (∀ other tuple,
      (state.note (.found terminal token)).cell network base other tuple =
        if other = id ∧ tuple = token then
          { state.cell network base other tuple with matched := some matched }
        else state.cell network base other tuple) ∧
      (∀ old, (state.cell network base id token).matched = some old → matched = old) ∧
      ((state.cell network base id token).matched = none → matched = .settled .suppressed ∨
        matched = .pending ⟨terminal.salience, (state.agenda base).nextSequence⟩ ∧
          ((state.note (.found terminal token)).agenda base).nextSequence =
            (state.agenda base).nextSequence + 1) := by
  obtain ⟨found, states, known, unknown⟩ := (state.agenda base).find?_activate terminal token
  have own : (state.cell network base id token).matched =
      (state.agenda base).states.find? ⟨terminal.rule, token⟩ :=
    network.matchState?_of_terminal live _ _
  refine ⟨found, fun other tuple => ?_, fun old before => known old (own ▸ before), ?_⟩
  · have matched : network.matchState? ((state.note (.found terminal token)).agenda base) other
        tuple = if other = id ∧ tuple = token then some found
          else network.matchState? (state.agenda base) other tuple := by
      rw [agenda_note]
      unfold Network.matchState?
      cases kind : network.kind? other with
      | none =>
          have different : other ≠ id := by
            rintro rfl
            cases kind.symm.trans live
          simp only [different, false_and, ↓reduceIte]
      | some isKind =>
          cases isKind with
          | terminal otherLeft otherTerminal =>
              simp only [Agenda.follow, states, Match.mk.injEq, sound.rule_eq_iff live kind]
          | objectType | alpha | join | eval =>
              have different : other ≠ id := by
                rintro rfl
                cases kind.symm.trans live
              simp only [different, false_and, ↓reduceIte]
    simp only [cell, matched]
    split <;> rfl
  · rw [own, agenda_note]
    exact unknown

end Matching

end Rete
