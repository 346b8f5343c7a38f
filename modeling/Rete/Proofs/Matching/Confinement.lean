import Rete.Proofs.Matching.Activation

/-!
# How far a fact reaches

A fact that comes in changes what is kept of tuples that it is part of, and what is kept behind
tokens that it comes to hold back alone. Everything else stays, save that the fact may hold back
tokens besides others (`Confined`). A token that the fact holds back alone was offered to its
negated join before, nothing held it back, and the fact matches it (`Stoppable`).
-/

namespace Rete

/-- Nothing else is kept than before, save that a fact may hold the tuple back besides others. -/
structure Cell.Joined (fact : Handle) (before after : Cell) : Prop where
  token : after.token = before.token
  matched : after.matched = before.matched
  blocked : after.blocked = before.blocked ∨
    ∃ facts, before.blocked = some facts ∧ after.blocked = some (facts.add fact)

namespace Cell.Joined

variable {fact : Handle} {before mid : Cell}

/-- What has not changed. -/
theorem refl (fact : Handle) (cell : Cell) : cell.Joined fact cell := ⟨rfl, rfl, .inl rfl⟩

private theorem add_add (facts : SortedSet Handle) (fact : Handle) :
    (facts.add fact).add fact = facts.add fact := by
  apply SortedSet.ext_contains
  intro other
  rw [SortedSet.contains_add, SortedSet.contains_add]
  cases decide (other = fact) <;> rfl

/-- A fact that joins those that hold a tuple back, once more or for the first time. -/
theorem add (joined : before.Joined fact mid) {facts : SortedSet Handle}
    (held : mid.blocked = some facts) :
    before.Joined fact { mid with blocked := some (facts.add fact) } := by
  refine ⟨joined.token, joined.matched, .inr ?_⟩
  rcases joined.blocked with same | ⟨others, earlier, added⟩
  · exact ⟨facts, same ▸ held, rfl⟩
  · cases held.symm.trans added
    exact ⟨others, earlier, congrArg some (add_add others fact)⟩

end Cell.Joined

namespace Matching

variable {network : Network} {first base : Agenda} {view : FactView} {fact : Handle}
  {start state after : Matching}

/-- A tuple at a node is a token that a fact holds back alone, or is kept behind it. -/
def Stopped (network : Network) (base : Agenda) (fact : Handle) (state : Matching) (id : NodeId)
    (tuple : Tuple) : Prop :=
  ∃ join token, fact ∉ token ∧ (state.cell network base join token).HeldOnlyBy fact ∧
    Within network join token id tuple

/-- A negated join is offered a token that nothing holds back and that a fact matches. -/
def Stoppable (network : Network) (base : Agenda) (view : FactView) (fact : Handle)
    (state : Matching) (id : NodeId) (tuple : Tuple) : Prop :=
  ∃ left input tests functions, network.kind? id = some (.join left input tests true functions) ∧
    Offered network base state left tuple ∧ (state.cell network base id tuple).blocked = none ∧
    view.Joins functions tests tuple fact

/-- Since a fact began to come in, only what is kept of tuples with the fact, and at and behind
tokens that it holds back alone, has changed. The agenda may have been another one then. -/
structure Confined (network : Network) (first base : Agenda) (view : FactView) (fact : Handle)
    (start state : Matching) : Prop where
  seeded : state.memory.seeded = start.memory.seeded
  place : ∀ {id tuple}, fact ∉ tuple → ¬ Stopped network base fact state id tuple →
    (start.cell network first id tuple).Joined fact (state.cell network base id tuple)
  stoppable : ∀ {id tuple}, fact ∉ tuple →
    (state.cell network base id tuple).HeldOnlyBy fact →
      Stoppable network first view fact start id tuple

/-- What is kept behind a tuple that is stopped is stopped as well. -/
theorem Stopped.within {via id : NodeId} {stem tuple : Tuple}
    (stopped : Stopped network base fact state via stem)
    (inside : Within network via stem id tuple) : Stopped network base fact state id tuple := by
  obtain ⟨join, token, without, held, feeds, starts⟩ := stopped
  exact ⟨join, token, without, held, feeds.trans inside.1, starts.trans inside.2⟩

namespace Confined

/-- A fact that holds back nothing alone, as one that has only come to the alpha level. -/
theorem of_cells (seeded : after.memory.seeded = start.memory.seeded)
    (cells : ∀ id tuple, after.cell network base id tuple = start.cell network first id tuple)
    (free : ∀ id tuple, ¬ (start.cell network first id tuple).HeldOnlyBy fact) :
    Confined network first base view fact start after where
  seeded := seeded
  place {id tuple} _ _ := cells id tuple ▸ .refl fact _
  stoppable {id tuple} _ held := absurd (cells id tuple ▸ held) (free id tuple)

/-- What is added to tuples with the fact. -/
theorem of_spread {region : NodeId → Tuple → Prop}
    (confined : Confined network first base view fact start state)
    (spread : Spread network base state region after)
    (within : ∀ {id tuple}, region id tuple → fact ∈ tuple) :
    Confined network first base view fact start after where
  seeded := spread.seeded.trans confined.seeded
  place {id tuple} without free := by
    rw [spread.outside (mt within without)]
    refine confined.place without fun stopped => free ?_
    obtain ⟨join, token, tokenWithout, ⟨facts, held, only⟩, inside⟩ := stopped
    exact ⟨join, token, tokenWithout, ⟨facts, spread.blocked held, only⟩, inside⟩
  stoppable {id tuple} without held := by
    rw [spread.outside (mt within without)] at held
    exact confined.stoppable without held

end Confined

section

variable (sound : network.Sound) {right : NodeId → Handle → Prop}

include sound

/-- A token that is let through does not come from behind one that is stopped. -/
theorem Coherent.not_stopped (coherent : Coherent network base right state) {id : NodeId}
    {tuple : Tuple} (present : (state.cell network base id tuple).token = true) :
    ¬ Stopped network base fact state id tuple := by
  rintro ⟨join, token, -, ⟨facts, held, -⟩, feeds, starts⟩
  obtain ⟨left, input, tests, functions, live, offered, -⟩ := coherent.blocked held
  obtain ⟨arity, isLeftArity⟩ := sound.wellFormed.exists_left_arity sound.accounted live rfl
  have isArity : network.Arity (some join) arity := .join live isLeftArity
  have length : token.length = arity := coherent.length isLeftArity offered
  have absent := coherent.exclusive held
  by_cases own : id = join
  · subst own
    have same : token = tuple :=
      starts.eq_of_length (length.trans (coherent.length isArity present).symm)
    exact Bool.false_ne_true (absent.symm.trans (same ▸ present))
  · rw [coherent.behind_empty sound isArity length absent ⟨feeds, own, starts⟩] at present
    cases present

/-- Where a tuple that is offered is stopped, it is held back itself. -/
theorem Coherent.heldOnly_of_stopped (coherent : Coherent network base right state) {id : NodeId}
    {kind : NodeKind} (live : network.kind? id = some kind) {left : Option NodeId}
    (isLeft : kind.left? = some left) {tuple : Tuple}
    (offered : Offered network base state left tuple)
    (stopped : Stopped network base fact state id tuple) :
    (state.cell network base id tuple).HeldOnlyBy fact := by
  obtain ⟨join, token, without, held, feeds, starts⟩ := stopped
  rcases feeds.cases_last with rfl | ⟨lastKind, via, lastLive, lastLeft, earlier⟩
  · obtain ⟨facts, blocked, only⟩ := held
    obtain ⟨joinLeft, input, tests, functions, joinLive, joinOffered, -⟩ := coherent.blocked blocked
    cases live.symm.trans joinLive
    cases isLeft
    obtain ⟨arity, isArity⟩ := sound.wellFormed.exists_left_arity sound.accounted live rfl
    have same : token = tuple := starts.eq_of_length
      ((coherent.length isArity joinOffered).trans (coherent.length isArity offered).symm)
    exact same ▸ ⟨facts, blocked, only⟩
  · cases live.symm.trans lastLive
    cases isLeft.symm.trans lastLeft
    exact absurd ⟨join, token, without, held, earlier, starts⟩ (coherent.not_stopped sound offered)

/-- A tuple without the fact that is offered was offered before. -/
theorem Confined.offered (confined : Confined network first base view fact start state)
    (coherent : Coherent network base right state) {left : Option NodeId} {tuple : Tuple}
    (without : fact ∉ tuple) (offered : Offered network base state left tuple) :
    Offered network first start left tuple := by
  cases left with
  | none => exact ⟨confined.seeded.symm.trans offered.1, offered.2⟩
  | some via =>
      exact (confined.place without (coherent.not_stopped sound offered)).token.symm.trans offered

end

end Matching

end Rete
