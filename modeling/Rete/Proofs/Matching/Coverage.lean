import Rete.Proofs.Matching.Following

/-!
# What propagation does not lose

Whatever happens to a fact, the alpha level keeps all others, and the entry of its type holds a fact
that came in (`assert_holds`, `retract_holds`). Behind the alpha level, a condition that fails on
the way of a fact that comes in loses only tuples that the fact is part of (`assert_covers`). Taking
the fact back loses nothing if no condition fails, and what was lost with the fact is not offered
any more; a condition that fails loses only what starts with a token that the fact alone held back
(`retract_covers`).
-/

namespace Rete.Matching

variable {network : Network} {base : Agenda} {view : FactView} {facts : Facts}
  {excused : NodeId → Tuple → Prop} {state after : Matching} {handle : Handle}
  {result : Except Error Unit}

/-- A fact alone holds back a token that a tuple starts with. -/
def HoldsBack (network : Network) (base : Agenda) (state : Matching) (fact : Handle)
    (tuple : Tuple) : Prop :=
  ∃ id stem, (state.cell network base id stem).HeldOnlyBy fact ∧ stem <+: tuple

/-- What is exact is covered. -/
theorem Exact.covers (exact : Exact network base view facts state) :
    Covers network base state fun _ _ => False :=
  ⟨fun live offered => .inl (exact.settled live rfl offered).covered⟩

section

variable (sound : network.Sound)

include sound

/-! ## The alpha level -/

/-- A fact that comes in takes none from the alpha level, and the entry of its type holds it. -/
theorem assert_holds (intact : Intact network base view.facts state)
    (run : Ends (MatchM.assert network view handle) state result after) :
    (∀ {id other}, (state.memory.factsAt id).contains other = true →
      (after.memory.factsAt id).contains other = true) ∧
      ∀ {fact top}, view.facts.find? handle = some fact →
        network.kind? top = some (.objectType fact.typeName) →
        (after.memory.factsAt top).contains handle = true := by
  -- There is one entry for the type.
  have atTop : ∀ {fact object : Object} {top id : NodeId},
      view.facts.find? handle = some fact → network.kind? top = some (.objectType fact.typeName) →
      view.facts.find? handle = some object →
        network.kind? id = some (.objectType object.typeName) →
      id = top := by
    intro fact object top id isFact isTop isObject isEntry
    cases isFact.symm.trans isObject
    exact Option.some.inj ((sound.wellFormed.objectType.mpr isEntry).symm.trans
      (sound.wellFormed.objectType.mpr isTop))
  cases enters_of_assert sound run with
  | missing absent =>
      refine ⟨fun held => held, fun {fact top} isFact _ => ?_⟩
      cases absent.symm.trans (SortedMap.contains_eq_true.mpr ⟨fact, isFact⟩)
  | unseen isFact noEntry =>
      refine ⟨fun held => held, fun {object top} isObject isEntry => ?_⟩
      cases isFact.symm.trans isObject
      cases noEntry.symm.trans (sound.wellFormed.objectType.mpr isEntry)
  | stopped isFact isTop passes entered =>
      exact ⟨fun held => (passes.added.facts _ _).mpr (.inl held), fun isObject isEntry =>
        atTop isFact isTop isObject isEntry ▸ entered⟩
  | @sent fact top nodes passed between _ _ isFact isTop passes entered last =>
      have sent := passes.added.intact intact isFact isTop passes.sifted
      have brings := (rightActivate_forM_keeps sound sent.coherent (reads_onRight between.memory)
        isFact passes.holds last).1
      rw [NetworkMemory.factsAt_congr brings.alpha]
      exact ⟨fun held => (passes.added.facts _ _).mpr (.inl held), fun isObject isEntry =>
        atTop isFact isTop isObject isEntry ▸ entered⟩

/-- A fact that is taken back takes no other one from the alpha level. -/
theorem retract_holds (intact : Intact network base view.facts state)
    (run : Ends (MatchM.retract network view handle) state result after) {id : NodeId}
    {other : Handle} (different : other ≠ handle)
    (held : (state.memory.factsAt id).contains other = true) :
    (after.memory.factsAt id).contains other = true := by
  cases leaves_of_retract sound intact run with
  | missing | unseen => exact held
  | @taken fact nodes freed cleared between _ _ isFact removed nowhere relieves last =>
      have pays := unblock_forM_pays sound relieves.negates (removed.relieved relieves)
        (reads_onRight between.memory) last
      rw [NetworkMemory.factsAt_congr (pays.alpha.trans relieves.alpha)]
      exact (removed.facts id other).mpr ⟨held, fun gone => different gone.1⟩

/-! ## Tokens -/

/-- A fact that comes in loses nothing, unless a condition fails; then what is lost has the fact. -/
theorem assert_covers (intact : Intact network base view.facts state)
    (run : Ends (MatchM.assert network view handle) state result after)
    (covers : Covers network base state excused) :
    Outcome result (fun _ => Covers network base after excused)
      fun _ => Covers network base after (Along excused handle) := by
  have sentDown : ∀ {nodes : NodeId → Prop} {between : Matching},
      AddedTo state handle nodes between → Covers network base between excused := fun added =>
    covers.congr added.seeded (fun id tuple => congrArg Cell.token (added.cell base id tuple))
      fun id tuple => congrArg Cell.blocked (added.cell base id tuple)
  cases enters_of_assert sound run with
  | missing => exact covers.mono .inl
  | unseen => exact covers
  | stopped isFact isTop passes => exact (sentDown passes.added).mono .inl
  | @sent fact top nodes passed between _ _ isFact isTop passes entered last =>
      have sent := passes.added.intact intact isFact isTop passes.sifted
      exact (rightActivate_forM_keeps sound sent.coherent (reads_onRight between.memory) isFact
        passes.holds last).1.covers (sentDown passes.added)

/-- Where a fact is held nowhere, it is part of no tuple that is offered. -/
theorem Covers.of_nowhere (covers : Covers network base state (Along excused handle))
    (coherent : Coherent network base (OnRight network state.memory) state)
    (nowhere : ∀ id, (state.memory.factsAt id).contains handle = false) :
    Covers network base state excused := by
  refine covers.resolve fun {id left input tests functions tuple} live offered here =>
    .inr (here.resolve_right fun within => ?_)
  obtain ⟨arity, isArity⟩ := sound.wellFormed.exists_left_arity sound.accounted live rfl
  obtain ⟨other, held⟩ := coherent.holds isArity offered within
  exact Bool.false_ne_true ((nowhere other).symm.trans held)

/-- A fact that is taken back loses nothing if no condition fails, and what was lost with it is not
offered any more. If a condition fails, what is lost starts with a token that only the fact held
back. -/
theorem retract_covers (intact : Intact network base view.facts state)
    (run : Ends (MatchM.retract network view handle) state result after)
    (covers : Covers network base state (Along excused handle)) :
    Outcome result (fun _ => Covers network base after excused)
      fun _ => Covers network base after fun id tuple =>
        excused id tuple ∨ HoldsBack network base state handle tuple := by
  cases leaves_of_retract sound intact run with
  | missing absent =>
      have nowhere (id : NodeId) : (state.memory.factsAt id).contains handle = false := by
        refine Bool.eq_false_iff.mpr fun here => ?_
        exact Bool.false_ne_true (absent.symm.trans (intact.layered.live sound.accounted here))
      exact (covers.of_nowhere sound intact.coherent nowhere).mono .inl
  | unseen isFact noEntry =>
      exact covers.of_nowhere sound intact.coherent
        (intact.layered.nowhere_of_noEntry sound isFact noEntry)
  | @taken fact nodes freed cleared between _ _ isFact removed nowhere relieves last =>
      have coherent := removed.relieved relieves
      have same := NetworkMemory.factsAt_congr relieves.alpha
      have start : Covers network base cleared (Along excused handle) :=
        covers.congr removed.seeded
          (fun id tuple => congrArg Cell.token (removed.cell base id tuple))
          fun id tuple => congrArg Cell.blocked (removed.cell base id tuple)
      have owing : Covers network base between
          (Along (fun id tuple => excused id tuple ∨ (id, tuple) ∈ freed) handle) :=
        (relieves.covers start).mono fun here =>
          here.elim (Or.imp_left .inl) fun member => .inl (.inr member)
      have pays := unblock_forM_pays sound relieves.negates coherent (reads_onRight between.memory)
        last
      refine (pays.covers (owing.of_nowhere sound coherent fun id => same ▸ nowhere id)).imp
        (fun _ covers => covers) fun _ lost => lost.mono (Or.imp_right ?_)
      rintro ⟨place, member, starts⟩
      exact ⟨place.1, place.2, removed.cell base place.1 place.2 ▸ relieves.heldOnly place member,
        starts⟩

end

end Rete.Matching
