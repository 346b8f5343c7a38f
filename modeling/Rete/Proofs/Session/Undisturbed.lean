import Rete.Proofs.Matching.Frame
import Rete.Proofs.Session.Admission
import Rete.Proofs.Session.Structure

/-!
# Matches that an operation does not concern

An insertion, a retraction or an update that succeeds leaves every match that is tracked before and
after it in its state, unless it is one of the updated fact: it waits under the same number, or it
has fired, or it is suppressed. So no match fires twice because of a fact that it does not have
(`KnowledgeBase.Made.undisturbed_of_visits`).
-/

namespace Rete

namespace Agenda

variable {handle : Handle} {agenda mid after : Agenda} {spared : Match → Prop}

/-- A match that is spared and that two agendas track is in the same state in both. -/
structure Undisturbed (spared : Match → Prop) (agenda after : Agenda) : Prop where
  states : ∀ {found}, spared found → agenda.knows found = true → after.knows found = true →
    after.states.find? found = agenda.states.find? found

/-- What two agendas carry over to a third one is in the same states in both. -/
theorem Undisturbed.of_carries (first : agenda.Carries handle mid)
    (second : after.Carries handle mid) :
    agenda.Undisturbed (fun found => handle ∉ found.tuple) after where
  states {found} without known knownAfter := by
    obtain ⟨state, tracked⟩ := SortedMap.contains_eq_true.mp known
    obtain ⟨stateAfter, trackedAfter⟩ := SortedMap.contains_eq_true.mp knownAfter
    have same := (first.states without tracked).symm.trans (second.states without trackedAfter)
    rw [tracked, trackedAfter, same]

/-- A match that is tracked by both waits in both, under the same number, or in neither. -/
theorem Undisturbed.mem_pending (undisturbed : agenda.Undisturbed spared after)
    (consistent : agenda.Consistent) (consistentAfter : after.Consistent) {activation : Activation}
    (isSpared : spared activation.toMatch) (known : agenda.knows activation.toMatch = true)
    (knownAfter : after.knows activation.toMatch = true) :
    activation ∈ after.pending ↔ activation ∈ agenda.pending := by
  rw [consistent.mem_pending, consistentAfter.mem_pending,
    undisturbed.states isSpared known knownAfter]

end Agenda

namespace Session

variable {session after : Session} {handle : Handle} {result : Except Error Unit}

/-- While a fact comes in, no match without it is found. -/
theorem Follows.carries_of_assert
    (follows : session.Follows (MatchM.assert · · handle) result after) :
    after.agenda.Carries handle session.agenda := by
  obtain ⟨matching, run, rfl⟩ := follows
  obtain ⟨noted, changes, finds⟩ := (MatchM.assert_notes.notes run).exists_append
  cases changes
  exact .of_forall_findsOnlyWith finds session.agenda

/-- While a fact is taken back, no match without it is lost. -/
theorem Follows.carries_of_retract
    (follows : session.Follows (MatchM.retract · · handle) result after) :
    session.agenda.Carries handle after.agenda := by
  obtain ⟨matching, run, rfl⟩ := follows
  obtain ⟨noted, changes, loses⟩ := (MatchM.retract_notes.notes run).exists_append
  cases changes
  exact .of_forall_losesOnlyWith loses session.agenda

/-- A match that is tracked has live facts only. -/
theorem Intact.not_mem_of_knows (intact : session.Intact)
    (gone : session.memory.contains handle = false) {found : Match}
    (known : session.agenda.knows found = true) : handle ∉ found.tuple :=
  fun within => Bool.false_ne_true (gone.symm.trans (intact.live_of_knows known within))

/-- An insertion that succeeds disturbs no match: none had the new fact before. -/
theorem Intact.undisturbed_of_inserts (intact : session.Intact) {fact : Object}
    {failures : List Error} (inserts : session.Inserts fact (.ok handle) after failures) :
    session.agenda.Undisturbed (fun _ => True) after.agenda := by
  cases inserts with
  | inserted alive typed follows =>
      refine ⟨fun {found} _ known knownAfter => ?_⟩
      have carries : after.agenda.Carries session.memory.nextHandle session.agenda :=
        follows.carries_of_assert
      exact (Agenda.Undisturbed.of_carries (.refl _ _) carries).states
        (intact.not_mem_of_knows intact.not_contains_nextHandle known) known knownAfter

/-- A retraction disturbs no match: none has the fact afterwards. -/
theorem Intact.undisturbed_of_retracts (intact : session.Intact) {result : Except Error Object}
    {failures : List Error} (retracts : session.Retracts handle result after failures) :
    session.agenda.Undisturbed (fun _ => True) after.agenda := by
  have whole := intact.step (.retracts retracts)
  cases retracts with
  | refused => exact ⟨fun _ _ _ => rfl⟩
  | @retracted fact between result alive live follows =>
      refine ⟨fun {found} _ known knownAfter => ?_⟩
      have gone : (between.dropping handle).memory.contains handle = false := by
        rw [Session.contains_dropping, decide_eq_true rfl]
        rfl
      have carries : session.agenda.Carries handle between.agenda := follows.carries_of_retract
      exact (Agenda.Undisturbed.of_carries carries (.refl _ _)).states
        (whole.not_mem_of_knows gone knownAfter) known knownAfter

/-- An update disturbs only matches of the updated fact: the others outlast the time between its two
halves. -/
theorem undisturbed_of_updates {fact : Object} {failures : List Error}
    (updates : session.Updates handle fact result after failures) :
    session.agenda.Undisturbed (fun found => handle ∉ found.tuple) after.agenda := by
  cases updates with
  | refused => exact ⟨fun _ _ _ => rfl⟩
  | withdrawn alive live typed follows => exact .of_carries follows.carries_of_retract (.refl _ _)
  | replaced alive live typed first second =>
      exact .of_carries first.carries_of_retract second.carries_of_assert

end Session

namespace KnowledgeBase

variable {base : KnowledgeBase} {config : SessionConfig}

/-- Insertions, retractions and updates that succeed leave every match that is tracked before and
after in its state, whatever the globals and the host functions are, unless it has the updated fact.
What waits afterwards under a number has waited under it before, or was not tracked before, or has
the updated fact. -/
theorem Made.undisturbed_of_visits (made : base.Made) {before : SessionRun}
    (visits : base.Visits config before.session) :
    (∀ {fact handle after}, Ends (SessionM.insert fact) before (.ok handle) after →
      before.session.agenda.Undisturbed (fun _ => True) after.session.agenda ∧
        ∀ activation ∈ after.session.agenda.pending, activation ∈ before.session.agenda.pending ∨
          before.session.agenda.knows activation.toMatch = false) ∧
      (∀ {handle fact after}, Ends (SessionM.retract handle) before (.ok fact) after →
        before.session.agenda.Undisturbed (fun _ => True) after.session.agenda ∧
          ∀ activation ∈ after.session.agenda.pending, activation ∈ before.session.agenda.pending ∨
            before.session.agenda.knows activation.toMatch = false) ∧
      ∀ {handle fact after}, Ends (SessionM.updateFact handle fact) before (.ok ()) after →
        before.session.agenda.Undisturbed (fun found => handle ∉ found.tuple) after.session.agenda ∧
          ∀ activation ∈ after.session.agenda.pending, activation ∈ before.session.agenda.pending ∨
            before.session.agenda.knows activation.toMatch = false ∨
            handle ∈ activation.tuple := by
  have intact := visits.intact made.proper.network.sound
  -- What waits is tracked, so it is either new or as it was.
  have waits : ∀ {failures : List Error} {after : Session} {spared : Match → Prop},
      before.session.Step failures after →
      before.session.agenda.Undisturbed spared after.agenda →
      ∀ activation ∈ after.agenda.pending, spared activation.toMatch →
        activation ∈ before.session.agenda.pending ∨
          before.session.agenda.knows activation.toMatch = false := by
    intro failures after spared step undisturbed activation member isSpared
    have whole := intact.step step
    cases known : before.session.agenda.knows activation.toMatch with
    | false => exact .inr rfl
    | true =>
        exact .inl ((undisturbed.mem_pending intact.consistent whole.consistent isSpared known
          (whole.knows_pending member)).mp member)
  refine ⟨fun run => ?_, fun run => ?_, fun {handle fact after} run => ?_⟩
  · obtain ⟨failures, inserts, -⟩ := SessionM.ends_insert run
    have undisturbed := intact.undisturbed_of_inserts inserts
    exact ⟨undisturbed, fun activation member =>
      waits (.inserts inserts) undisturbed activation member trivial⟩
  · obtain ⟨failures, retracts, -⟩ := SessionM.ends_retract run
    have undisturbed := intact.undisturbed_of_retracts retracts
    exact ⟨undisturbed, fun activation member =>
      waits (.retracts retracts) undisturbed activation member trivial⟩
  · obtain ⟨failures, updates, -⟩ := SessionM.ends_updateFact run
    have undisturbed := Session.undisturbed_of_updates updates
    refine ⟨undisturbed, fun activation member => ?_⟩
    by_cases within : handle ∈ activation.tuple
    · exact .inr (.inr within)
    · exact (waits (.updates updates) undisturbed activation member within).imp_right .inl

end KnowledgeBase

namespace Sensors

/-- The rules for a reading have fired; then came a second one. -/
def second : SessionRun :=
  asking (.insert (reading 7)) (asking (.fire none) (asking (.insert (reading 5)) opened))

/-- The second reading is replaced, with the result. -/
def replaced : Except Error Unit × SessionRun :=
  (SessionM.updateFact 2 (reading 8)).run.run second

private theorem replaced_ok : replaced.1 = .ok () := by
  have succeeds : replaced.1.toOption.isSome = true := by decide +kernel
  cases result : replaced.1 with
  | error error =>
      rw [result] at succeeds
      cases succeeds
  | ok => rfl

/-- The match of the first reading that has fired is as it was, and the one of the second waits
under a new number. -/
theorem replaced_undisturbed : base.Made ∧ base.Visits {} second.session ∧
    Ends (SessionM.updateFact 2 (reading 8)) second (.ok ()) replaced.2 ∧
    second.session.agenda.settled.map (fun entry => entry.1.tuple) = [[1], [1]] ∧
    second.session.agenda.pending.map (fun next => (next.tuple, next.sequence)) = [([2], 3)] ∧
    replaced.2.session.agenda.pending.map (fun next => (next.tuple, next.sequence)) = [([2], 4)] ∧
    second.session.agenda.Undisturbed (fun found => 2 ∉ found.tuple) replaced.2.session.agenda := by
  have visits : base.Visits {} second.session :=
    asking_visits (asking_visits (asking_visits opened_visits))
  have run : Ends (SessionM.updateFact 2 (reading 8)) second (.ok ()) replaced.2 :=
    replaced_ok ▸ ends_run (SessionM.updateFact 2 (reading 8)) second
  exact ⟨made, visits, run, by decide +kernel, by decide +kernel, by decide +kernel,
    ((KnowledgeBase.Made.undisturbed_of_visits made visits).2.2 run).1⟩

end Sensors

end Rete
