import Rete.Agenda
import Rete.Network.Propagation
import Rete.Proofs.SortedMap

/-!
# What the agenda tracks

The matches of a rule with a common stem are a segment of the tracked matches, so that forgetting
them is a filter (`find?_deactivate`). The queue holds the waiting matches, each under its own
number (`Agenda.Consistent`), in every agenda that comes of the operations on it. An agenda follows
the changes of the complete matches one by one (`Agenda.follow`).
-/

namespace Rete

/-- Tuples that start with a stem stand side by side. -/
theorem Tuple.segment (stem : Tuple) :
    SortedMap.Segment stem fun tuple : Tuple => stem.isPrefixOf tuple where
  from_start {tuple} starts := by
    obtain ⟨rest, rfl⟩ := List.isPrefixOf_iff_prefix.mp starts
    clear starts
    induction stem with
    | nil =>
        intro less
        cases rest <;> cases less
    | cons head stem ih =>
        intro less
        refine ih ?_
        simpa only [List.cons_append, List.compare_cons_cons, Std.ReflOrd.compare_self,
          Ordering.eq_then] using less
  no_gap {tuple later} less notBefore starts := by
    obtain ⟨rest, rfl⟩ := List.isPrefixOf_iff_prefix.mp starts
    rw [List.isPrefixOf_iff_prefix]
    clear starts
    induction stem generalizing tuple with
    | nil => exact List.nil_prefix
    | cons head stem ih =>
        cases tuple with
        | nil => exact absurd rfl notBefore
        | cons first tuple =>
            simp only [List.cons_append, List.compare_cons_cons] at less notBefore
            -- The first handle is neither above nor below that of the stem.
            cases order : compare first head with
            | lt => simp only [order, Ordering.lt_then, ne_eq, not_true_eq_false] at notBefore
            | gt => simp only [order, Ordering.gt_then, reduceCtorEq] at less
            | eq =>
                cases Std.LawfulEqOrd.eq_of_compare order
                simp only [order, Ordering.eq_then] at less notBefore
                exact List.cons_prefix_cons.mpr ⟨rfl, ih notBefore less⟩

namespace Match

/-- A match lies within a stem exactly if it is one of the rule whose tuple the stem begins. -/
theorem isWithin_iff {found : Match} {rule : RuleId} {stem : Tuple} :
    found.isWithin rule stem = true ↔ found.rule = rule ∧ stem <+: found.tuple := by
  rw [isWithin, Bool.and_eq_true, beq_iff_eq, List.isPrefixOf_iff_prefix]

/-- Matches of a rule with a common stem stand side by side. -/
theorem segment (rule : RuleId) (stem : Tuple) :
    SortedMap.Segment (⟨rule, stem⟩ : Match) fun found => found.isWithin rule stem := by
  have order : ∀ first second : Match, compare first second =
      (compare first.rule second.rule).then (compare first.tuple second.tuple) := fun _ _ => rfl
  refine ⟨fun {found} within => ?_, fun {found later} less notBefore within => ?_⟩
  · obtain ⟨rfl, starts⟩ := isWithin_iff.mp within
    rw [order, Std.ReflOrd.compare_self, Ordering.eq_then]
    exact (Tuple.segment stem).from_start (List.isPrefixOf_iff_prefix.mpr starts)
  · obtain ⟨rfl, starts⟩ := isWithin_iff.mp within
    rw [order] at less notBefore
    cases rules : compare found.rule later.rule with
    | lt => simp only [rules, Ordering.lt_then, ne_eq, not_true_eq_false] at notBefore
    | gt => simp only [rules, Ordering.gt_then, reduceCtorEq] at less
    | eq =>
        simp only [rules, Ordering.eq_then] at less notBefore
        exact isWithin_iff.mpr ⟨Std.LawfulEqOrd.eq_of_compare rules,
          List.isPrefixOf_iff_prefix.mp ((Tuple.segment stem).no_gap less notBefore
            (List.isPrefixOf_iff_prefix.mpr starts))⟩

end Match

namespace Agenda

variable {agenda after : Agenda}

/-- A match is unknown exactly if it has no state. -/
theorem knows_eq_false {found : Match} :
    agenda.knows found = false ↔ agenda.states.find? found = none :=
  SortedMap.contains_eq_false

/-! ## Forgetting matches -/

/-- Deactivating drops exactly the matches within the stem, from the states and from the queue. -/
theorem deactivate_eq (agenda : Agenda) (rule : RuleId) (stem : Tuple) :
    agenda.deactivate rule stem =
      let forgotten := agenda.states.entries.filter fun entry => entry.1.isWithin rule stem
      (forgotten.filterMap fun (found, state) =>
          match state with
          | .pending key => some { found, key with }
          | .settled _ => none,
        { agenda with
          states := agenda.states.filter fun found _ => !found.isWithin rule stem
          queue := forgotten.foldl unqueue agenda.queue }) := by
  have cut := SortedMap.cutRange_eq_filter (Match.segment rule stem) agenda.states
  unfold deactivate
  generalize agenda.states.cutRange ⟨rule, stem⟩ (·.isWithin rule stem) = parts at cut ⊢
  subst cut
  rfl

/-- Matches with the stem are not tracked any more, and the others as before. -/
theorem find?_deactivate (agenda : Agenda) (rule : RuleId) (stem : Tuple) (found : Match) :
    (agenda.deactivate rule stem).2.states.find? found =
      if found.isWithin rule stem then none else agenda.states.find? found := by
  simp only [deactivate_eq, SortedMap.find?_filter]
  cases found.isWithin rule stem <;> cases agenda.states.find? found <;> rfl

/-- Unqueuing matches clears the places of those that waited. -/
theorem find?_foldl_unqueue (forgotten : List (Match × MatchState))
    (queue : SortedMap QueueKey Match) (key : QueueKey) :
    (forgotten.foldl unqueue queue).find? key =
      if forgotten.any (fun entry => entry.2 == .pending key) then none else queue.find? key := by
  induction forgotten generalizing queue with
  | nil => rfl
  | cons entry rest ih =>
      obtain ⟨found, state⟩ := entry
      rw [List.foldl_cons, ih, List.any_cons]
      cases state with
      | settled how =>
          have other : (MatchState.settled how == .pending key) = false := rfl
          rw [unqueue, other, Bool.false_or]
      | pending own =>
          rw [unqueue, SortedMap.find?_erase_eq]
          by_cases same : key = own
          · subst same
            simp only [beq_self_eq_true, Bool.true_or, ↓reduceIte, ite_self]
          · have other : (MatchState.pending own == .pending key) = false := by
              rw [beq_eq_false_iff_ne, ne_eq, MatchState.pending.injEq]
              exact fun equal => same equal.symm
            rw [other, Bool.false_or, if_neg same]

/-! ## Tracking a match -/

/-- What becomes of a match that is found: it is tracked already, or it is suppressed since its
no-loop rule is firing on it, or it waits under the next number. -/
theorem activate_cases (agenda : Agenda) (terminal : Terminal) (tuple : Tuple) :
    (agenda.knows ⟨terminal.rule, tuple⟩ = true ∧
      agenda.activate terminal tuple = (none, agenda)) ∨
    (agenda.states.find? ⟨terminal.rule, tuple⟩ = none ∧ terminal.noLoop = true ∧
      agenda.firing = some ⟨terminal.rule, tuple⟩ ∧
      agenda.activate terminal tuple = (none, { agenda with
        states := agenda.states.insert ⟨terminal.rule, tuple⟩ (.settled .suppressed) })) ∨
    (agenda.states.find? ⟨terminal.rule, tuple⟩ = none ∧
      agenda.activate terminal tuple = (some agenda.nextSequence, { agenda with
        queue := agenda.queue.insert ⟨terminal.salience, agenda.nextSequence⟩
          ⟨terminal.rule, tuple⟩
        states := agenda.states.insert ⟨terminal.rule, tuple⟩
          (.pending ⟨terminal.salience, agenda.nextSequence⟩)
        nextSequence := agenda.nextSequence + 1 })) := by
  cases known : agenda.knows ⟨terminal.rule, tuple⟩ with
  | true => exact .inl ⟨rfl, by simp only [activate, known, ↓reduceIte]⟩
  | false =>
      have unknown := knows_eq_false.mp known
      cases loops : terminal.noLoop && agenda.firing == some ⟨terminal.rule, tuple⟩ with
      | true =>
          obtain ⟨noLoop, firing⟩ := Bool.and_eq_true_iff.mp loops
          refine .inr (.inl ⟨unknown, noLoop, beq_iff_eq.mp firing, ?_⟩)
          simp only [activate, known, loops, Bool.false_eq_true, ↓reduceIte]
      | false =>
          refine .inr (.inr ⟨unknown, ?_⟩)
          simp only [activate, known, loops, Bool.false_eq_true, ↓reduceIte, enqueue]

/-- A match that is found is tracked afterwards; what was tracked stays as it was, and the match
gets the next number if it waits and was not tracked. -/
theorem find?_activate (agenda : Agenda) (terminal : Terminal) (tuple : Tuple) :
    ∃ state, (∀ found, (agenda.activate terminal tuple).2.states.find? found =
        if found = ⟨terminal.rule, tuple⟩ then some state else agenda.states.find? found) ∧
      (∀ old, agenda.states.find? ⟨terminal.rule, tuple⟩ = some old → state = old) ∧
      (agenda.states.find? ⟨terminal.rule, tuple⟩ = none → state = .settled .suppressed ∨
        state = .pending ⟨terminal.salience, agenda.nextSequence⟩ ∧
          (agenda.activate terminal tuple).2.nextSequence = agenda.nextSequence + 1) := by
  have inserted : ∀ (state : MatchState) (found : Match),
      (agenda.states.insert ⟨terminal.rule, tuple⟩ state).find? found =
        if found = ⟨terminal.rule, tuple⟩ then some state else agenda.states.find? found :=
    fun state found => SortedMap.find?_insert_eq ..
  rcases agenda.activate_cases terminal tuple with
    ⟨known, same⟩ | ⟨unknown, -, -, same⟩ | ⟨unknown, same⟩
  · obtain ⟨state, found⟩ := SortedMap.contains_eq_true.mp known
    refine ⟨state, fun other => ?_, fun old before => ?_, fun unknown => ?_⟩
    · rw [same]
      by_cases equal : other = ⟨terminal.rule, tuple⟩
      · rw [if_pos equal, equal, found]
      · rw [if_neg equal]
    · exact Option.some.inj (found.symm.trans before)
    · cases found.symm.trans unknown
  · refine ⟨_, fun other => by rw [same, inserted], fun old before => ?_, fun _ => .inl rfl⟩
    cases unknown.symm.trans before
  · refine ⟨_, fun other => by rw [same, inserted], fun old before => ?_, fun _ => .inr ⟨rfl, ?_⟩⟩
    · cases unknown.symm.trans before
    · rw [same]

/-- Finding a match does not change which one fires. -/
theorem firing_activate (agenda : Agenda) (terminal : Terminal) (tuple : Tuple) :
    (agenda.activate terminal tuple).2.firing = agenda.firing := by
  rcases agenda.activate_cases terminal tuple with ⟨-, same⟩ | ⟨-, -, -, same⟩ | ⟨-, same⟩ <;>
    rw [same]

/-- Finding a match can only raise the next number. -/
theorem nextSequence_le_activate (agenda : Agenda) (terminal : Terminal) (tuple : Tuple) :
    agenda.nextSequence ≤ (agenda.activate terminal tuple).2.nextSequence := by
  rcases agenda.activate_cases terminal tuple with ⟨-, same⟩ | ⟨-, -, -, same⟩ | ⟨-, same⟩
  · exact Nat.le_of_eq (by rw [same])
  · exact Nat.le_of_eq (by rw [same])
  · rw [same]
    exact Nat.le_succ _

/-! ## Following changes -/

/-- The agenda after a change of the complete matches. -/
def follow (agenda : Agenda) : MatchChange → Agenda
  | .found terminal tuple => (agenda.activate terminal tuple).2
  | .lost rule stem => (agenda.deactivate rule stem).2

/-- The agenda after changes of the complete matches. -/
def followAll (agenda : Agenda) (changes : List MatchChange) : Agenda :=
  changes.foldl follow agenda

/-- Changes are followed one after the other. -/
theorem followAll_append (agenda : Agenda) (first second : List MatchChange) :
    agenda.followAll (first ++ second) = (agenda.followAll first).followAll second :=
  List.foldl_append

/-- Following the network does not change which match fires. -/
theorem firing_followAll (agenda : Agenda) (changes : List MatchChange) :
    (agenda.followAll changes).firing = agenda.firing := by
  induction changes generalizing agenda with
  | nil => rfl
  | cons change rest ih =>
      refine (ih _).trans ?_
      cases change with
      | found terminal tuple => exact agenda.firing_activate terminal tuple
      | lost rule stem => rw [follow, deactivate_eq]

private theorem nextSequence_le_follow (agenda : Agenda) (change : MatchChange) :
    agenda.nextSequence ≤ (agenda.follow change).nextSequence := by
  cases change with
  | found terminal tuple => exact agenda.nextSequence_le_activate terminal tuple
  | lost rule stem => exact Nat.le_of_eq (by rw [follow, deactivate_eq])

/-- Following the network can only raise the next number. -/
theorem nextSequence_le_followAll (agenda : Agenda) (changes : List MatchChange) :
    agenda.nextSequence ≤ (agenda.followAll changes).nextSequence := by
  induction changes generalizing agenda with
  | nil => exact Nat.le_refl _
  | cons change rest ih => exact Nat.le_trans (agenda.nextSequence_le_follow change) (ih _)

/-- A match that is tracked after a change was in its state before, or a rule is firing on it and it
is suppressed, or it waits under a new number. -/
theorem states_follow {change : MatchChange} {found : Match} {state : MatchState}
    (tracked : (agenda.follow change).states.find? found = some state) :
    agenda.states.find? found = some state ∨
      (state = .settled .suppressed ∧ agenda.firing = some found) ∨
      ∃ key, state = .pending key ∧ agenda.nextSequence ≤ key.sequence := by
  cases change with
  | found terminal tuple =>
      rw [follow] at tracked
      rcases agenda.activate_cases terminal tuple with
        ⟨-, same⟩ | ⟨-, -, firing, same⟩ | ⟨-, same⟩ <;> rw [same] at tracked
      · exact .inl tracked
      · rw [SortedMap.find?_insert_eq] at tracked
        split at tracked
        next own =>
          cases tracked
          exact .inr (.inl ⟨rfl, own ▸ firing⟩)
        next => exact .inl tracked
      · rw [SortedMap.find?_insert_eq] at tracked
        split at tracked
        next =>
          cases tracked
          exact .inr (.inr ⟨_, rfl, Nat.le_refl _⟩)
        next => exact .inl tracked
  | lost rule stem =>
      rw [follow, find?_deactivate] at tracked
      split at tracked
      · cases tracked
      · exact .inl tracked

/-- After the network was followed, a state is an earlier one, or that of a match found since. -/
theorem states_followAll {changes : List MatchChange} {found : Match} {state : MatchState}
    (tracked : (agenda.followAll changes).states.find? found = some state) :
    agenda.states.find? found = some state ∨
      (state = .settled .suppressed ∧ agenda.firing = some found) ∨
      ∃ key, state = .pending key ∧ agenda.nextSequence ≤ key.sequence := by
  induction changes generalizing agenda with
  | nil => exact .inl tracked
  | cons change rest ih =>
      rcases ih tracked with before | ⟨suppressed, firing⟩ | ⟨key, pending, from_⟩
      · exact states_follow before
      · exact .inr (.inl ⟨suppressed, (agenda.firing_followAll [change]).symm.trans firing⟩)
      · exact .inr (.inr ⟨key, pending, Nat.le_trans (agenda.nextSequence_le_follow change) from_⟩)

/-! ## While a rule fires -/

/-- A match that a no-loop rule brings back while it fires on it is suppressed. -/
theorem activate_of_noLoop {terminal : Terminal} {tuple : Tuple} (noLoop : terminal.noLoop = true)
    (firing : agenda.firing = some ⟨terminal.rule, tuple⟩)
    (unknown : agenda.states.find? ⟨terminal.rule, tuple⟩ = none) :
    agenda.activate terminal tuple = (none, { agenda with
      states := agenda.states.insert ⟨terminal.rule, tuple⟩ (.settled .suppressed) }) := by
  simp only [activate, knows_eq_false.mpr unknown, noLoop, firing, beq_self_eq_true, Bool.and_self,
    Bool.false_eq_true, ↓reduceIte]

/-- A change does not let the match wait that a no-loop rule fires on. -/
theorem rests_follow {found : Match} {change : MatchChange} (firing : agenda.firing = some found)
    (noLoop : ∀ {terminal}, change = .found terminal found.tuple → terminal.rule = found.rule →
      terminal.noLoop = true)
    (rests : ∀ key, agenda.states.find? found ≠ some (.pending key)) (key : QueueKey) :
    (agenda.follow change).states.find? found ≠ some (.pending key) := by
  intro waits
  cases change with
  | found terminal tuple =>
      rw [follow] at waits
      by_cases own : found = ⟨terminal.rule, tuple⟩
      · subst own
        rcases agenda.activate_cases terminal tuple with
          ⟨-, same⟩ | ⟨-, -, -, same⟩ | ⟨unknown, same⟩
        · rw [same] at waits
          exact rests key waits
        · rw [same, SortedMap.find?_insert_eq, if_pos rfl] at waits
          cases waits
        · cases (activate_of_noLoop (noLoop rfl rfl) firing unknown).symm.trans same
      · obtain ⟨_, states, -, -⟩ := agenda.find?_activate terminal tuple
        rw [states, if_neg own] at waits
        exact rests key waits
  | lost rule stem =>
      rw [follow, find?_deactivate] at waits
      split at waits
      · cases waits
      · exact rests key waits

/-- As long as a no-loop rule fires on a match, it does not wait. -/
theorem rests_followAll {found : Match} {changes : List MatchChange}
    (firing : agenda.firing = some found)
    (noLoop : ∀ {terminal}, .found terminal found.tuple ∈ changes → terminal.rule = found.rule →
      terminal.noLoop = true)
    (rests : ∀ key, agenda.states.find? found ≠ some (.pending key)) (key : QueueKey) :
    (agenda.followAll changes).states.find? found ≠ some (.pending key) := by
  induction changes generalizing agenda with
  | nil => exact rests key
  | cons change rest ih =>
      apply ih
      · exact (agenda.firing_followAll [change]).trans firing
      · exact fun member => noLoop (List.mem_cons_of_mem change member)
      · exact rests_follow firing (fun same => noLoop (same ▸ List.mem_cons_self)) rests

/-- A change settles no match but the one that a rule fires on. -/
theorem unsettled_follow {found : Match} {change : MatchChange}
    (other : agenda.firing ≠ some found)
    (unsettled : ∀ how, agenda.states.find? found ≠ some (.settled how)) (how : Settled) :
    (agenda.follow change).states.find? found ≠ some (.settled how) := by
  intro isSettled
  cases change with
  | found terminal tuple =>
      rw [follow] at isSettled
      rcases agenda.activate_cases terminal tuple with
        ⟨-, same⟩ | ⟨-, -, firing, same⟩ | ⟨-, same⟩ <;> rw [same] at isSettled
      · exact unsettled how isSettled
      · have apart : found ≠ ⟨terminal.rule, tuple⟩ := fun own => other (own ▸ firing)
        rw [SortedMap.find?_insert_eq, if_neg apart] at isSettled
        exact unsettled how isSettled
      · rw [SortedMap.find?_insert_eq] at isSettled
        split at isSettled
        · cases isSettled
        · exact unsettled how isSettled
  | lost rule stem =>
      rw [follow, find?_deactivate] at isSettled
      split at isSettled
      · cases isSettled
      · exact unsettled how isSettled

/-- As long as a rule fires on one match, no other is settled. -/
theorem unsettled_followAll {found : Match} (changes : List MatchChange)
    (other : agenda.firing ≠ some found)
    (unsettled : ∀ how, agenda.states.find? found ≠ some (.settled how)) (how : Settled) :
    (agenda.followAll changes).states.find? found ≠ some (.settled how) := by
  induction changes generalizing agenda with
  | nil => exact unsettled how
  | cons change rest ih =>
      apply ih
      · exact (agenda.firing_followAll [change]).symm ▸ other
      · exact unsettled_follow other unsettled

/-! ## The queue -/

/-- The queue holds the waiting matches, each under its own number. -/
structure Consistent (agenda : Agenda) : Prop where
  queued : ∀ {key found}, agenda.queue.find? key = some found ↔
    agenda.states.find? found = some (.pending key)
  below : ∀ {found key}, agenda.states.find? found = some (.pending key) →
    key.sequence < agenda.nextSequence
  distinct : ∀ {found other key otherKey}, agenda.states.find? found = some (.pending key) →
    agenda.states.find? other = some (.pending otherKey) → key.sequence = otherKey.sequence →
    found = other

/-- What the agenda reports as waiting is what its queue holds. -/
theorem mem_pending_iff {activation : Activation} : activation ∈ agenda.pending ↔
    agenda.queue.find? activation.toQueueKey = some activation.toMatch := by
  rw [← SortedMap.mem_entries]
  constructor
  · intro waits
    obtain ⟨_, member, rfl⟩ := List.mem_map.mp waits
    exact member
  · exact fun member => List.mem_map.mpr ⟨_, member, rfl⟩

/-- Waiting matches have different places. -/
theorem nodup_keys_pending (agenda : Agenda) :
    (agenda.pending.map Activation.toQueueKey).Nodup := by
  rw [pending, List.map_map]
  exact agenda.queue.nodup_keys

/-- What waits is what is tracked as waiting. -/
theorem Consistent.mem_pending (consistent : agenda.Consistent) {activation : Activation} :
    activation ∈ agenda.pending ↔
      agenda.states.find? activation.toMatch = some (.pending activation.toQueueKey) :=
  mem_pending_iff.trans consistent.queued

/-- An agenda without matches is consistent. -/
theorem consistent_empty (next : Nat) : Consistent { nextSequence := next } where
  queued := iff_of_false nofun nofun
  below := nofun
  distinct := nofun

namespace Consistent

/-- Settling a match that does not wait. -/
theorem settle (consistent : agenda.Consistent) {found : Match} (how : Settled)
    (unknown : agenda.states.find? found = none) :
    Consistent { agenda with states := agenda.states.insert found (.settled how) } := by
  have pending : ∀ other key, (agenda.states.insert found (.settled how)).find? other =
      some (.pending key) ↔ agenda.states.find? other = some (.pending key) := by
    intro other key
    rw [SortedMap.find?_insert_eq]
    by_cases same : other = found
    · simp only [same, ↓reduceIte, unknown, Option.some.injEq, reduceCtorEq]
    · rw [if_neg same]
  refine ⟨fun {key other} => ?_, fun {other key} waits => ?_,
    fun {one other key otherKey} first second => ?_⟩
  · exact consistent.queued.trans (pending other key).symm
  · exact consistent.below ((pending other key).mp waits)
  · exact consistent.distinct ((pending one key).mp first) ((pending other otherKey).mp second)

/-- A new match that waits under the next number. -/
theorem wait (consistent : agenda.Consistent) {found : Match} (salience : Int)
    (unknown : agenda.states.find? found = none) :
    Consistent { agenda with
      queue := agenda.queue.insert ⟨salience, agenda.nextSequence⟩ found
      states := agenda.states.insert found (.pending ⟨salience, agenda.nextSequence⟩)
      nextSequence := agenda.nextSequence + 1 } := by
  have pending : ∀ other key, (agenda.states.insert found
      (.pending ⟨salience, agenda.nextSequence⟩)).find? other = some (.pending key) ↔
        (other = found ∧ key = ⟨salience, agenda.nextSequence⟩) ∨
          (other ≠ found ∧ agenda.states.find? other = some (.pending key)) := by
    intro other key
    rw [SortedMap.find?_insert_eq]
    by_cases same : other = found
    · simp only [same, ↓reduceIte, Option.some.injEq, MatchState.pending.injEq, true_and, ne_eq,
        not_true_eq_false, false_and, or_false]
      exact eq_comm
    · simp only [same, ↓reduceIte, false_and, ne_eq, not_false_eq_true, true_and, false_or]
  have apart : ∀ {other key}, agenda.states.find? other = some (.pending key) →
      other ≠ found ∧ key.sequence ≠ agenda.nextSequence := by
    intro other key waits
    refine ⟨?_, Nat.ne_of_lt (consistent.below waits)⟩
    rintro rfl
    cases unknown.symm.trans waits
  refine ⟨fun {key other} => ?_, fun {other key} waits => ?_,
    fun {one other key otherKey} first second same => ?_⟩
  · rw [pending, SortedMap.find?_insert_eq]
    by_cases isKey : key = ⟨salience, agenda.nextSequence⟩
    · rw [if_pos isKey, Option.some.injEq]
      constructor
      · rintro rfl
        exact .inl ⟨rfl, isKey⟩
      · rintro (⟨rfl, -⟩ | ⟨-, waits⟩)
        · rfl
        · exact absurd (isKey ▸ rfl) (apart waits).2
    · rw [if_neg isKey]
      constructor
      · intro queued
        have waits := consistent.queued.mp queued
        exact .inr ⟨(apart waits).1, waits⟩
      · rintro (⟨-, same⟩ | ⟨-, waits⟩)
        · exact absurd same isKey
        · exact consistent.queued.mpr waits
  · rcases (pending other key).mp waits with ⟨-, rfl⟩ | ⟨-, before⟩
    · exact Nat.lt_succ_self _
    · exact Nat.lt_succ_of_lt (consistent.below before)
  · rcases (pending one key).mp first with ⟨rfl, rfl⟩ | ⟨-, early⟩ <;>
      rcases (pending other otherKey).mp second with ⟨rfl, rfl⟩ | ⟨-, late⟩
    · rfl
    · exact absurd same.symm (apart late).2
    · exact absurd same (apart early).2
    · exact consistent.distinct early late same

/-- Finding a match keeps an agenda consistent. -/
theorem activate (consistent : agenda.Consistent) (terminal : Terminal) (tuple : Tuple) :
    (agenda.activate terminal tuple).2.Consistent := by
  rcases agenda.activate_cases terminal tuple with
    ⟨-, same⟩ | ⟨unknown, -, -, same⟩ | ⟨unknown, same⟩
  · rw [same]
    exact consistent
  · rw [same]
    exact consistent.settle .suppressed unknown
  · rw [same]
    exact consistent.wait terminal.salience unknown

/-- Dropping the matches within a stem keeps an agenda consistent. -/
theorem deactivate (consistent : agenda.Consistent) (rule : RuleId) (stem : Tuple) :
    (agenda.deactivate rule stem).2.Consistent := by
  have states := agenda.find?_deactivate rule stem
  have pending : ∀ {found key}, (agenda.deactivate rule stem).2.states.find? found =
      some (.pending key) ↔
        found.isWithin rule stem = false ∧ agenda.states.find? found = some (.pending key) := by
    intro found key
    rw [states]
    cases found.isWithin rule stem <;>
      simp only [Bool.false_eq_true, ↓reduceIte, true_and, reduceCtorEq, false_and]
  have next : (agenda.deactivate rule stem).2.nextSequence = agenda.nextSequence := by
    rw [deactivate_eq]
  refine ⟨fun {key found} => ?_, fun {found key} waits => ?_,
    fun {one other key otherKey} first second => ?_⟩
  · rw [pending, deactivate_eq]
    simp only [find?_foldl_unqueue]
    have gone : ((agenda.states.entries.filter fun entry => entry.1.isWithin rule stem).any
        fun entry => entry.2 == .pending key) = true ↔
        ∃ other, other.isWithin rule stem = true ∧
          agenda.states.find? other = some (.pending key) := by
      simp only [List.any_eq_true, List.mem_filter, beq_iff_eq, Prod.exists]
      constructor
      · rintro ⟨other, state, ⟨member, within⟩, rfl⟩
        exact ⟨other, within, (SortedMap.mem_entries ..).mp member⟩
      · rintro ⟨other, within, waits⟩
        exact ⟨other, _, ⟨(SortedMap.mem_entries ..).mpr waits, within⟩, rfl⟩
    split
    · next forgotten =>
        obtain ⟨other, within, waits⟩ := gone.mp forgotten
        refine iff_of_false nofun ?_
        rintro ⟨outside, here⟩
        cases consistent.distinct waits here rfl
        exact Bool.false_ne_true (outside.symm.trans within)
    · next kept =>
        rw [consistent.queued]
        refine ⟨fun waits => ⟨Bool.eq_false_iff.mpr fun within => kept ?_, waits⟩, And.right⟩
        exact gone.mpr ⟨found, within, waits⟩
  · rw [next]
    exact consistent.below (pending.mp waits).2
  · exact consistent.distinct (pending.mp first).2 (pending.mp second).2

/-- Following the network keeps an agenda consistent. -/
theorem followAll (consistent : agenda.Consistent) (changes : List MatchChange) :
    (agenda.followAll changes).Consistent := by
  induction changes generalizing agenda with
  | nil => exact consistent
  | cons change rest ih =>
      cases change with
      | found terminal tuple => exact ih (consistent.activate terminal tuple)
      | lost rule stem => exact ih (consistent.deactivate rule stem)

/-- The end of a firing keeps an agenda consistent. -/
theorem finishFiring (consistent : agenda.Consistent) : agenda.finishFiring.Consistent :=
  ⟨consistent.queued, consistent.below, consistent.distinct⟩

end Consistent

/-- Taking the next match off the queue marks it as fired. -/
theorem pop?_eq_some {next : Activation} (popped : agenda.pop? = some (next, after)) :
    agenda.queue.find? next.toQueueKey = some next.toMatch ∧
      after = { agenda with
        queue := agenda.queue.erase next.toQueueKey
        states := agenda.states.insert next.toMatch (.settled .fired)
        firing := some next.toMatch } := by
  unfold pop? at popped
  cases entries : agenda.queue.entries with
  | nil =>
      rw [entries] at popped
      cases popped
  | cons entry rest =>
      obtain ⟨key, found⟩ := entry
      rw [entries] at popped
      cases popped
      refine ⟨(SortedMap.mem_entries ..).mp ?_, rfl⟩
      rw [entries]
      exact List.mem_cons_self

/-- The match that is taken off the queue is the first that waits. -/
theorem peek?_eq_map_pop? (agenda : Agenda) : agenda.peek? = agenda.pop?.map Prod.fst := by
  unfold peek? pending pop?
  cases agenda.queue.entries <;> rfl

/-- Taking the first waiting match off the queue keeps an agenda consistent. -/
theorem Consistent.pop? (consistent : agenda.Consistent) {next : Activation}
    (popped : agenda.pop? = some (next, after)) : after.Consistent := by
  obtain ⟨queued, rfl⟩ := pop?_eq_some popped
  have own := consistent.queued.mp queued
  have pending : ∀ {other key}, (agenda.states.insert next.toMatch (.settled .fired)).find? other =
      some (.pending key) ↔ other ≠ next.toMatch ∧
        agenda.states.find? other = some (.pending key) := by
    intro other key
    rw [SortedMap.find?_insert_eq]
    by_cases same : other = next.toMatch <;>
      simp only [same, ↓reduceIte, Option.some.injEq, reduceCtorEq, ne_eq, not_true_eq_false,
        false_and, not_false_eq_true, true_and]
  refine ⟨fun {key other} => ?_, fun {other key} waits => ?_,
    fun {one other key otherKey} first second => ?_⟩
  · rw [pending, SortedMap.find?_erase_eq]
    by_cases isKey : key = next.toQueueKey
    · rw [if_pos isKey]
      refine iff_of_false nofun ?_
      rintro ⟨different, waits⟩
      exact different (consistent.distinct waits own (isKey ▸ rfl))
    · rw [if_neg isKey, consistent.queued]
      refine (and_iff_right_of_imp fun waits => ?_).symm
      rintro rfl
      exact isKey (MatchState.pending.inj (Option.some.inj (waits.symm.trans own)))
  · exact consistent.below (pending.mp waits).2
  · exact consistent.distinct (pending.mp first).2 (pending.mp second).2

/-! ## Restoring -/

/-- What the agenda reports as settled is what has a settled state. -/
theorem mem_settled {found : Match} {how : Settled} :
    (found, how) ∈ agenda.settled ↔ agenda.states.find? found = some (.settled how) := by
  unfold settled
  rw [List.mem_filterMap, ← SortedMap.mem_entries]
  constructor
  · rintro ⟨⟨other, state⟩, member, same⟩
    cases state with
    | pending key => cases same
    | settled how =>
        cases same
        exact member
  · exact fun member => ⟨_, member, rfl⟩

/-- Settled matches are tracked. -/
theorem knows_of_mem_settled {found : Match} {how : Settled}
    (member : (found, how) ∈ agenda.settled) : agenda.knows found = true :=
  SortedMap.contains_eq_true.mpr ⟨_, mem_settled.mp member⟩

/-- No match is reported as settled twice. -/
theorem nodup_settled (agenda : Agenda) : agenda.settled.Nodup := by
  refine List.Pairwise.filterMap _ (fun first second different => ?_) agenda.states.ascending.nodup
  intro one isOne two isTwo same
  obtain ⟨found, state⟩ := first
  obtain ⟨other, otherState⟩ := second
  cases state with
  | pending key => cases isOne
  | settled how =>
      cases otherState with
      | pending key => cases isTwo
      | settled otherHow =>
          cases isOne
          cases isTwo
          cases same
          exact different rfl

/-- Some of the matches of an agenda have been put back: of those that wait, and of the others. -/
structure Part (agenda : Agenda) (waiting : List (QueueKey × Match))
    (settled : List (Match × Settled)) (part : Agenda) : Prop where
  queue : part.queue = .ofList waiting
  states : ∀ {found state}, part.states.find? found = some state ↔
    (∃ key, (key, found) ∈ waiting ∧ state = .pending key) ∨
      ∃ how, (found, how) ∈ settled ∧ state = .settled how
  next : part.nextSequence ≤ agenda.nextSequence
  idle : part.firing = none

namespace Part

variable {waiting : List (QueueKey × Match)} {settled : List (Match × Settled)} {part : Agenda}

/-- Nothing has been put back yet. -/
theorem empty (agenda : Agenda) : Part agenda [] [] {} where
  queue := rfl
  states := by
    refine iff_of_false (fun found => by cases found) ?_
    rintro (⟨key, none, -⟩ | ⟨how, none, -⟩) <;> cases none
  next := Nat.zero_le _
  idle := rfl

/-- The next match that waits can be put back. -/
theorem restorePending? (consistent : agenda.Consistent) (isPart : Part agenda waiting [] part)
    {key : QueueKey} {found : Match} {rest : List (QueueKey × Match)}
    (split : waiting ++ (key, found) :: rest = agenda.queue.entries) :
    ∃ more, part.restorePending? { found, key with } = some more ∧
      Part agenda (waiting ++ [(key, found)]) [] more := by
  have waits : ∀ {key found}, (key, found) ∈ agenda.queue.entries →
      agenda.states.find? found = some (.pending key) := fun {key found} member =>
    consistent.queued.mp ((SortedMap.mem_entries ..).mp member)
  have own : (key, found) ∈ agenda.queue.entries := by
    rw [← split]
    exact List.mem_append_right _ List.mem_cons_self
  have fresh : ∀ other, (other, found) ∉ waiting := by
    intro other member
    have before : (other, found) ∈ agenda.queue.entries := by
      rw [← split]
      exact List.mem_append_left _ member
    obtain rfl := MatchState.pending.inj (Option.some.inj ((waits before).symm.trans (waits own)))
    have distinct := split ▸ agenda.queue.ascending.nodup
    exact (List.nodup_append.mp distinct).2.2 _ member _ List.mem_cons_self rfl
  have unknown : part.knows found = false := by
    rw [knows_eq_false, Option.eq_none_iff_forall_ne_some]
    intro state tracked
    rcases isPart.states.mp tracked with ⟨other, member, -⟩ | ⟨how, none, -⟩
    · exact fresh other member
    · cases none
  refine ⟨_, by rw [Agenda.restorePending?, if_neg (Bool.eq_false_iff.mp unknown)], ?_, ?_, ?_, ?_⟩
  · change part.queue.insert key found = _
    rw [isPart.queue, SortedMap.ofList, SortedMap.ofList, List.foldl_append]
    rfl
  · intro other state
    change (part.states.insert found (.pending key)).find? other = some state ↔ _
    rw [SortedMap.find?_insert_eq]
    by_cases same : other = found
    · subst same
      rw [if_pos rfl]
      constructor
      · intro isState
        cases isState
        exact .inl ⟨key, List.mem_append_right _ List.mem_cons_self, rfl⟩
      · rintro (⟨otherKey, member, rfl⟩ | ⟨how, none, -⟩)
        · rcases List.mem_append.mp member with before | here
          · exact absurd before (fresh otherKey)
          · cases List.mem_singleton.mp here
            rfl
        · cases none
    · rw [if_neg same, isPart.states]
      refine or_congr_left (exists_congr fun otherKey => and_congr_left fun _ => ?_)
      rw [List.mem_append, List.mem_singleton, Prod.mk.injEq]
      exact (or_iff_left fun both => same both.2).symm
  · exact Nat.max_le.mpr ⟨isPart.next, consistent.below (waits own)⟩
  · exact isPart.idle

/-- The next match that does not wait can be put back. -/
theorem restoreSettled? (consistent : agenda.Consistent)
    (isPart : Part agenda agenda.queue.entries settled part) {found : Match} {how : Settled}
    {rest : List (Match × Settled)} (split : settled ++ (found, how) :: rest = agenda.settled) :
    ∃ more, part.restoreSettled? found how = some more ∧
      Part agenda agenda.queue.entries (settled ++ [(found, how)]) more := by
  have own : agenda.states.find? found = some (.settled how) := by
    rw [← mem_settled, ← split]
    exact List.mem_append_right _ List.mem_cons_self
  have notWaiting : ∀ key, (key, found) ∉ agenda.queue.entries := by
    intro key member
    cases (consistent.queued.mp ((SortedMap.mem_entries ..).mp member)).symm.trans own
  have fresh : ∀ other, (found, other) ∉ settled := by
    intro other member
    have before : (found, other) ∈ agenda.settled := by
      rw [← split]
      exact List.mem_append_left _ member
    cases (mem_settled.mp before).symm.trans own
    have distinct := split ▸ agenda.nodup_settled
    exact (List.nodup_append.mp distinct).2.2 _ member _ List.mem_cons_self rfl
  have unknown : part.knows found = false := by
    rw [knows_eq_false, Option.eq_none_iff_forall_ne_some]
    intro state tracked
    rcases isPart.states.mp tracked with ⟨key, member, -⟩ | ⟨other, member, -⟩
    · exact notWaiting key member
    · exact fresh other member
  refine ⟨{ part with states := part.states.insert found (.settled how) }, ?_, isPart.queue,
    fun {other state} => ?_, isPart.next, isPart.idle⟩
  · rw [Agenda.restoreSettled?, if_neg (Bool.eq_false_iff.mp unknown)]
  change (part.states.insert found (.settled how)).find? other = some state ↔ _
  rw [SortedMap.find?_insert_eq]
  by_cases same : other = found
  · subst same
    rw [if_pos rfl]
    constructor
    · intro isState
      cases isState
      exact .inr ⟨how, List.mem_append_right _ List.mem_cons_self, rfl⟩
    · rintro (⟨key, member, -⟩ | ⟨otherHow, member, rfl⟩)
      · exact absurd member (notWaiting key)
      · rcases List.mem_append.mp member with before | here
        · exact absurd before (fresh otherHow)
        · cases List.mem_singleton.mp here
          rfl
  · rw [if_neg same, isPart.states]
    refine or_congr_right (exists_congr fun otherHow => and_congr_left fun _ => ?_)
    rw [List.mem_append, List.mem_singleton, Prod.mk.injEq]
    exact (or_iff_left fun both => same both.1).symm

/-- An agenda of which all has been put back is the old one, unless a rule was firing. -/
theorem eq_of_all (consistent : agenda.Consistent) (idle : agenda.firing = none)
    (isPart : Part agenda agenda.queue.entries agenda.settled part) :
    part.reserve agenda.nextSequence = agenda := by
  have queue : part.queue = agenda.queue := isPart.queue.trans (SortedMap.ofList_entries _)
  have states : part.states = agenda.states := by
    refine SortedMap.ext_find? fun found => Option.ext fun state => ?_
    rw [isPart.states]
    constructor
    · rintro (⟨key, member, rfl⟩ | ⟨how, member, rfl⟩)
      · exact consistent.queued.mp ((SortedMap.mem_entries ..).mp member)
      · exact mem_settled.mp member
    · intro tracked
      cases state with
      | pending key =>
          exact .inl ⟨key, (SortedMap.mem_entries ..).mpr (consistent.queued.mpr tracked), rfl⟩
      | settled how => exact .inr ⟨how, mem_settled.mpr tracked, rfl⟩
  unfold reserve
  rw [queue, states, Nat.max_eq_right isPart.next, isPart.idle, ← idle]

end Part

end Agenda

end Rete
