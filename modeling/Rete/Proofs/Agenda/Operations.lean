import Mathlib.Data.List.Nodup
import Rete.Proofs.Agenda

/-!
# The books of the agenda

An agenda that has gone through operations keeps its books (`Agenda.InOrder`): the queue is made of
the matches that wait, under places that no two of them share; the match that is taken off it comes
before all others; forgetting a stem takes back what starts with it and nothing else; and what has
been taken off the queue does not come back before it is forgotten (`inOrder_performAll`).
-/

namespace Rete

namespace QueueKey

/-- A place comes before another one if its salience is higher, or the same and its number lower. -/
theorem compare_eq_lt {first second : QueueKey} : compare first second = .lt ↔
    second.salience < first.salience ∨
      second.salience = first.salience ∧ first.sequence < second.sequence := by
  change (compare (-first.salience) (-second.salience)).then
    (compare first.sequence second.sequence) = .lt ↔ _
  rw [Ordering.then_eq_lt, Int.compare_eq_lt, Std.LawfulEqOrd.compare_eq_iff_eq,
    Nat.compare_eq_lt, Int.neg_lt_neg_iff, Int.neg_inj, eq_comm]

end QueueKey

namespace Agenda

variable {agenda after : Agenda}

/-- What can be done with an agenda. -/
inductive Operation where
  | activate (terminal : Terminal) (tuple : Tuple)
  | deactivate (rule : RuleId) (stem : Tuple)
  | pop
  | finishFiring
  | clear
  deriving DecidableEq, Inhabited

/-- Whether an operation forgets a match that is tracked. -/
def Operation.forgets (found : Match) : Operation → Bool
  | .deactivate rule stem => found.isWithin rule stem
  | .clear => true
  | .activate .. | .pop | .finishFiring => false

/-- The agenda after an operation. -/
def perform (agenda : Agenda) : Operation → Agenda
  | .activate terminal tuple => (agenda.activate terminal tuple).2
  | .deactivate rule stem => (agenda.deactivate rule stem).2
  | .pop => (agenda.pop?.map Prod.snd).getD agenda
  | .finishFiring => agenda.finishFiring
  | .clear => agenda.clear

/-- The agenda after operations, one after the other. -/
def performAll (agenda : Agenda) (operations : List Operation) : Agenda :=
  operations.foldl perform agenda

/-- What a change of the complete matches does to an agenda. -/
def Operation.ofChange : MatchChange → Operation
  | .found terminal tuple => .activate terminal tuple
  | .lost rule stem => .deactivate rule stem

/-- Following the network is a sequence of operations on the agenda. -/
theorem followAll_eq_performAll (agenda : Agenda) (changes : List MatchChange) :
    agenda.followAll changes = agenda.performAll (changes.map Operation.ofChange) := by
  rw [performAll, List.foldl_map, followAll]
  congr
  funext agenda change
  cases change <;> rfl

/-- Operations are performed one after the other. -/
theorem performAll_append (agenda : Agenda) (first second : List Operation) :
    agenda.performAll (first ++ second) = (agenda.performAll first).performAll second :=
  List.foldl_append

/-! ## One operation -/

/-- The operation that pops has the effect of `pop?` -/
theorem perform_pop (popped : agenda.pop? = some (next, after)) : agenda.perform .pop = after := by
  rw [perform, popped]
  rfl

private theorem Consistent.perform (consistent : agenda.Consistent) (operation : Operation) :
    (agenda.perform operation).Consistent := by
  cases operation with
  | activate terminal tuple => exact consistent.activate terminal tuple
  | deactivate rule stem => exact consistent.deactivate rule stem
  | pop =>
      cases popped : agenda.pop? with
      | none =>
          rw [Agenda.perform, popped]
          exact consistent
      | some next =>
          rw [perform_pop popped]
          exact consistent.pop? popped
  | finishFiring => exact consistent.finishFiring
  | clear => exact consistent_empty agenda.nextSequence

/-- A match that does not wait any more stays as it is until it is forgotten. -/
theorem Consistent.settled_perform (consistent : agenda.Consistent) {found : Match} {how : Settled}
    (isSettled : agenda.states.find? found = some (.settled how)) {operation : Operation}
    (remembers : operation.forgets found = false) :
    (agenda.perform operation).states.find? found = some (.settled how) := by
  cases operation with
  | activate terminal tuple =>
      obtain ⟨state, states, known, -⟩ := agenda.find?_activate terminal tuple
      rw [Agenda.perform, states]
      by_cases same : found = ⟨terminal.rule, tuple⟩
      · rw [if_pos same, known _ (same ▸ isSettled)]
      · rw [if_neg same, isSettled]
  | deactivate rule stem =>
      have outside : found.isWithin rule stem = false := remembers
      rw [Agenda.perform, find?_deactivate, outside, if_neg Bool.false_ne_true, isSettled]
  | pop =>
      cases popped : agenda.pop? with
      | none =>
          rw [Agenda.perform, popped]
          exact isSettled
      | some next =>
          obtain ⟨next, rest⟩ := next
          rw [perform_pop popped]
          obtain ⟨queued, rfl⟩ := pop?_eq_some popped
          rw [SortedMap.find?_insert_eq, if_neg, isSettled]
          rintro rfl
          cases isSettled.symm.trans (consistent.queued.mp queued)
  | finishFiring => exact isSettled
  | clear => cases remembers

/-! ## What is taken and what is forgotten -/

/-- A match is taken off the queue unless none waits. -/
theorem pop?_eq_none : agenda.pop? = none ↔ agenda.pending = [] := by
  unfold pop? pending
  cases agenda.queue.entries with
  | nil => exact iff_of_true rfl rfl
  | cons => exact iff_of_false nofun nofun

/-- The match that is taken comes before the others that wait. -/
theorem first_of_pop? {next : Activation} (popped : agenda.pop? = some (next, after)) :
    next ∈ agenda.pending ∧ ∀ other ∈ agenda.pending, other.salience < next.salience ∨
      other.salience = next.salience ∧ next.sequence ≤ other.sequence := by
  have ascending := agenda.queue.ascending
  unfold pop? at popped
  unfold pending
  cases entries : agenda.queue.entries with
  | nil =>
      rw [entries] at popped
      cases popped
  | cons entry rest =>
      obtain ⟨key, found⟩ := entry
      rw [entries] at popped ascending
      cases popped
      refine ⟨List.mem_cons_self, fun other waits => ?_⟩
      rcases List.mem_cons.mp waits with rfl | later
      · exact .inr ⟨rfl, Nat.le_refl _⟩
      · obtain ⟨entry, member, rfl⟩ := List.mem_map.mp later
        have less := (List.pairwise_cons.mp ascending).1 entry member
        exact (QueueKey.compare_eq_lt.mp less).imp_right fun equal =>
          ⟨equal.1, Nat.le_of_lt equal.2⟩

/-- What forgetting a stem returns are the matches with it that waited. -/
theorem mem_deactivate (agenda : Agenda) (rule : RuleId) (stem : Tuple) {activation : Activation} :
    activation ∈ (agenda.deactivate rule stem).1 ↔
      activation.toMatch.isWithin rule stem = true ∧
        agenda.states.find? activation.toMatch = some (.pending activation.toQueueKey) := by
  simp only [deactivate_eq, List.mem_filterMap, List.mem_filter, Prod.exists]
  constructor
  · rintro ⟨found, state, ⟨member, within⟩, same⟩
    cases state with
    | settled how => cases same
    | pending key =>
        cases same
        exact ⟨within, (SortedMap.mem_entries ..).mp member⟩
  · rintro ⟨within, waits⟩
    exact ⟨_, _, ⟨(SortedMap.mem_entries ..).mpr waits, within⟩, rfl⟩

/-- Deactivating reports no match twice. -/
theorem nodup_deactivate (agenda : Agenda) (rule : RuleId) (stem : Tuple) :
    (agenda.deactivate rule stem).1.Nodup := by
  rw [deactivate_eq]
  refine List.Pairwise.filterMap _ (fun first second different => ?_)
    (agenda.states.ascending.nodup.filter _)
  intro one isOne two isTwo same
  obtain ⟨found, state⟩ := first
  obtain ⟨other, otherState⟩ := second
  cases state <;> cases otherState <;> cases isOne <;> cases isTwo
  cases same
  exact different rfl

/-- A match that is taken off the queue has fired, as far as the agenda is concerned. -/
theorem fired_of_pop? {next : Activation} (popped : agenda.pop? = some (next, after)) :
    after.states.find? next.toMatch = some (.settled .fired) := by
  obtain ⟨-, rfl⟩ := pop?_eq_some popped
  rw [SortedMap.find?_insert_eq, if_pos rfl]

/-- The match that was popped is the one that fires. -/
theorem firing_of_pop? {next : Activation} (popped : agenda.pop? = some (next, after)) :
    after.firing = some next.toMatch := by
  obtain ⟨-, rfl⟩ := pop?_eq_some popped
  rfl

/-! ## Any operations -/

/-- Operations keep an agenda consistent. -/
theorem Consistent.performAll (consistent : agenda.Consistent) (operations : List Operation) :
    (agenda.performAll operations).Consistent := by
  induction operations generalizing agenda with
  | nil => exact consistent
  | cons operation rest ih => exact ih (consistent.perform operation)

private theorem Consistent.settled_performAll (consistent : agenda.Consistent) {found : Match}
    {how : Settled} (isSettled : agenda.states.find? found = some (.settled how))
    {operations : List Operation}
    (remember : ∀ operation ∈ operations, operation.forgets found = false) :
    (agenda.performAll operations).states.find? found = some (.settled how) := by
  induction operations generalizing agenda with
  | nil => exact isSettled
  | cons operation rest ih =>
      obtain ⟨first, others⟩ := List.forall_mem_cons.mp remember
      exact ih (consistent.perform operation) (consistent.settled_perform isSettled first) others

/-! ## Matches that come back -/

/-- After an operation a match waits if it did before, or if it was not tracked and the operation
finds it. -/
theorem pending_perform {found : Match} {key : QueueKey} {operation : Operation}
    (waits : (agenda.perform operation).states.find? found = some (.pending key)) :
    agenda.states.find? found = some (.pending key) ∨
      ∃ terminal, operation = .activate terminal found.tuple ∧ terminal.rule = found.rule ∧
        agenda.states.find? found = none ∧ agenda.nextSequence = key.sequence := by
  cases operation with
  | activate terminal tuple =>
      rw [perform] at waits
      rcases agenda.activate_cases terminal tuple with
        ⟨-, same⟩ | ⟨-, -, -, same⟩ | ⟨unknown, same⟩ <;> rw [same] at waits
      · exact .inl waits
      · rw [SortedMap.find?_insert_eq] at waits
        split at waits
        · cases waits
        · exact .inl waits
      · rw [SortedMap.find?_insert_eq] at waits
        split at waits
        · next own =>
          subst own
          cases waits
          exact .inr ⟨terminal, rfl, rfl, unknown, rfl⟩
        · exact .inl waits
  | deactivate rule stem =>
      rw [perform, find?_deactivate] at waits
      split at waits
      · cases waits
      · exact .inl waits
  | pop =>
      cases popped : agenda.pop? with
      | none =>
          rw [perform, popped] at waits
          exact .inl waits
      | some next =>
          obtain ⟨next, after⟩ := next
          rw [perform_pop popped] at waits
          obtain ⟨-, rfl⟩ := pop?_eq_some popped
          rw [SortedMap.find?_insert_eq] at waits
          split at waits
          · cases waits
          · exact .inl waits
  | finishFiring => exact .inl waits
  | clear => cases waits

/-- Numbers are not given out again. -/
theorem nextSequence_le_perform (agenda : Agenda) (operation : Operation) :
    agenda.nextSequence ≤ (agenda.perform operation).nextSequence := by
  cases operation with
  | activate terminal tuple => exact agenda.nextSequence_le_activate terminal tuple
  | deactivate rule stem => exact Nat.le_of_eq (by rw [perform, deactivate_eq])
  | pop =>
      cases popped : agenda.pop? with
      | none => exact Nat.le_of_eq (by rw [perform, popped]; rfl)
      | some next =>
          obtain ⟨next, after⟩ := next
          rw [perform_pop popped]
          obtain ⟨-, rfl⟩ := pop?_eq_some popped
          exact Nat.le_refl _
  | finishFiring | clear => exact Nat.le_refl _

/-- If a match waits, it was found when the numbers below a given one had been given out. -/
structure Anew (agenda : Agenda) (found : Match) (since : Nat) : Prop where
  next : since ≤ agenda.nextSequence
  pending : ∀ {key}, agenda.states.find? found = some (.pending key) → since ≤ key.sequence

private theorem Anew.perform {found : Match} {since : Nat} (anew : agenda.Anew found since)
    (operation : Operation) : (agenda.perform operation).Anew found since := by
  refine ⟨Nat.le_trans anew.next (agenda.nextSequence_le_perform operation), fun {key} waits => ?_⟩
  rcases pending_perform waits with before | ⟨terminal, -, -, -, number⟩
  · exact anew.pending before
  · exact number ▸ anew.next

/-- A match that was found anew stays so, whatever operations follow. -/
theorem Anew.performAll {found : Match} {since : Nat} (anew : agenda.Anew found since)
    (operations : List Operation) : (agenda.performAll operations).Anew found since := by
  induction operations generalizing agenda with
  | nil => exact anew
  | cons operation rest ih => exact ih (anew.perform operation)

/-- After earlier operations, the next one finds a match that is not tracked. -/
inductive FindsAnew (agenda : Agenda) (found : Match) (earlier : List Operation) :
    List Operation → Prop
  | next {terminal : Terminal} {more : List Operation} (isRule : terminal.rule = found.rule)
      (unknown : (agenda.performAll earlier).knows found = false) :
      FindsAnew agenda found earlier (earlier ++ .activate terminal found.tuple :: more)

private theorem FindsAnew.cons {found : Match} {operation : Operation}
    {earlier operations : List Operation}
    (finds : (agenda.perform operation).FindsAnew found earlier operations) :
    agenda.FindsAnew found (operation :: earlier) (operation :: operations) := by
  obtain ⟨isRule, unknown⟩ := finds
  exact .next isRule unknown

/-- A match waits after operations if it did before, or one of them finds it anew. -/
theorem pending_performAll {found : Match} {key : QueueKey} {operations : List Operation}
    (waits : (agenda.performAll operations).states.find? found = some (.pending key)) :
    agenda.states.find? found = some (.pending key) ∨
      ∃ earlier, agenda.FindsAnew found earlier operations := by
  induction operations generalizing agenda with
  | nil => exact .inl waits
  | cons operation rest ih =>
      rcases ih waits with waits | ⟨earlier, finds⟩
      · rcases pending_perform waits with before | ⟨terminal, rfl, isRule, unknown, -⟩
        · exact .inl before
        · exact .inr ⟨[], FindsAnew.next isRule (knows_eq_false.mpr unknown)⟩
      · exact .inr ⟨operation :: earlier, finds.cons⟩

/-- A match that did not wait, and is not tracked after operations, was forgotten by one of them. -/
theorem Consistent.exists_forgets (consistent : agenda.Consistent) {found : Match} {how : Settled}
    (isSettled : agenda.states.find? found = some (.settled how)) {operations : List Operation}
    (unknown : (agenda.performAll operations).knows found = false) :
    ∃ operation ∈ operations, operation.forgets found = true := by
  by_contra none
  have stays := consistent.settled_performAll isSettled fun operation member =>
    Bool.eq_false_iff.mpr fun forgets => none ⟨operation, member, forgets⟩
  cases stays.symm.trans (knows_eq_false.mp unknown)

/-- A match that was taken off the queue waits only if it is found anew. -/
theorem anew_of_pop? {next : Activation} (popped : agenda.pop? = some (next, after)) :
    after.Anew next.toMatch agenda.nextSequence := by
  refine ⟨?_, fun {key} waits => ?_⟩
  · obtain ⟨-, rfl⟩ := pop?_eq_some popped
    exact Nat.le_refl _
  · cases waits.symm.trans (fired_of_pop? popped)

/-- The books of an agenda agree, and each operation keeps to them. -/
structure InOrder (agenda : Agenda) : Prop where
  /-- The queue is made of the matches that wait, each under the place that its state records. -/
  waiting : ∀ {activation}, activation ∈ agenda.pending ↔
    agenda.states.find? activation.toMatch = some (.pending activation.toQueueKey)
  once : (agenda.pending.map Activation.toMatch).Nodup
  numbers : (agenda.pending.map fun activation => activation.sequence).Nodup
  below : ∀ activation ∈ agenda.pending, activation.sequence < agenda.nextSequence
  /-- A match is taken off the queue unless none waits. -/
  some_or_none : (agenda.pop?.isSome = true ↔ agenda.pending ≠ [])
  /-- The match that is taken has the highest salience, and among those the lowest number; nothing
  but its own state changes. -/
  pop : ∀ {next after}, agenda.pop? = some (next, after) →
    next ∈ agenda.pending ∧
    (∀ other ∈ agenda.pending, other.salience < next.salience ∨
      other.salience = next.salience ∧ next.sequence ≤ other.sequence) ∧
    ∀ found, after.states.find? found =
      if found = next.toMatch then some (.settled .fired) else agenda.states.find? found
  /-- The matches of a rule whose tuple starts with a stem are forgotten, and those of them that
  waited are returned. -/
  deactivate : ∀ {rule stem cancelled after}, agenda.deactivate rule stem = (cancelled, after) →
    (∀ found, after.states.find? found =
      if found.rule = rule ∧ stem <+: found.tuple then none else agenda.states.find? found) ∧
    cancelled.Nodup ∧
    ∀ {activation}, activation ∈ cancelled ↔
      (activation.rule = rule ∧ stem <+: activation.tuple) ∧ activation ∈ agenda.pending
  /-- What has been taken off the queue is not taken again before it is forgotten. -/
  pop_once : ∀ {next after}, agenda.pop? = some (next, after) → ∀ {operations},
    (∀ operation ∈ operations, operation.forgets next.toMatch = false) →
    ∀ {again last}, (after.performAll operations).pop? = some (again, last) →
      again.toMatch ≠ next.toMatch

private theorem Consistent.pending_nodup (consistent : agenda.Consistent) {β : Type}
    (view : Activation → β)
    (apart : ∀ {one other : Activation},
      agenda.states.find? one.toMatch = some (.pending one.toQueueKey) →
      agenda.states.find? other.toMatch = some (.pending other.toQueueKey) →
      view one = view other → one = other) : (agenda.pending.map view).Nodup := by
  have distinct : agenda.pending.Nodup := agenda.nodup_keys_pending.of_map
  refine (List.nodup_map_iff_inj_on distinct).mpr fun one isOne other isOther same => ?_
  exact apart (consistent.mem_pending.mp isOne) (consistent.mem_pending.mp isOther) same

private theorem Consistent.inOrder (consistent : agenda.Consistent) : agenda.InOrder where
  waiting := consistent.mem_pending
  once := by
    refine consistent.pending_nodup _ fun {one other} isOne isOther same => ?_
    obtain ⟨found, key⟩ := one
    obtain ⟨_, otherKey⟩ := other
    cases same
    cases isOne.symm.trans isOther
    rfl
  numbers := by
    refine consistent.pending_nodup _ fun {one other} isOne isOther same => ?_
    obtain ⟨found, key⟩ := one
    obtain ⟨_, otherKey⟩ := other
    cases consistent.distinct isOne isOther same
    cases isOne.symm.trans isOther
    rfl
  below activation waits := consistent.below (consistent.mem_pending.mp waits)
  some_or_none := by
    rw [Option.isSome_iff_ne_none, ne_eq, pop?_eq_none]
  pop {next after} popped := by
    obtain ⟨waits, first⟩ := first_of_pop? popped
    refine ⟨waits, first, fun found => ?_⟩
    obtain ⟨-, rfl⟩ := pop?_eq_some popped
    exact SortedMap.find?_insert_eq ..
  deactivate {rule stem cancelled after} deactivated := by
    have states := agenda.find?_deactivate rule stem
    have distinct := agenda.nodup_deactivate rule stem
    have members := @mem_deactivate agenda rule stem
    rw [deactivated] at states distinct members
    refine ⟨fun found => ?_, distinct, fun {activation} => ?_⟩
    · simp only [states, Match.isWithin_iff]
    · rw [members, Match.isWithin_iff, consistent.mem_pending]
  pop_once {next after} popped {operations} remember {again last} poppedAgain := by
    have consistentAfter := consistent.pop? popped
    have stays := consistentAfter.settled_performAll (fired_of_pop? popped) remember
    have waits := (consistentAfter.performAll operations).queued.mp (pop?_eq_some poppedAgain).1
    intro same
    rw [same, stays] at waits
    cases waits

/-- Whatever an agenda has gone through, its books are in order. -/
theorem inOrder_performAll (operations : List Operation) :
    (({} : Agenda).performAll operations).InOrder :=
  ((consistent_empty 0).performAll operations).inOrder

end Agenda

end Rete
