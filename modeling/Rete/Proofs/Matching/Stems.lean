import Rete.Proofs.Agenda.Operations
import Rete.Proofs.Matching.Cells

/-!
# Cutting out a stem

All that came of a token starts with it, and is found by a scan of an ordered map that begins at the
token and ends at the first entry with another stem. In the order of tuples, and in that of matches,
such a scan misses nothing and takes nothing else: the tokens of a node, the tuples that it holds
back and the tracked matches of a rule lose the entries with the stem, and keep all others
(`Tuple.stem_cut_exactly`).
-/

namespace Rete

universe u v

/-- A map has lost the entries of some keys, and the others are as they were. -/
structure SortedMap.Loses {κ : Type u} {ν : Type v} [Ord κ] (before : SortedMap κ ν)
    (lost : κ → Prop) (after : SortedMap κ ν) : Prop where
  gone : ∀ {key}, lost key → after.find? key = none
  kept : ∀ {key}, ¬ lost key → after.find? key = before.find? key

namespace SortedMap

variable {κ : Type u} {ν : Type v} [Ord κ] {before after : SortedMap κ ν} {lost : κ → Prop}

/-- A filter on keys loses those that do not pass. -/
theorem loses_filter [Std.LawfulEqOrd κ] {keep : κ → Bool}
    (passes : ∀ key, keep key = true ↔ ¬ lost key) (map : SortedMap κ ν) :
    map.Loses lost (map.filter fun key _ => keep key) where
  gone {key} isLost := by
    have stays : keep key = false := Bool.eq_false_iff.mpr fun keeps => (passes key).mp keeps isLost
    rw [find?_filter, stays]
    cases map.find? key <;> rfl
  kept {key} isKept := by
    rw [find?_filter, (passes key).mpr isKept]
    cases map.find? key <;> rfl

/-- What was there and is not any more is what was lost. -/
theorem Loses.iff_of_contains (loses : before.Loses lost after) {key : κ}
    (there : before.contains key = true) : after.contains key = false ↔ lost key := by
  constructor
  · intro absent
    by_contra isKept
    rw [contains, loses.kept isKept, ← contains, there] at absent
    cases absent
  · intro isLost
    rw [contains_eq_false]
    exact loses.gone isLost

end SortedMap

/-- A scan keeps the tuples that do not begin with the stem. -/
theorem Tuple.not_isPrefixOf_iff {stem tuple : Tuple} :
    (!stem.isPrefixOf tuple) = true ↔ ¬ stem <+: tuple := by
  rw [Bool.not_eq_true', ← Bool.not_eq_true, List.isPrefixOf_iff_prefix]

/-! ## The memories of a node -/

namespace NetworkMemory

/-- The tokens of a node that start with a stem are dropped, and nothing else; it is told whether
there were any. -/
structure DropsTokens (before : NetworkMemory) (id : NodeId) (stem : Tuple) (told : Bool)
    (after : NetworkMemory) : Prop where
  tokens : (before.tokensAt id).Loses (stem <+: ·) (after.tokensAt id)
  others : ∀ {other}, other ≠ id → after.tokensAt other = before.tokensAt other
  told : told = true ↔ ∃ token, (before.tokensAt id).contains token = true ∧
    (after.tokensAt id).contains token = false
  seeded : after.seeded = before.seeded
  alpha : after.alpha = before.alpha
  blockers : after.blockers = before.blockers

/-- The tuples with a stem that a node holds back are dropped, and nothing else. -/
structure DropsBlocked (before : NetworkMemory) (id : NodeId) (stem : Tuple)
    (after : NetworkMemory) : Prop where
  blocked : (before.blockedAt id).Loses (stem <+: ·) (after.blockedAt id)
  others : ∀ {other}, other ≠ id → after.blockedAt other = before.blockedAt other
  seeded : after.seeded = before.seeded
  alpha : after.alpha = before.alpha
  beta : after.beta = before.beta

private theorem loses_cutStem {ν : Type} (stem : Tuple) (map : SortedMap Tuple ν) :
    map.Loses (stem <+: ·) (cutStem stem map).2 := by
  rw [cutStem_eq]
  exact map.loses_filter fun _ => Tuple.not_isPrefixOf_iff

private theorem mem_cutStem {ν : Type} (stem : Tuple) (map : SortedMap Tuple ν)
    (entry : Tuple × ν) :
    entry ∈ (cutStem stem map).1 ↔ entry ∈ map.entries ∧ stem <+: entry.1 := by
  rw [cutStem_eq, List.mem_filter, List.isPrefixOf_iff_prefix]

private theorem dropsTokens (memory : NetworkMemory) (id : NodeId) (stem : Tuple) :
    memory.DropsTokens id stem (memory.dropTokens id stem).1 (memory.dropTokens id stem).2 := by
  have tokens : (memory.tokensAt id).Loses (stem <+: ·)
      ((memory.dropTokens id stem).2.tokensAt id) := by
    rw [tokensAt_dropTokens, if_pos rfl]
    exact SortedMap.loses_filter (fun _ => Tuple.not_isPrefixOf_iff) _
  refine ⟨tokens, fun {other} apart => ?_, ?_, seeded_dropTokens .., alpha_dropTokens ..,
    blockers_dropTokens ..⟩
  · rw [tokensAt_dropTokens, if_neg apart]
  · rw [dropTokens_fst]
    exact exists_congr fun token => and_comm.trans (and_congr_right fun there =>
      (tokens.iff_of_contains there).symm)

private theorem dropsBlocked (memory : NetworkMemory) (id : NodeId) (stem : Tuple) :
    memory.DropsBlocked id stem (memory.dropBlocked id stem) := by
  refine ⟨?_, fun {other} apart => ?_, seeded_dropBlocked .., alpha_dropBlocked ..,
    beta_dropBlocked ..⟩
  · rw [blockedAt_dropBlocked, if_pos rfl]
    exact SortedMap.loses_filter (fun _ => Tuple.not_isPrefixOf_iff) _
  · rw [blockedAt_dropBlocked, if_neg apart]

end NetworkMemory

/-! ## The agenda -/

namespace Agenda

/-- The matches of a rule with a stem are forgotten, and nothing else; those that waited are
returned, and are not in the queue any more. -/
structure Forgets (before : Agenda) (rule : RuleId) (stem : Tuple) (cancelled : List Activation)
    (after : Agenda) : Prop where
  states : before.states.Loses (fun found => found.rule = rule ∧ stem <+: found.tuple) after.states
  mem_cancelled : ∀ {activation}, activation ∈ cancelled ↔
    before.states.find? activation.toMatch = some (.pending activation.toQueueKey) ∧
      after.states.find? activation.toMatch = none
  nodup : cancelled.Nodup
  queue : before.queue.Loses (fun key => ∃ activation ∈ cancelled, activation.toQueueKey = key)
    after.queue
  nextSequence : after.nextSequence = before.nextSequence
  firing : after.firing = before.firing

private theorem loses_states_deactivate (agenda : Agenda) (rule : RuleId) (stem : Tuple) :
    agenda.states.Loses (fun found => found.rule = rule ∧ stem <+: found.tuple)
      (agenda.deactivate rule stem).2.states where
  gone isLost := by rw [find?_deactivate, if_pos (Match.isWithin_iff.mpr isLost)]
  kept isKept := by
    rw [find?_deactivate, if_neg fun within => isKept (Match.isWithin_iff.mp within)]

/-- The queue loses the places of the matches that waited. -/
theorem loses_queue_deactivate (agenda : Agenda) (rule : RuleId) (stem : Tuple) :
    agenda.queue.Loses
      (fun key => ∃ activation ∈ (agenda.deactivate rule stem).1, activation.toQueueKey = key)
      (agenda.deactivate rule stem).2.queue := by
  have look : ∀ key, (agenda.deactivate rule stem).2.queue.find? key =
      if (agenda.states.entries.filter fun entry => entry.1.isWithin rule stem).any
        (fun entry => entry.2 == .pending key) then none else agenda.queue.find? key := by
    intro key
    rw [deactivate_eq]
    exact find?_foldl_unqueue ..
  have forgotten : ∀ key, (agenda.states.entries.filter fun entry =>
      entry.1.isWithin rule stem).any (fun entry => entry.2 == .pending key) = true ↔
        ∃ activation ∈ (agenda.deactivate rule stem).1, activation.toQueueKey = key := by
    intro key
    simp only [List.any_eq_true, List.mem_filter, beq_iff_eq, mem_deactivate, Prod.exists]
    constructor
    · rintro ⟨found, state, ⟨member, within⟩, rfl⟩
      exact ⟨{ found, key with }, ⟨within, (SortedMap.mem_entries ..).mp member⟩, rfl⟩
    · rintro ⟨activation, ⟨within, waits⟩, rfl⟩
      exact ⟨_, _, ⟨(SortedMap.mem_entries ..).mpr waits, within⟩, rfl⟩
  refine ⟨fun {key} isLost => ?_, fun {key} isKept => ?_⟩
  · rw [look, if_pos ((forgotten key).mpr isLost)]
  · rw [look, if_neg fun isLost => isKept ((forgotten key).mp isLost)]

private theorem forgets_deactivate (agenda : Agenda) (rule : RuleId) (stem : Tuple) :
    agenda.Forgets rule stem (agenda.deactivate rule stem).1 (agenda.deactivate rule stem).2 := by
  have states := agenda.loses_states_deactivate rule stem
  refine ⟨states, fun {activation} => ?_, agenda.nodup_deactivate rule stem,
    agenda.loses_queue_deactivate rule stem, ?_, ?_⟩
  · rw [mem_deactivate, Match.isWithin_iff, and_comm]
    refine and_congr_right fun waits => ?_
    rw [← SortedMap.contains_eq_false]
    exact (states.iff_of_contains (SortedMap.contains_eq_true.mpr ⟨_, waits⟩)).symm
  · rw [deactivate_eq]
  · rw [deactivate_eq]

end Agenda

/-- **Cutting out a stem is exact.** Whatever the stem, also the empty one, and whatever tuples of
whatever lengths are there: a scan from the stem up to the first tuple that does not start with it
takes the entries with the stem and leaves all others, so that a node loses just the tokens, or the
tuples held back, that start with it, and tells whether it had such tokens; and the agenda forgets
just the matches of a rule that start with it, and returns those that waited. -/
theorem Tuple.stem_cut_exactly (stem : Tuple) :
    (∀ {ν : Type} (map : SortedMap Tuple ν),
      map.Loses (stem <+: ·) (NetworkMemory.cutStem stem map).2 ∧
        ∀ entry, entry ∈ (NetworkMemory.cutStem stem map).1 ↔
          entry ∈ map.entries ∧ stem <+: entry.1) ∧
    (∀ (memory : NetworkMemory) (id : NodeId),
      memory.DropsTokens id stem (memory.dropTokens id stem).1 (memory.dropTokens id stem).2 ∧
        memory.DropsBlocked id stem (memory.dropBlocked id stem)) ∧
    ∀ (agenda : Agenda) (rule : RuleId), agenda.Forgets rule stem (agenda.deactivate rule stem).1
      (agenda.deactivate rule stem).2 :=
  ⟨fun map => ⟨NetworkMemory.loses_cutStem stem map, NetworkMemory.mem_cutStem stem map⟩,
    fun memory id => ⟨memory.dropsTokens id stem, memory.dropsBlocked id stem⟩,
    fun agenda rule => agenda.forgets_deactivate rule stem⟩

-- The stem itself has it, and so has what is longer, wherever it stands among the others.
example :
    let tuples : SortedSet Tuple := .ofList [[2], [1, 3, 2], [], [12], [1], [1, 2]]
    (NetworkMemory.cutStem [1] tuples).1.map Prod.fst = [[1], [1, 2], [1, 3, 2]] ∧
      (NetworkMemory.cutStem [1] tuples).2.keys = [[], [2], [12]] := by decide

end Rete
