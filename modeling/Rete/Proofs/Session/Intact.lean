import Rete.Proofs.Session.Requests

/-!
# What every session keeps

However requests end, the memories of a session are intact, its facts have handles below the next
one, and its queue holds the waiting matches (`Session.Intact`). Every step of a request keeps this
(`Session.Intact.step`), and a new session has it (`Session.Intact.new`).
-/

namespace Rete

open Matching

namespace Matching

variable {network : Network} {base other : Agenda} {facts : Facts} {state after : Matching}

/-- The same memories are intact with an agenda that tracks no other matches. -/
theorem Intact.transfer (intact : Intact network base facts state)
    (memory : after.memory = state.memory)
    (known : ∀ {found}, (after.agenda other).knows found = true →
      (state.agenda base).knows found = true) :
    Intact network other facts after where
  coherent := by
    refine intact.coherent.transfer (by rw [memory])
      (token_cell_of_memory network base other memory)
      (blocked_cell_of_memory network base other memory) known fun {id fact} stands => ?_
    rw [memory]
    exact stands
  layered := by
    rw [memory]
    exact intact.layered

end Matching

/-! ## The next handle -/

namespace WorkingMemory

/-- Live facts have handles below the next one. -/
structure Numbered (memory : WorkingMemory) : Prop where
  below : ∀ {handle}, memory.contains handle = true → handle < memory.nextHandle

namespace Numbered

variable {memory after : WorkingMemory}

/-- Without facts, no handle is in use. -/
theorem of_empty (facts : memory.facts = ∅) : memory.Numbered where
  below live := by
    rw [contains, facts] at live
    cases live

/-- A higher counter does no harm. -/
theorem of_facts (numbered : memory.Numbered) (facts : after.facts = memory.facts)
    (next : memory.nextHandle ≤ after.nextHandle) : after.Numbered where
  below live := by
    rw [contains, facts] at live
    exact Nat.lt_of_lt_of_le (numbered.below live) next

/-- A fact that is put moves the counter past its handle. -/
theorem put (numbered : memory.Numbered) (handle : Handle) (fact : Object) :
    (memory.put handle fact).Numbered where
  below {other} live := by
    change other < max memory.nextHandle (handle + 1)
    rw [contains, WorkingMemory.put, SortedMap.contains_insert, Bool.or_eq_true,
      decide_eq_true_eq] at live
    rcases live with rfl | live
    · exact Nat.lt_of_lt_of_le (Nat.lt_succ_self _) (Nat.le_max_right ..)
    · exact Nat.lt_of_lt_of_le (numbered.below live) (Nat.le_max_left ..)

/-- Removing a fact does not put the counter back. -/
theorem remove (numbered : memory.Numbered) (handle : Handle) :
    (memory.remove handle).Numbered where
  below live := by
    rw [contains, WorkingMemory.remove, SortedMap.contains_erase, Bool.and_eq_true] at live
    exact numbered.below live.2

end Numbered

end WorkingMemory

/-! ## Intact sessions -/

namespace Session

/-- What holds of a session whatever was asked of it. -/
structure Intact (session : Session) : Prop where
  sound : session.network.Sound
  matched : Matching.Intact session.network session.agenda session.memory.facts
    { memory := session.matched }
  below : ∀ {handle}, session.memory.contains handle = true → handle < session.memory.nextHandle
  consistent : session.agenda.Consistent

/-- A node holds a fact. -/
def Holds (session : Session) (handle : Handle) : Prop :=
  ∃ id, (session.matched.factsAt id).contains handle = true

variable {session after : Session} {handle : Handle} {fact : Object}

namespace Intact

variable (intact : session.Intact)

include intact

/-- What is held is live. -/
theorem live (holds : session.Holds handle) : session.memory.contains handle = true := by
  obtain ⟨id, held⟩ := holds
  exact intact.matched.layered.live intact.sound.accounted held

private theorem numbered : session.memory.Numbered := ⟨intact.below⟩

/-- The next handle is not in use. -/
theorem not_contains_nextHandle : session.memory.contains session.memory.nextHandle = false :=
  Bool.eq_false_iff.mpr fun live => Nat.lt_irrefl _ (intact.below live)

/-- The session stays intact when the agenda changes but tracks no other matches. -/
theorem withAgenda {agenda : Agenda} (consistent : agenda.Consistent)
    (known : ∀ {found}, agenda.knows found = true → session.agenda.knows found = true) :
    Intact { session with agenda } where
  sound := intact.sound
  matched := intact.matched.transfer rfl known
  below := intact.below
  consistent := consistent

/-- Facts that are not held make no difference. -/
theorem withMemory {memory : WorkingMemory}
    (below : ∀ {handle}, memory.contains handle = true → handle < memory.nextHandle)
    (same : ∀ {handle}, session.Holds handle →
      memory.facts.find? handle = session.memory.facts.find? handle) :
    (session.withMemory memory).Intact where
  sound := intact.sound
  matched := ⟨intact.matched.coherent, intact.matched.layered.congr fun held => same ⟨_, held⟩⟩
  below := below
  consistent := intact.consistent

private theorem putting {memory : WorkingMemory} (nowhere : ¬ session.Holds handle)
    (facts : memory.facts = session.memory.facts)
    (next : session.memory.nextHandle ≤ memory.nextHandle) (fact : Object) :
    (session.withMemory (memory.put handle fact)).Intact := by
  have numbered : memory.Numbered := intact.numbered.of_facts facts next
  refine intact.withMemory (numbered.put handle fact).below fun {other} held => ?_
  change (memory.facts.insert handle fact).find? other = _
  rw [SortedMap.find?_insert_eq, if_neg, facts]
  rintro rfl
  exact nowhere held

/-- A new fact is held nowhere before it is sent down. -/
theorem storing (fact : Object) : (session.storing fact).Intact := by
  refine intact.putting (fun held => ?_) (rfl : session.memory.allocate.2.facts = _)
    (Nat.le_succ _) fact
  exact Bool.false_ne_true (intact.not_contains_nextHandle.symm.trans (intact.live held))

/-- A fact that the network does not hold may be replaced. -/
theorem replacing (nowhere : ¬ session.Holds handle) (fact : Object) :
    (session.replacing handle fact).Intact :=
  intact.putting nowhere rfl (Nat.le_refl _) fact

private theorem dropping (nowhere : ¬ session.Holds handle) : (session.dropping handle).Intact := by
  refine intact.withMemory (intact.numbered.remove handle).below fun {other} held => ?_
  change (session.memory.facts.erase handle).find? other = _
  rw [SortedMap.find?_erase_eq, if_neg]
  rintro rfl
  exact nowhere held

/-- A session that followed a change is intact if the memories are. -/
theorem following {matching : Matching}
    (matched : Matching.Intact session.network session.agenda session.memory.facts matching) :
    (session.following matching).Intact where
  sound := intact.sound
  matched := matched.transfer rfl fun known => known
  below := intact.below
  consistent := intact.consistent.followAll matching.changes

/-- Following a fact that comes in leaves the session intact, even if it fails. -/
theorem assert {result : Except Error Unit}
    (follows : session.Follows (MatchM.assert · · handle) result after) : after.Intact := by
  obtain ⟨matching, run, rfl⟩ := follows
  exact intact.following (assert_follows intact.sound intact.matched run).1

/-- A fact that was taken back is held nowhere. -/
theorem retract {result : Except Error Unit}
    (follows : session.Follows (MatchM.retract · · handle) result after) :
    after.Intact ∧ ¬ after.Holds handle := by
  obtain ⟨matching, run, rfl⟩ := follows
  obtain ⟨matched, nowhere, -⟩ := retract_follows intact.sound intact.matched run
  refine ⟨intact.following matched, ?_⟩
  rintro ⟨id, held⟩
  exact Bool.false_ne_true ((nowhere id).symm.trans held)

end Intact

/-- Memories that hold nothing are intact. -/
theorem Intact.of_empty (sound : session.network.Sound) (facts : session.memory.facts = ∅)
    (matched : session.matched = {}) (next : Nat)
    (agenda : session.agenda = { nextSequence := next }) : session.Intact where
  sound := sound
  matched := by
    have unheld : ∀ id tuple, ({ memory := session.matched } : Matching).cell session.network
        session.agenda id tuple = {} := by
      intro id tuple
      have unmatched : session.network.matchState? session.agenda id tuple = none := by
        cases found : session.network.matchState? session.agenda id tuple with
        | none => rfl
        | some state =>
            obtain ⟨left, terminal, -, tracked⟩ := Network.matchState?_eq_some.mp found
            rw [agenda] at tracked
            cases tracked
      rw [Matching.cell]
      simp only [matched]
      exact Cell.ext rfl rfl unmatched
    refine ⟨⟨⟨fun {id tuple} token => ?_, fun {id tuple facts} blocked => ?_,
      fun {id tuple found} tracked => ?_, fun {found} known => ?_⟩,
      fun {id tuple facts} blocked => ?_⟩, ⟨fun {id handle} held => ?_⟩⟩
    · rw [unheld] at token
      cases token
    · rw [unheld] at blocked
      cases blocked
    · rw [unheld] at tracked
      cases tracked
    · rw [agenda] at known
      cases known
    · rw [unheld] at blocked
      cases blocked
    · rw [matched] at held
      cases held
  below := (WorkingMemory.Numbered.of_empty facts).below
  consistent := agenda ▸ Agenda.consistent_empty next

/-- However a step of a request ends, the session stays intact. -/
theorem Intact.step {failures : List Error} (intact : session.Intact)
    (step : session.Step failures after) : after.Intact := by
  cases step with
  | inserts inserts =>
      cases inserts with
      | refused => exact intact
      | inserted alive typed follows => exact (intact.storing _).assert follows
      | takenBack alive typed follows back =>
          obtain ⟨taken, nowhere⟩ := ((intact.storing _).assert follows).retract back
          exact taken.dropping nowhere
  | updates updates =>
      cases updates with
      | refused => exact intact
      | withdrawn alive live typed follows => exact (intact.retract follows).1
      | replaced alive live typed first second =>
          obtain ⟨taken, nowhere⟩ := intact.retract first
          exact (taken.replacing nowhere _).assert second
  | retracts retracts =>
      cases retracts with
      | refused => exact intact
      | retracted alive live follows =>
          obtain ⟨taken, nowhere⟩ := intact.retract follows
          exact taken.dropping nowhere
  | globals => exact intact.withMemory intact.below fun _ => rfl
  | halted halted => exact ⟨intact.sound, intact.matched, intact.below, intact.consistent⟩
  | @pops next agenda popped =>
      refine intact.withAgenda (intact.consistent.pop? popped) fun {found} known => ?_
      obtain ⟨queued, rfl⟩ := Agenda.pop?_eq_some popped
      have waits := intact.consistent.queued.mp queued
      replace known : (session.agenda.states.insert next.toMatch (.settled .fired)).contains found =
        true := known
      rw [SortedMap.contains_insert, Bool.or_eq_true, decide_eq_true_eq] at known
      rcases known with rfl | before
      · exact SortedMap.contains_eq_true.mpr ⟨_, waits⟩
      · exact before
  | finishes => exact intact.withAgenda intact.consistent.finishFiring fun known => known
  | givesUp => exact .of_empty intact.sound rfl rfl session.agenda.nextSequence rfl

/-- Steps of requests keep a session intact. -/
theorem kept_intact : Kept fun session _ => session.Intact := ⟨Intact.step⟩

/-- A new session is one in which the root has passed on its token. -/
theorem follows_of_newSession {base : KnowledgeBase} {config : SessionConfig}
    (made : base.newSession config = .ok session) :
    (base.unseededSession config).Follows MatchM.seed (.ok ()) session := by
  unfold KnowledgeBase.newSession at made
  rcases seeding : SessionM.seed.on (base.unseededSession config) with ⟨result, run⟩
  rw [seeding] at made
  cases result with
  | error error => cases made
  | ok =>
      cases made
      have seeds : Ends SessionM.seed { session := base.unseededSession config } _ run := seeding
      exact (SessionM.ends_propagate seeds).1

/-- A session is intact before anything has come in. -/
theorem Intact.unseeded {base : KnowledgeBase} (sound : base.network.Sound)
    (config : SessionConfig) : (base.unseededSession config).Intact :=
  .of_empty sound rfl rfl 0 rfl

/-- When the root has passed on its token, the memories of a new session are exact. -/
theorem exact_of_seed {base : KnowledgeBase} (sound : base.network.Sound) {config : SessionConfig}
    {matching : Matching} (seeded : Ends
      (MatchM.seed base.network (base.unseededSession config).view) {} (.ok ()) matching) :
    Matching.Exact base.network {} (base.unseededSession config).view ∅ matching := by
  have start := Intact.unseeded sound config
  apply (seed_follows start.sound start.matched seeded).2 rfl rfl
  intro id kind live handle
  refine iff_of_false Bool.false_ne_true fun admitted => ?_
  cases kind with
  | objectType typeName =>
      obtain ⟨fact, isFact, -⟩ := admitted
      cases isFact
  | alpha parent test functions => exact Bool.false_ne_true admitted.1
  | join | eval | terminal => exact admitted

/-- A new session is intact. -/
theorem Intact.new {base : KnowledgeBase} (sound : base.network.Sound) {config : SessionConfig}
    (made : base.newSession config = .ok session) : session.Intact := by
  obtain ⟨matching, seeded, rfl⟩ := follows_of_newSession made
  have start := Intact.unseeded sound config
  exact start.following (seed_follows start.sound start.matched seeded).1

end Session

end Rete
