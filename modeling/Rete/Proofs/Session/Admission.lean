import Rete.Proofs.Session.Courses
import Rete.Proofs.Session.Intact

/-!
# What a session admits

A session keeps what it was made with (`Session.Step.retains`). Its facts are of types of its
catalog, its globals are declared with types that accept their values, and handles are counted from
one (`Session.Admissible.step`). Between requests no rule is firing (`SessionM.perform_resting`).
-/

namespace Rete

namespace Session

variable {session after : Session}

/-- A session keeps what it was made with. -/
structure Retains (session after : Session) : Prop where
  catalog : after.catalog = session.catalog
  network : after.network = session.network
  globalTypes : after.globalTypes = session.globalTypes
  config : after.config = session.config

/-- What the network follows changes the memories and the agenda only. -/
theorem Follows.exists_eq {step : Network → FactView → MatchM Unit} {result : Except Error Unit}
    (follows : session.Follows step result after) :
    ∃ matching, after = session.following matching := by
  obtain ⟨matching, -, same⟩ := follows
  exact ⟨matching, same⟩

/-- A session has what it was made with itself. -/
theorem Retains.refl (session : Session) : session.Retains session := ⟨rfl, rfl, rfl, rfl⟩

/-- What two steps keep each, they keep together. -/
theorem Retains.trans {mid : Session} (first : session.Retains mid) (second : mid.Retains after) :
    session.Retains after :=
  ⟨second.catalog.trans first.catalog, second.network.trans first.network,
    second.globalTypes.trans first.globalTypes, second.config.trans first.config⟩

private theorem Moves.retains (moves : session.Moves after) : session.Retains after := by
  obtain ⟨changes, rematches⟩ := moves
  induction rematches with
  | rest | enters | leaves => exact ⟨rfl, rfl, rfl, rfl⟩
  | trans _ _ first second => exact first.trans second

/-- No step of a request changes what a session was made with. -/
theorem Step.retains {failures : List Error} (step : session.Step failures after) :
    session.Retains after := by
  cases step with
  | inserts inserts => exact (Moves.of_inserts inserts).retains
  | updates updates => exact (Moves.of_updates updates).retains
  | retracts retracts => exact (Moves.of_retracts retracts).retains
  | globals | halted | pops | finishes | givesUp => exact ⟨rfl, rfl, rfl, rfl⟩

/-- The facts are of types of the catalog, the types of the globals accept their values, and no
handle is zero. -/
structure Admissible (session : Session) : Prop where
  typed : ∀ {handle fact}, session.memory.facts.find? handle = some fact →
    session.catalog.contains fact.typeName = true
  admits : session.globalTypes.Admit session.memory.globals
  counted : 1 ≤ session.memory.nextHandle

namespace Admissible

variable (admissible : session.Admissible)

include admissible

private theorem follows {step : Network → FactView → MatchM Unit} {result : Except Error Unit}
    (follows : session.Follows step result after) : after.Admissible := by
  obtain ⟨matching, rfl⟩ := follows.exists_eq
  exact ⟨admissible.typed, admissible.admits, admissible.counted⟩

/-- Facts of a type of the catalog may be put. -/
theorem putting {memory : WorkingMemory} (facts : memory.facts = session.memory.facts)
    (globals : memory.globals = session.memory.globals) {handle : Handle} {fact : Object}
    (typed : session.catalog.contains fact.typeName = true) :
    (session.withMemory (memory.put handle fact)).Admissible := by
  refine ⟨fun {other found} isFound => ?_, ?_, ?_⟩
  · replace isFound : (memory.facts.insert handle fact).find? other = some found := isFound
    rw [SortedMap.find?_insert_eq, facts] at isFound
    split at isFound
    next =>
      cases isFound
      exact typed
    next => exact admissible.typed isFound
  · change session.globalTypes.Admit memory.globals
    rw [globals]
    exact admissible.admits
  · exact Nat.le_trans (Nat.le_add_left 1 handle) (Nat.le_max_right ..)

private theorem storing {fact : Object} (typed : session.catalog.contains fact.typeName = true) :
    (session.storing fact).Admissible :=
  admissible.putting (rfl : session.memory.allocate.2.facts = _) rfl typed

private theorem replacing (handle : Handle) {fact : Object}
    (typed : session.catalog.contains fact.typeName = true) :
    (session.replacing handle fact).Admissible :=
  admissible.putting rfl rfl typed

private theorem dropping (handle : Handle) : (session.dropping handle).Admissible := by
  refine ⟨fun {other found} isFound => ?_, admissible.admits, admissible.counted⟩
  replace isFound : (session.memory.facts.erase handle).find? other = some found := isFound
  rw [SortedMap.find?_erase_eq] at isFound
  split at isFound
  next => cases isFound
  next => exact admissible.typed isFound

/-- However a step of a request ends, the session stays admissible. -/
theorem step {failures : List Error} (step : session.Step failures after) : after.Admissible := by
  cases step with
  | inserts inserts =>
      cases inserts with
      | refused => exact admissible
      | inserted alive typed follows => exact (admissible.storing typed).follows follows
      | takenBack alive typed follows back =>
          exact (((admissible.storing typed).follows follows).follows back).dropping _
  | updates updates =>
      cases updates with
      | refused => exact admissible
      | withdrawn alive live typed follows => exact admissible.follows follows
      | replaced alive live typed first second =>
          have withdrawn := admissible.follows first
          obtain ⟨matching, rfl⟩ := first.exists_eq
          exact (withdrawn.replacing _ typed).follows second
  | retracts retracts =>
      cases retracts with
      | refused => exact admissible
      | retracted alive live follows => exact (admissible.follows follows).dropping _
  | globals admits => exact ⟨admissible.typed, admits admissible.admits, admissible.counted⟩
  | halted | pops | finishes => exact ⟨admissible.typed, admissible.admits, admissible.counted⟩
  | givesUp =>
      exact ⟨fun {handle fact} found => (by cases found), GlobalTypes.Admit.empty, Nat.le_refl 1⟩

end Admissible

/-- A new session has no facts and no globals. -/
theorem Admissible.new {base : KnowledgeBase} {config : SessionConfig}
    (made : base.newSession config = .ok session) : session.Admissible := by
  have start : (base.unseededSession config).Admissible :=
    ⟨fun {handle fact} found => (by cases found), GlobalTypes.Admit.empty, Nat.le_refl 1⟩
  exact start.follows (follows_of_newSession made)

/-! ## Firing -/

/-- No rule is firing. -/
def Idle (session : Session) : Prop := session.agenda.firing = none

/-- Changes of the complete matches do not begin a firing. -/
theorem Idle.moves (idle : session.Idle) (moves : session.Moves after) : after.Idle := by
  obtain ⟨changes, rematches⟩ := moves
  unfold Idle
  rw [rematches.agenda, Agenda.firing_followAll]
  exact idle

/-- In a new session nothing has fired. -/
theorem Idle.new {base : KnowledgeBase} {config : SessionConfig}
    (made : base.newSession config = .ok session) : session.Idle := by
  obtain ⟨matching, -, rfl⟩ := follows_of_newSession made
  exact Agenda.firing_followAll {} matching.changes

end Session

namespace SessionM

variable {before after : SessionRun}

/-- An operation after which no rule is firing, if none was before. -/
abbrev Resting {α : Type} (operation : SessionM α) : Prop :=
  Keeping (fun session _ => session.Idle) operation

private theorem resting_of_moves {α : Type} {operation : SessionM α}
    (goes : Goes (fun before after => before.session.Moves after.session) operation) :
    Resting operation where
  keeps run idle := idle.moves (goes.goes run)

private theorem dispose_resting : Resting dispose where
  keeps run idle := by
    unfold dispose at run
    rw [ends_session_bind] at run
    split at run
    · rw [ends_update_bind] at run
      exact (ends_notify.mp run).2 ▸ rfl
    · exact ((ends_pure _).mp run).2 ▸ idle

/-- Taking the next match begins a firing only if there is one. -/
theorem takeNext_idle {waiting : Nat} {result : Except Error (Option (Activation × Rule))}
    (run : Ends (takeNext waiting) before result after) (idle : before.session.Idle) :
    (∃ next, result = .ok (some next)) ∨ after.session.Idle := by
  induction waiting generalizing before with
  | zero => exact .inr (((ends_pure _).mp run).2 ▸ idle)
  | succ waiting ih =>
      unfold takeNext at run
      rw [ends_session_bind] at run
      split at run
      · exact .inr (((ends_pure _).mp run).2 ▸ idle)
      · rw [ends_update_bind, ends_session_bind] at run
        split at run
        · rw [finishFiring, ends_update_bind] at run
          exact .inr (((ends_throw _).mp run).2 ▸ rfl)
        · rw [ends_session_bind] at run
          split at run
          · exact .inl ⟨_, ((ends_pure _).mp run).1⟩
          · rw [finishFiring, ends_update_bind] at run
            exact ih run rfl

private theorem fire_idle {next : Activation} {rule : Rule} {result : Except Error Unit}
    (run : Ends (fire next rule) before result after) : after.session.Idle := by
  unfold fire at run
  rw [ends_notify_bind] at run
  obtain ⟨inner, fired, -, run⟩ := ends_outcome_bind.mp run
  rw [finishFiring, ends_update_bind] at run
  cases inner with
  | error source => exact ((ends_throw _).mp run).2 ▸ rfl
  | ok =>
      rw [ends_notify_bind, ends_session_bind] at run
      split at run
      · exact (ends_notify.mp run).2 ▸ rfl
      · exact ((ends_pure _).mp run).2 ▸ rfl

private theorem fireLoop_resting (budget fired : Nat) : Resting (fireLoop budget fired) := by
  induction budget generalizing fired with
  | zero => exact .pure _
  | succ budget ih =>
      refine Keeping.session.bind fun before => ?_
      split
      · exact .pure _
      · refine (Kept.checkLimit fired).bind fun _ => ⟨fun {start result after} run idle => ?_⟩
        rcases ends_bind.mp run with ⟨taken, between, takes, run⟩ | ⟨error, takes, -⟩
        · cases taken with
          | none =>
              obtain ⟨-, rfl⟩ := (ends_pure _).mp run
              rcases takeNext_idle takes idle with ⟨next, same⟩ | rests
              · cases same
              · exact rests
          | some step =>
              rcases ends_bind.mp run with ⟨_, last, fires, run⟩ | ⟨error, fires, -⟩
              · exact (ih (fired + 1)).keeps run (fire_idle fires)
              · exact fire_idle fires
        · rcases takeNext_idle takes idle with ⟨next, same⟩ | rests
          · cases same
          · exact rests

/-- After rules have fired, none is firing any more. -/
theorem fireRules_resting (budget : Option Nat) : Resting (fireRules budget) where
  keeps run idle := by
    unfold fireRules at run
    rw [ends_ensureLive_bind] at run
    split at run
    · exact run.2 ▸ idle
    · rw [ends_update_bind] at run
      exact (fireLoop_resting _ 0).keeps run idle

/-- After a request no rule is firing. -/
theorem perform_resting (request : Request) : Resting (perform request) := by
  have composed := composed_moves
  cases request with
  | insert fact => exact (resting_of_moves (composed.insert fact)).bind fun _ => .pure _
  | update handle fact =>
      exact (resting_of_moves (moves_updateFact handle fact)).bind fun _ => .pure _
  | retract handle => exact (resting_of_moves (composed.retract handle)).bind fun _ => .pure _
  | setGlobal name value =>
      exact (resting_of_moves (composed.setGlobal name value)).bind fun _ => .pure _
  | fire budget => exact (fireRules_resting budget).bind fun _ => .pure _
  | dispose => exact dispose_resting.bind fun _ => .pure _

end SessionM

end Rete
