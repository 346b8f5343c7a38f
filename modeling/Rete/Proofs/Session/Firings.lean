import Rete.Proofs.Session.Admission
import Rete.Proofs.Session.Courses
import Rete.Proofs.Session.Structure

/-!
# The firing loop

A firing takes the first waiting match off the agenda and runs the consequence of its rule
(`Fires`). A turn of the loop ends it, by itself or with an error, or is a firing after which the
loop goes on (`Session.Intact.ends_fireLoop`). So a loop is a chain of firings (`Firings`) that ends
in one of the ways that `Finished` lists (`KnowledgeBase.Made.finished_of_visits`).
-/

namespace Rete

/-- The error of a firing loop in which the consequence of a rule has failed. -/
def Rule.failure (rule : Rule) (source : Error) : Error :=
  (Error.of (.consequenceFailure rule.name source)).withContext
    { source := rule.qualifiedName, frames := ["rule " ++ rule.name] }

/-- The error of a firing loop whose limit is reached while a match of a rule is next. -/
def Rule.limitReached (rule : Rule) (limit : Nat) : Error :=
  Error.of (.limitExceeded (.activations limit (some rule.qualifiedName)))

namespace SessionRun

/-- A match was taken off the agenda, and its rule is about to fire. -/
def started (run : SessionRun) (agenda : Agenda) (next : Activation) (rule : Rule) :
    SessionRun where
  session := { run.session with agenda }
  events := run.events ++ [.beforeFire (.ofRule next.rule rule) next.tuple next.sequence]
  failures := run.failures

/-- What is told after a consequence has ended. -/
def closing (run : SessionRun) (next : Activation) (rule : Rule) :
    Except Error Unit → List SessionEvent
  | .error _ => []
  | .ok _ =>
    .afterFire (.ofRule next.rule rule) next.tuple :: if run.session.halted then [.halted] else []

/-- The consequence of a rule has ended. -/
def closed (run : SessionRun) (next : Activation) (rule : Rule) (outcome : Except Error Unit) :
    SessionRun where
  session := { run.session with agenda := run.session.agenda.finishFiring }
  events := run.events ++ run.closing next rule outcome
  failures := run.failures

/-- The mark of a halt is taken away. -/
def unhalted (run : SessionRun) : SessionRun :=
  { run with session := { run.session with halted := false } }

end SessionRun

/-- A rule fires on the first waiting match. -/
structure Fires (before : SessionRun) (next : Activation) (rule : Rule)
    (outcome : Except Error Unit) (after : SessionRun) : Prop where
  first : before.session.agenda.peek? = some next
  isRule : before.session.network.rule? next.rule = some rule
  /-- The consequence runs once the match is off the agenda, and ends with the outcome. -/
  runs : ∃ agenda last, before.session.agenda.pop? = some (next, agenda) ∧
    Ends (SessionM.execute rule next.tuple) (before.started agenda next rule) outcome last ∧
    after = last.closed next rule outcome

/-- Some rules have fired one after the other, each to its end, and none after a halt. -/
inductive Firings (start : SessionRun) : Nat → SessionRun → Prop
  | none : Firings start 0 start
  | more {count : Nat} {mid after : SessionRun} {next : Activation} {rule : Rule}
      (firings : Firings start count mid) (going : mid.session.halted = false)
      (fires : Fires mid next rule (.ok ()) after) : Firings start (count + 1) after

/-- A turn of the firing loop. -/
inductive Turn (budget fired : Nat) (before : SessionRun) : Except Error Nat → SessionRun → Prop
  /-- A consequence has halted the loop, or nothing waits. -/
  | rests (still : before.session.halted = true ∨ before.session.agenda.pending = []) :
      Turn budget fired before (.ok fired) before
  | limited {limit : Nat} {next : Activation} {rule : Rule}
      (going : before.session.halted = false)
      (isLimit : before.session.config.maxActivations = some limit) (reached : limit ≤ fired)
      (first : before.session.agenda.peek? = some next)
      (isRule : before.session.network.rule? next.rule = some rule) :
      Turn budget fired before (.error (rule.limitReached limit)) before
  | fails {next : Activation} {rule : Rule} {source : Error} {after : SessionRun}
      (going : before.session.halted = false)
      (below : ∀ limit ∈ before.session.config.maxActivations, fired < limit)
      (fires : Fires before next rule (.error source) after) :
      Turn budget fired before (.error (rule.failure source)) after
  | fires {next : Activation} {rule : Rule} {mid after : SessionRun} {result : Except Error Nat}
      (going : before.session.halted = false)
      (below : ∀ limit ∈ before.session.config.maxActivations, fired < limit)
      (fires : Fires before next rule (.ok ()) mid)
      (rest : Ends (SessionM.fireLoop budget (fired + 1)) mid result after) :
      Turn budget fired before result after

/-- How a firing loop with an optional budget ends. -/
inductive Finished (budget : Option Nat) (start : SessionRun) :
    Except Error Nat → SessionRun → Prop
  /-- The budget is used up, the last consequence has halted the loop, or nothing waits. -/
  | stopped {count : Nat} {after : SessionRun} (firings : Firings start count after)
      (within : ∀ most ∈ budget, count ≤ most)
      (allowed : ∀ limit ∈ start.session.config.maxActivations, count ≤ limit)
      (why : budget = some count ∨ 0 < count ∧ after.session.halted = true ∨
        after.session.agenda.pending = []) :
      Finished budget start (.ok count) after
  /-- The limit is reached while there is more to fire: the first match keeps waiting. -/
  | limited {limit : Nat} {after : SessionRun} {next : Activation} {rule : Rule}
      (firings : Firings start limit after)
      (isLimit : start.session.config.maxActivations = some limit)
      (within : ∀ most ∈ budget, limit < most) (going : after.session.halted = false)
      (first : after.session.agenda.peek? = some next)
      (isRule : after.session.network.rule? next.rule = some rule) :
      Finished budget start (.error (rule.limitReached limit)) after
  /-- A consequence has failed. If its match waits, it was found again in the meantime. -/
  | failed {count : Nat} {mid after : SessionRun} {next : Activation} {rule : Rule} {source : Error}
      (firings : Firings start count mid) (going : mid.session.halted = false)
      (within : ∀ most ∈ budget, count < most)
      (allowed : ∀ limit ∈ start.session.config.maxActivations, count < limit)
      (fires : Fires mid next rule (.error source) after)
      (anew : ∀ activation ∈ after.session.agenda.pending, activation.toMatch = next.toMatch →
        mid.session.agenda.nextSequence ≤ activation.sequence)
      (idle : after.session.Idle) :
      Finished budget start (.error (rule.failure source)) after

variable {before after : SessionRun} {next : Activation} {rule : Rule}

/-- Steps of requests keep what a session was made with. -/
theorem Session.kept_retains (start : Session) :
    Session.Kept fun session _ => start.Retains session where
  step before step := before.trans step.retains

/-! ## Turns -/

namespace SessionM

private theorem ends_fire {result : Except Error Unit} :
    Ends (fire next rule) before result after ↔
      ∃ outcome last, Ends (execute rule next.tuple) { before with events := before.events ++
          [.beforeFire (.ofRule next.rule rule) next.tuple next.sequence] } outcome last ∧
        result = outcome.mapError rule.failure ∧ after = last.closed next rule outcome := by
  unfold fire
  rw [ends_notify_bind, ends_outcome_bind]
  refine exists_congr fun outcome => exists_congr fun last => and_congr_right fun _ => ?_
  rw [finishFiring, ends_update_bind]
  cases outcome with
  | error source =>
      have same : last.closed next rule (.error source) =
          { last with session := { last.session with
            agenda := last.session.agenda.finishFiring } } :=
        congrArg (SessionRun.mk _ · _) (List.append_nil _)
      exact same ▸ ends_throw _
  | ok =>
      rw [ends_notify_bind, ends_session_bind]
      cases halted : last.session.halted with
      | true =>
          simp only [↓reduceIte, ends_notify, SessionRun.closed, SessionRun.closing, halted,
            List.append_assoc, List.cons_append, List.nil_append]
          rfl
      | false =>
          simp only [Bool.false_eq_true, ↓reduceIte, ends_pure, SessionRun.closed,
            SessionRun.closing, halted]
          rfl

private theorem ends_checkLimit_bind {α : Type} {fired : Nat} {rest : Unit → SessionM α}
    {result : Except Error α} (first : before.session.agenda.peek? = some next)
    (isRule : before.session.network.rule? next.rule = some rule) :
    Ends (checkLimit fired >>= rest) before result after ↔
      (∃ limit, before.session.config.maxActivations = some limit ∧ limit ≤ fired ∧
        result = .error (rule.limitReached limit) ∧ after = before) ∨
      (∀ limit ∈ before.session.config.maxActivations, fired < limit) ∧
        Ends (rest ()) before result after := by
  unfold checkLimit
  rw [bind_assoc, ends_session_bind]
  cases isLimit : before.session.config.maxActivations with
  | none =>
      simp only [reduceCtorEq, false_and, exists_false, false_or, Option.not_mem_none,
        false_implies, implies_true, true_and]
      exact ends_pure_bind
  | some limit =>
      simp only [first, Option.bind_some, isRule, Option.map_some, Option.some.injEq,
        exists_eq_left', Option.mem_def, forall_eq']
      by_cases reached : limit ≤ fired
      · rw [if_pos reached, ends_throw_bind]
        simp only [reached, true_and, Nat.not_lt.mpr reached, false_and, or_false]
        rfl
      · rw [if_neg reached, ends_pure_bind]
        simp only [reached, false_and, false_or, Nat.lt_of_not_le reached, true_and]

end SessionM

/-- A firing keeps what all steps of requests keep. -/
theorem Fires.kept {invariant : Session → List Error → Prop} (kept : Session.Kept invariant)
    {outcome : Except Error Unit} (fires : Fires before next rule outcome after)
    (holds : invariant before.session before.failures) :
    invariant after.session after.failures := by
  obtain ⟨agenda, last, popped, run, rfl⟩ := fires.runs
  have taken : invariant (before.started agenda next rule).session before.failures :=
    kept.quiet holds (.pops popped)
  have ran : invariant last.session last.failures :=
    (SessionM.Kept.execute kept rule next.tuple).keeps run taken
  exact kept.quiet ran .finishes

/-- A rule that fires leaves the session intact, however its consequence ends. -/
theorem Fires.intact {outcome : Except Error Unit} (fires : Fires before next rule outcome after)
    (intact : before.session.Intact) : after.session.Intact :=
  fires.kept Session.kept_intact intact

/-- Firing a rule on the match that was just taken. -/
theorem ends_fire_taken {agenda : Agenda} {result : Except Error Unit}
    (popped : before.session.agenda.pop? = some (next, agenda))
    (isRule : before.session.network.rule? next.rule = some rule) :
    Ends (SessionM.fire next rule) { before with session := { before.session with agenda } } result
        after ↔
      ∃ outcome, result = outcome.mapError rule.failure ∧ Fires before next rule outcome after := by
  rw [SessionM.ends_fire]
  constructor
  · rintro ⟨outcome, last, run, rfl, rfl⟩
    have first : before.session.agenda.peek? = some next := by
      rw [Agenda.peek?_eq_map_pop?, popped]
      rfl
    exact ⟨outcome, rfl, first, isRule, agenda, last, popped, run, rfl⟩
  · rintro ⟨outcome, rfl, -, -, other, last, poppedOther, run, rfl⟩
    cases popped.symm.trans poppedOther
    exact ⟨outcome, last, run, rfl, rfl⟩

/-- Firing a rule on the first waiting match and going on. -/
theorem Session.Intact.ends_takeNext_bind (intact : before.session.Intact) {agenda : Agenda}
    (popped : before.session.agenda.pop? = some (next, agenda))
    (isRule : before.session.network.rule? next.rule = some rule) {α : Type}
    {rest : Option (Activation × Rule) → SessionM α} {result : Except Error α} :
    Ends (SessionM.takeNext before.session.agenda.size >>= rest) before result after ↔
      Ends (rest (some (next, rule))) { before with session := { before.session with agenda } }
        result after := by
  have waiting : ∃ more, before.session.agenda.size = more + 1 := by
    refine Nat.exists_eq_add_one_of_ne_zero fun zero => ?_
    have none : before.session.agenda.pending = [] :=
      List.map_eq_nil_iff.mpr (List.eq_nil_of_length_eq_zero zero)
    cases popped.symm.trans (Agenda.pop?_eq_none.mpr none)
  obtain ⟨more, size⟩ := waiting
  rw [size]
  exact ends_bind_of_total
    (intact.ends_takeNext.mpr (.inr ⟨next, agenda, rule, popped, isRule, rfl, rfl⟩))

/-- Once the loop is halted, or nothing waits, a turn is its end. -/
theorem Turn.of_still {budget fired : Nat} {result : Except Error Nat}
    (turn : Turn budget fired before result after)
    (still : before.session.halted = true ∨ before.session.agenda.pending = []) :
    result = .ok fired ∧ after = before := by
  have spent : ∀ {next}, before.session.halted = false →
      before.session.agenda.peek? = some next → False := by
    intro next going first
    rcases still with halted | none
    · exact Bool.false_ne_true (going.symm.trans halted)
    · rw [Agenda.peek?, none] at first
      cases first
  cases turn with
  | rests => exact ⟨rfl, rfl⟩
  | limited going isLimit reached first => exact (spent going first).elim
  | fails going below fires => exact (spent going fires.first).elim
  | fires going below fires => exact (spent going fires.first).elim

/-- A turn of the firing loop is its end, or a firing after which it goes on. -/
theorem Session.Intact.ends_fireLoop (intact : before.session.Intact) {budget fired : Nat}
    {result : Except Error Nat} :
    Ends (SessionM.fireLoop (budget + 1) fired) before result after ↔
      Turn budget fired before result after := by
  unfold SessionM.fireLoop
  rw [SessionM.ends_session_bind]
  have isEmpty : before.session.agenda.isEmpty = true ↔ before.session.agenda.pending = [] :=
    List.isEmpty_iff.trans List.map_eq_nil_iff.symm
  by_cases still : before.session.halted = true ∨ before.session.agenda.pending = []
  · rw [if_pos (Bool.or_eq_true_iff.mpr (still.imp_right isEmpty.mpr)), ends_pure]
    refine ⟨?_, fun turn => turn.of_still still⟩
    rintro ⟨rfl, rfl⟩
    exact .rests still
  · rw [if_neg fun idle => still ((Bool.or_eq_true_iff.mp idle).imp_right isEmpty.mp)]
    obtain ⟨running, some⟩ := not_or.mp still
    have going : before.session.halted = false := Bool.eq_false_iff.mpr running
    obtain ⟨⟨next, agenda⟩, popped⟩ :=
      Option.ne_none_iff_exists'.mp fun none => some (Agenda.pop?_eq_none.mp none)
    have first : before.session.agenda.peek? = .some next := by
      rw [Agenda.peek?_eq_map_pop?, popped]
      rfl
    have waits := intact.consistent.mem_pending.mpr
      (intact.consistent.queued.mp (Agenda.pop?_eq_some popped).1)
    obtain ⟨rule, isRule⟩ := Option.isSome_iff_exists.mp (intact.structured.pending next waits).1
    rw [SessionM.ends_checkLimit_bind first isRule, intact.ends_takeNext_bind popped isRule]
    constructor
    · rintro (⟨limit, isLimit, reached, rfl, rfl⟩ | ⟨below, run⟩)
      · exact .limited going isLimit reached first isRule
      · rcases ends_bind.mp run with ⟨_, mid, fired, rest⟩ | ⟨error, fired, rfl⟩
        · obtain ⟨outcome, same, fires⟩ := (ends_fire_taken popped isRule).mp fired
          cases outcome with
          | error => cases same
          | ok => exact .fires going below fires rest
        · obtain ⟨outcome, same, fires⟩ := (ends_fire_taken popped isRule).mp fired
          cases outcome with
          | ok => cases same
          | error source =>
              cases same
              exact .fails going below fires
    · intro turn
      cases turn with
      | rests still' => exact absurd still' still
      | limited _ isLimit reached other isOther =>
          cases first.symm.trans other
          cases isRule.symm.trans isOther
          exact .inl ⟨_, isLimit, reached, rfl, rfl⟩
      | fails _ below fires =>
          cases first.symm.trans fires.first
          cases isRule.symm.trans fires.isRule
          exact .inr ⟨below, ends_bind.mpr (.inr ⟨_, (ends_fire_taken popped isRule).mpr
            ⟨_, rfl, fires⟩, rfl⟩)⟩
      | fires _ below fires rest =>
          cases first.symm.trans fires.first
          cases isRule.symm.trans fires.isRule
          exact .inr ⟨below, ends_bind.mpr (.inl ⟨_, _, (ends_fire_taken popped isRule).mpr
            ⟨_, rfl, fires⟩, rest⟩)⟩

/-! ## Loops -/

namespace Firings

variable {start : SessionRun} {count : Nat}

private theorem kept {invariant : Session → List Error → Prop} (kept : Session.Kept invariant)
    (firings : Firings start count after) (holds : invariant start.session start.failures) :
    invariant after.session after.failures := by
  induction firings with
  | none => exact holds
  | more _ _ fires ih => exact fires.kept kept ih

/-- Rules that fire one after the other leave the session intact. -/
theorem intact (firings : Firings start count after) (intact : start.session.Intact) :
    after.session.Intact :=
  firings.kept Session.kept_intact intact

/-- Firing does not change what the session was made with. -/
theorem retains (firings : Firings start count after) : start.session.Retains after.session :=
  firings.kept start.session.kept_retains (.refl start.session)

end Firings

/-! ## Matches that come back -/

/-- If the match of a firing waits afterwards, it was found anew. -/
theorem Fires.anew {outcome : Except Error Unit} (fires : Fires before next rule outcome after)
    (intact : after.session.Intact) : ∀ activation ∈ after.session.agenda.pending,
      activation.toMatch = next.toMatch →
        before.session.agenda.nextSequence ≤ activation.sequence := by
  intro activation waits same
  obtain ⟨agenda, last, popped, run, rfl⟩ := fires.runs
  have kept : Session.Kept fun session _ =>
      session.agenda.Anew next.toMatch before.session.agenda.nextSequence :=
    ⟨fun anew step => by
      obtain ⟨operations, course⟩ := step.exists_course
      exact course.agenda ▸ anew.performAll operations⟩
  have anew := (SessionM.Kept.execute kept rule next.tuple).keeps run (Agenda.anew_of_pop? popped)
  exact anew.pending (same ▸ intact.consistent.mem_pending.mp waits)

/-- After a firing no rule is firing. -/
theorem Fires.idle {outcome : Except Error Unit} (fires : Fires before next rule outcome after) :
    after.session.Idle := by
  obtain ⟨agenda, last, -, -, rfl⟩ := fires.runs
  rfl

/-! ## The contract of the loop -/

/-- A loop that goes on from a chain of firings ends in one of the ways that are listed. -/
theorem Firings.finished {start : SessionRun} (intact : start.session.Intact)
    {budget fired : Nat} (firings : Firings start fired before)
    (allowed : ∀ limit ∈ start.session.config.maxActivations, fired ≤ limit)
    (halts : before.session.halted = true → 0 < fired) {result : Except Error Nat}
    (run : Ends (SessionM.fireLoop budget fired) before result after) :
    Finished (some (fired + budget)) start result after := by
  induction budget generalizing fired before with
  | zero =>
      obtain ⟨rfl, rfl⟩ := (ends_pure _).mp run
      refine .stopped firings ?_ allowed (.inl rfl)
      rintro _ ⟨⟩
      exact Nat.le_refl _
  | succ budget ih =>
      have same : before.session.config = start.session.config := firings.retains.config
      have within : ∀ most ∈ some (fired + (budget + 1)), fired < most := by
        rintro _ ⟨⟩
        exact Nat.lt_add_of_pos_right (Nat.succ_pos budget)
      cases (firings.intact intact).ends_fireLoop.mp run with
      | rests still =>
          refine .stopped firings (fun most member => Nat.le_of_lt (within most member)) allowed
            (.inr (still.imp_left fun halted => ⟨halts halted, halted⟩))
      | limited going isLimit reached first isRule =>
          rw [same] at isLimit
          obtain rfl := Nat.le_antisymm reached (allowed _ isLimit)
          exact .limited firings isLimit within going first isRule
      | fails going below fires =>
          have after := fires.intact (firings.intact intact)
          exact .failed firings going within (same ▸ below) fires (fires.anew after) fires.idle
      | fires going below fires rest =>
          rw [← Nat.succ_add_eq_add_succ]
          exact ih (firings.more going fires) (same ▸ below) (fun _ => Nat.succ_pos fired) rest

/-- A request to fire goes through the loop once the mark of a halt is taken away. -/
theorem SessionM.ends_fireRules (alive : before.session.disposed = false) {budget : Option Nat}
    {result : Except Error Nat} :
    Ends (SessionM.fireRules budget) before result after ↔
      Ends (SessionM.fireLoop (budget.getD (Nat.pow 2 32)) 0) before.unhalted result after := by
  unfold SessionM.fireRules
  rw [SessionM.ends_ensureLive_bind, alive, if_neg Bool.false_ne_true]
  exact SessionM.ends_update_bind

/-- A firing loop takes no more turns than can be counted in 32 bits. -/
theorem Session.Intact.finished (intact : before.session.Intact)
    (alive : before.session.disposed = false) {budget : Option Nat} {result : Except Error Nat}
    (run : Ends (SessionM.fireRules budget) before result after) :
    Finished (some (budget.getD (Nat.pow 2 32))) before.unhalted result after := by
  rw [SessionM.ends_fireRules alive] at run
  have start : before.unhalted.session.Intact := intact.step (.halted false)
  have finished := Firings.none.finished start (fun _ _ => Nat.zero_le _)
    (fun halted => absurd halted Bool.false_ne_true) run
  rwa [Nat.zero_add] at finished

/-- A loop without a budget ends as if there were no bound, unless its firings reach the bound. -/
theorem Finished.unbounded {bound : Nat} {start : SessionRun} {result : Except Error Nat}
    (finished : Finished (some bound) start result after) :
    Finished none start result after ∨
      (∀ limit ∈ start.session.config.maxActivations, bound ≤ limit) ∧
        Firings start bound after ∧ result = .ok bound := by
  cases finished with
  | stopped firings within allowed why =>
      rcases why with full | why
      · cases full
        exact .inr ⟨allowed, firings, rfl⟩
      · exact .inl (.stopped firings (fun _ member => by cases member) allowed (.inr why))
  | limited firings isLimit within going first isRule =>
      exact .inl (.limited firings isLimit (fun _ member => by cases member) going first isRule)
  | failed firings going within allowed fires anew idle =>
      exact .inl (.failed firings going (fun _ member => by cases member) allowed fires anew idle)

/-- Every firing loop of a live session ends, after firings of the match that was first each time:
with its count, if the budget is used up, the last consequence has halted it or nothing waits; at
the limit, if there is more to fire; or where a consequence fails. Only without a budget, and a
limit that 32 bits can count, it may go on for as many firings as 32 bits can count. -/
theorem KnowledgeBase.Made.finished_of_visits {base : KnowledgeBase} (made : base.Made)
    {config : SessionConfig} (visits : base.Visits config before.session)
    (alive : before.session.disposed = false) (budget : Option Nat) :
    ∃ result after, Ends (SessionM.fireRules budget) before result after ∧
      (before.session.Idle → after.session.Idle) ∧
      (Finished budget before.unhalted result after ∨
        budget = none ∧
          (∀ limit ∈ before.session.config.maxActivations, Nat.pow 2 32 ≤ limit) ∧
          Firings before.unhalted (Nat.pow 2 32) after ∧ result = .ok (Nat.pow 2 32)) := by
  obtain ⟨result, after, run⟩ :
      ∃ result after, Ends (SessionM.fireRules budget) before result after :=
    ⟨_, _, ends_run _ _⟩
  refine ⟨result, after, run, (SessionM.fireRules_resting budget).keeps run, ?_⟩
  have finished := (visits.intact made.proper.network.sound).finished alive run
  cases budget with
  | some most => exact .inl finished
  | none => exact finished.unbounded.imp_right fun full => ⟨rfl, full⟩

namespace Sensors

/-- Two rules wait for a reading, and one of them may fire. -/
def limited : SessionRun :=
  asking (.insert (reading 5))
    { session := (base.newSession { maxActivations := some 1 }).toOption.getD default }

private theorem limited_visits : base.Visits { maxActivations := some 1 } limited.session := by
  have opened := eq_ok_getD (by decide +kernel :
    (base.newSession { maxActivations := some 1 }).toOption.isSome = true)
  let start : SessionRun :=
    { session := (base.newSession { maxActivations := some 1 }).toOption.getD default }
  have visits : base.Visits { maxActivations := some 1 } start.session := .new opened
  exact visits.perform (ends_run _ start)

/-- The limit stops the loop before the second rule. -/
theorem limited_finished : base.Made ∧
    base.Visits { maxActivations := some 1 } limited.session ∧ limited.session.disposed = false ∧
    ∃ result after, Ends (SessionM.fireRules none) limited result after ∧
      result.toOption = none ∧ after.session.agenda.pending.length = 1 ∧
      Finished none limited.unhalted result after := by
  have alive : limited.session.disposed = false := by decide +kernel
  obtain ⟨result, after, run, -, finished⟩ :=
    KnowledgeBase.Made.finished_of_visits made limited_visits alive none
  obtain ⟨stopped, one⟩ : result.toOption = none ∧ after.session.agenda.pending.length = 1 := by
    rw [(run.unique (ends_run _ _)).1, (run.unique (ends_run _ _)).2]
    exact ⟨by decide +kernel, by decide +kernel⟩
  refine ⟨made, limited_visits, alive, result, after, run, stopped, one, ?_⟩
  rcases finished with finished | ⟨-, -, -, rfl⟩
  · exact finished
  · cases stopped

end Sensors

end Rete
