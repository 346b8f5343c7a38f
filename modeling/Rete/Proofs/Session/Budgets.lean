import Rete.Proofs.Session.Firings

/-!
# Firing in parts

Without a limit, the firing loop has no memory but the session: it counts on from any number
(`Session.Intact.fireLoop_shift`), and it can be left and taken up again between two firings
(`Session.Intact.fireLoop_add`). So a budget may be spent in two requests
(`KnowledgeBase.Made.fireRules_add`).
-/

namespace Rete

/-- A result counted from a later number. -/
def countedFrom (start : Nat) (result : Except Error Nat) : Except Error Nat :=
  result.map (start + ·)

variable {before after : SessionRun}

/-! ## What firing leaves alone -/

/-- Changes of the complete matches do not give the session up. -/
theorem Session.Moves.disposed {session last : Session} (moves : session.Moves last) :
    last.disposed = session.disposed := by
  obtain ⟨changes, rematches⟩ := moves
  induction rematches with
  | rest | enters | leaves => rfl
  | trans _ _ first second => exact second.trans first

private theorem Fires.disposed {next : Activation} {rule : Rule} {outcome : Except Error Unit}
    (fires : Fires before next rule outcome after) :
    after.session.disposed = before.session.disposed := by
  obtain ⟨agenda, last, -, run, rfl⟩ := fires.runs
  have moves : (before.started agenda next rule).session.Moves last.session :=
    (SessionM.composed_moves.execute rule next.tuple).goes run
  exact moves.disposed

private theorem Firings.disposed {start : SessionRun} {count : Nat}
    (firings : Firings start count after) :
    after.session.disposed = start.session.disposed := by
  induction firings with
  | none => rfl
  | more _ _ fires ih => exact fires.disposed.trans ih

private theorem Fires.config {next : Activation} {rule : Rule} {outcome : Except Error Unit}
    (fires : Fires before next rule outcome after) :
    after.session.config = before.session.config :=
  (fires.kept before.session.kept_retains (.refl before.session)).config

/-! ## The loop in parts -/

namespace Session.Intact

variable {result : Except Error Nat}

/-- Without a limit, what the loop does does not depend on the number it counts from. -/
theorem fireLoop_shift (intact : before.session.Intact)
    (unlimited : before.session.config.maxActivations = none) (start : Nat) {budget fired : Nat}
    (run : Ends (SessionM.fireLoop budget fired) before result after) :
    Ends (SessionM.fireLoop budget (start + fired)) before (countedFrom start result) after := by
  induction budget generalizing before fired with
  | zero =>
      obtain ⟨rfl, rfl⟩ := (ends_pure _).mp run
      exact (ends_pure _).mpr ⟨rfl, rfl⟩
  | succ budget ih =>
      have below : ∀ limit ∈ before.session.config.maxActivations, start + fired < limit :=
        fun limit isLimit => by cases unlimited.symm.trans isLimit
      refine intact.ends_fireLoop.mpr ?_
      cases intact.ends_fireLoop.mp run with
      | rests still => exact .rests still
      | limited _ isLimit => cases unlimited.symm.trans isLimit
      | fails going _ fires => exact .fails going below fires
      | fires going _ fires rest =>
          exact .fires going below fires
            (ih (fires.intact intact) (fires.config.symm ▸ unlimited) rest)

/-- Once nothing waits, any loop is at its end. -/
theorem fireLoop_of_still (intact : before.session.Intact)
    (still : before.session.halted = true ∨ before.session.agenda.pending = []) {budget fired : Nat}
    (run : Ends (SessionM.fireLoop budget fired) before result after) :
    result = .ok fired ∧ after = before := by
  cases budget with
  | zero => exact (ends_pure _).mp run
  | succ budget => exact (intact.ends_fireLoop.mp run).of_still still

/-- Without a limit, a loop that was not halted can be taken up where it ended. -/
theorem fireLoop_add (intact : before.session.Intact)
    (unlimited : before.session.config.maxActivations = none) {first second fired count : Nat}
    {mid : SessionRun} (run : Ends (SessionM.fireLoop first fired) before (.ok count) mid)
    (going : mid.session.halted = false)
    (more : Ends (SessionM.fireLoop second count) mid result after) :
    Ends (SessionM.fireLoop (first + second) fired) before result after := by
  induction first generalizing before fired with
  | zero =>
      obtain ⟨same, rfl⟩ := (ends_pure _).mp run
      cases same
      rwa [Nat.zero_add]
  | succ first ih =>
      rw [Nat.succ_add_eq_add_succ]
      refine intact.ends_fireLoop.mpr ?_
      cases intact.ends_fireLoop.mp run with
      | rests still =>
          -- The first loop has ended early, and so does any other from there.
          obtain ⟨rfl, rfl⟩ := intact.fireLoop_of_still still more
          exact .rests still
      | fires going' below fires rest =>
          exact .fires going' below fires
            (ih (fires.intact intact) (fires.config.symm ▸ unlimited) rest)

end Session.Intact

/-- A session that is not halted has no mark to take away. -/
theorem SessionRun.unhalted_eq {run : SessionRun} (going : run.session.halted = false) :
    run.unhalted = run := by
  obtain ⟨⟨_, _, _, _, _, _, _, _, _⟩, _, _⟩ := run
  cases going
  rfl

/-- Without a limit, a budget may be spent in two requests: if the first one does not end with an
error or a halt, both together leave the same session and tell the same as one request, whose result
is that of the second, counted on. -/
theorem KnowledgeBase.Made.fireRules_add {base : KnowledgeBase} (made : base.Made)
    {config : SessionConfig} (visits : base.Visits config before.session)
    (alive : before.session.disposed = false)
    (unlimited : before.session.config.maxActivations = none) {first second count : Nat}
    {mid : SessionRun} (run : Ends (SessionM.fireRules (some first)) before (.ok count) mid)
    (going : mid.session.halted = false) {result : Except Error Nat}
    (more : Ends (SessionM.fireRules (some second)) mid result after) :
    Ends (SessionM.fireRules (some (first + second))) before (countedFrom count result) after := by
  have intact := visits.intact made.proper.network.sound
  have start : before.unhalted.session.Intact := intact.step (.halted false)
  cases intact.finished alive run with
  | stopped firings =>
      have alive' : mid.session.disposed = false := firings.disposed.trans alive
      have unlimited' : mid.session.config.maxActivations = none :=
        firings.retains.config ▸ unlimited
      rw [SessionM.ends_fireRules alive] at run ⊢
      rw [SessionM.ends_fireRules alive', SessionRun.unhalted_eq going] at more
      have onward := (firings.intact start).fireLoop_shift unlimited' count more
      exact start.fireLoop_add unlimited run going onward

namespace Sensors

/-- Two rules wait for a reading. -/
def pair : SessionRun := asking (.insert (reading 5)) opened

private theorem pair_visits : base.Visits {} pair.session := asking_visits opened_visits

/-- The run after one of the waiting rules has fired. -/
def firingOnce (run : SessionRun) : SessionRun := ((SessionM.fireRules (some 1)).run.run run).2

/-- Two rules fire in two requests as they do in one. -/
theorem pair_fireRules : base.Made ∧ base.Visits {} pair.session ∧
    pair.session.disposed = false ∧ pair.session.config.maxActivations = none ∧
    ∃ mid after, Ends (SessionM.fireRules (some 1)) pair (.ok 1) mid ∧
      mid.session.halted = false ∧ Ends (SessionM.fireRules (some 1)) mid (.ok 1) after ∧
      Ends (SessionM.fireRules (some 2)) pair (.ok 2) after := by
  have alive : pair.session.disposed = false := by decide +kernel
  have unlimited : pair.session.config.maxActivations = none := by decide +kernel
  have first : Ends (SessionM.fireRules (some 1)) pair (.ok 1) (firingOnce pair) :=
    ends_of_toOption (by decide +kernel)
  have going : (firingOnce pair).session.halted = false := by decide +kernel
  have second : Ends (SessionM.fireRules (some 1)) (firingOnce pair) (.ok 1)
      (firingOnce (firingOnce pair)) := ends_of_toOption (by decide +kernel)
  have both := KnowledgeBase.Made.fireRules_add made pair_visits alive unlimited first going second
  exact ⟨made, pair_visits, alive, unlimited, _, _, first, going, second, both⟩

end Sensors

end Rete
