import Rete.Proofs.Session.Firings

/-!
# No-loop rules

While a rule fires on a match, its consequence changes the complete matches, maybe many times and in
any order (`Fires.Through`). If the rule is a no-loop rule, its own match does not wait when the
consequence has ended, and waits again only when it is found anew later on (`Match.Spent`); all
other matches that the consequence creates wait (`KnowledgeBase.Made.spent_of_fires`).
-/

namespace Rete

variable {before after : SessionRun} {next : Activation} {rule : Rule} {outcome : Except Error Unit}

/-- A firing in which the agenda that the match was taken off follows changes of the complete
matches. -/
structure Fires.Through (before : SessionRun) (next : Activation) (rule : Rule)
    (outcome : Except Error Unit) (after : SessionRun) (taken : Agenda)
    (changes : List MatchChange) : Prop where
  popped : before.session.agenda.pop? = some (next, taken)
  /-- The changes are those that the consequence leads to, up to its end or its failure. -/
  runs : ∃ last, Ends (SessionM.execute rule next.tuple) (before.started taken next rule) outcome
    last ∧ (before.started taken next rule).session.Rematches changes last.session ∧
    after = last.closed next rule outcome

/-- What a no-loop rule leaves of a match that it has fired on, and of others, with the changes of
the complete matches in between. -/
structure Match.Spent (found : Match) (taken : Agenda) (changes : List MatchChange)
    (after : Session) : Prop where
  /-- The match does not wait. -/
  rests : found ∉ after.agenda.pending.map Activation.toMatch
  /-- If it is tracked, it has fired or is suppressed. -/
  settled : after.agenda.knows found = true →
    (found, .fired) ∈ after.agenda.settled ∨ (found, .suppressed) ∈ after.agenda.settled
  /-- Otherwise one of the changes has withdrawn it. -/
  withdrawn : after.agenda.knows found = false →
    ∃ change ∈ changes, (Agenda.Operation.ofChange change).forgets found = true
  /-- It waits again only when a later operation finds it anew; and if it is still tracked, another
  operation withdraws it before. -/
  again : ∀ {operations later}, after.Course operations later →
    ∀ activation ∈ later.agenda.pending, activation.toMatch = found →
      ∃ earlier, after.agenda.FindsAnew found earlier operations ∧
        (after.agenda.knows found = true →
          ∃ operation ∈ earlier, operation.forgets found = true) ∧
        after.agenda.nextSequence ≤ activation.sequence
  /-- Another match that is not tracked at some time in between, and is in the end, waits. -/
  others : ∀ {other earlier more}, other ≠ found → changes = earlier ++ more →
    (taken.followAll earlier).knows other = false → after.agenda.knows other = true →
    other ∈ after.agenda.pending.map Activation.toMatch

namespace Agenda

variable {agenda : Agenda} {found : Match}

/-- A match waits if it is tracked as waiting. -/
theorem Consistent.mem_map_pending (consistent : agenda.Consistent) :
    found ∈ agenda.pending.map Activation.toMatch ↔
      ∃ key, agenda.states.find? found = some (.pending key) := by
  rw [List.mem_map]
  constructor
  · rintro ⟨activation, waits, rfl⟩
    exact ⟨activation.toQueueKey, consistent.mem_pending.mp waits⟩
  · rintro ⟨key, waits⟩
    exact ⟨⟨found, key⟩, consistent.mem_pending.mpr waits, rfl⟩

/-- A tracked match that does not wait is settled. -/
theorem settled_of_knows (rests : ∀ key, agenda.states.find? found ≠ some (.pending key))
    (knows : agenda.knows found = true) :
    ∃ how, agenda.states.find? found = some (.settled how) := by
  obtain ⟨state, isState⟩ := SortedMap.contains_eq_true.mp knows
  cases state with
  | pending key => exact absurd isState (rests key)
  | settled how => exact ⟨how, isState⟩

/-- A tracked match that is not settled waits. -/
theorem Consistent.waits_of_knows (consistent : agenda.Consistent)
    (unsettled : ∀ how, agenda.states.find? found ≠ some (.settled how))
    (knows : agenda.knows found = true) : found ∈ agenda.pending.map Activation.toMatch := by
  obtain ⟨state, isState⟩ := SortedMap.contains_eq_true.mp knows
  cases state with
  | pending key => exact consistent.mem_map_pending.mpr ⟨key, isState⟩
  | settled how => exact absurd isState (unsettled how)

/-- A match that does not wait, but does after operations, is found anew by one of them, and if it
was tracked, one before it has forgotten it. -/
theorem Consistent.waits_again (consistent : agenda.Consistent)
    (rests : ∀ key, agenda.states.find? found ≠ some (.pending key)) {operations : List Operation}
    {activation : Activation} (waits : activation ∈ (agenda.performAll operations).pending)
    (same : activation.toMatch = found) :
    ∃ earlier, agenda.FindsAnew found earlier operations ∧
      (agenda.knows found = true → ∃ operation ∈ earlier, operation.forgets found = true) ∧
      agenda.nextSequence ≤ activation.sequence := by
  have isPending : (agenda.performAll operations).states.find? found =
      some (.pending activation.toQueueKey) := by
    rw [← same]
    exact (consistent.performAll operations).mem_pending.mp waits
  have anew : agenda.Anew found agenda.nextSequence :=
    ⟨Nat.le_refl _, fun waits => absurd waits (rests _)⟩
  rcases pending_performAll isPending with still | ⟨earlier, finds⟩
  · exact absurd still (rests _)
  · refine ⟨earlier, finds, ?_, (anew.performAll operations).pending isPending⟩
    intro knows
    obtain ⟨how, isSettled⟩ := settled_of_knows rests knows
    obtain ⟨isRule, unknown⟩ := finds
    exact consistent.exists_forgets isSettled unknown

end Agenda

/-! ## What consequences change -/

/-- Every firing goes through changes of the complete matches. -/
theorem Fires.exists_through (fires : Fires before next rule outcome after) :
    ∃ taken changes, Fires.Through before next rule outcome after taken changes := by
  obtain ⟨taken, last, popped, run, same⟩ := fires.runs
  obtain ⟨changes, rematches⟩ := (SessionM.composed_moves.execute rule next.tuple).goes run
  exact ⟨taken, changes, popped, last, run, rematches, same⟩

namespace Fires.Through

variable {taken : Agenda} {changes : List MatchChange}
  (through : Fires.Through before next rule outcome after taken changes)

include through

/-- When the consequence has ended, the agenda has followed the changes. -/
theorem agenda : after.session.agenda = (taken.followAll changes).finishFiring := by
  obtain ⟨last, -, rematches, rfl⟩ := through.runs
  exact congrArg Agenda.finishFiring rematches.agenda

private theorem states : after.session.agenda.states = (taken.followAll changes).states := by
  rw [through.agenda]
  rfl

private theorem knows (found : Match) :
    after.session.agenda.knows found = (taken.followAll changes).knows found := by
  rw [through.agenda]
  rfl

private theorem consistent (consistent : before.session.agenda.Consistent) :
    after.session.agenda.Consistent := by
  rw [through.agenda]
  exact ((consistent.pop? through.popped).followAll changes).finishFiring

/-- A match of the rule is found with the mark of the rule. -/
theorem noLoop (sound : before.session.network.Sound)
    (isRule : before.session.network.rule? next.rule = some rule) {terminal : Terminal}
    {tuple : Tuple} (found : .found terminal tuple ∈ changes) (own : terminal.rule = next.rule) :
    terminal.noLoop = rule.noLoop := by
  obtain ⟨last, -, rematches, -⟩ := through.runs
  obtain ⟨id, left, live⟩ := rematches.reports _ found
  obtain ⟨other, isOther, same⟩ := sound.terminal_eq live
  cases isRule.symm.trans (own ▸ isOther)
  rw [same]

/-- The match of a no-loop rule does not wait in the end. -/
theorem rests (sound : before.session.network.Sound)
    (isRule : before.session.network.rule? next.rule = some rule) (noLoop : rule.noLoop = true)
    (key : QueueKey) : after.session.agenda.states.find? next.toMatch ≠ some (.pending key) := by
  rw [through.states]
  apply Agenda.rests_followAll (Agenda.firing_of_pop? through.popped)
  · intro terminal found own
    exact (through.noLoop sound isRule found own).trans noLoop
  · intro key waits
    cases waits.symm.trans (Agenda.fired_of_pop? through.popped)

/-- Another match that is not tracked at some time is not settled afterwards. -/
theorem unsettled {other : Match} (different : other ≠ next.toMatch)
    {earlier more : List MatchChange} (split : changes = earlier ++ more)
    (unknown : (taken.followAll earlier).knows other = false) (how : Settled) :
    after.session.agenda.states.find? other ≠ some (.settled how) := by
  rw [through.states, split, Agenda.followAll_append]
  apply Agenda.unsettled_followAll
  · rw [Agenda.firing_followAll, Agenda.firing_of_pop? through.popped]
    exact fun same => different (Option.some.inj same).symm
  · intro how isSettled
    cases isSettled.symm.trans (Agenda.knows_eq_false.mp unknown)

/-- The firing of a no-loop rule leaves its match spent. -/
theorem spent (sound : before.session.network.Sound)
    (consistent : before.session.agenda.Consistent)
    (isRule : before.session.network.rule? next.rule = some rule) (noLoop : rule.noLoop = true) :
    next.toMatch.Spent taken changes after.session := by
  have inOrder := through.consistent consistent
  have rests := through.rests sound isRule noLoop
  constructor
  case rests =>
    intro waits
    obtain ⟨key, isPending⟩ := inOrder.mem_map_pending.mp waits
    exact rests key isPending
  case settled =>
    intro knows
    obtain ⟨how, isSettled⟩ := Agenda.settled_of_knows rests knows
    cases how with
    | fired => exact .inl (Agenda.mem_settled.mpr isSettled)
    | suppressed => exact .inr (Agenda.mem_settled.mpr isSettled)
  case withdrawn =>
    intro unknown
    rw [through.knows, Agenda.followAll_eq_performAll] at unknown
    obtain ⟨operation, member, forgets⟩ := (consistent.pop? through.popped).exists_forgets
      (Agenda.fired_of_pop? through.popped) unknown
    obtain ⟨change, isChange, rfl⟩ := List.mem_map.mp member
    exact ⟨change, isChange, forgets⟩
  case again =>
    intro operations later course activation waits same
    rw [course.agenda] at waits
    exact inOrder.waits_again rests waits same
  case others =>
    intro other earlier more different split unknown knows
    exact inOrder.waits_of_knows (through.unsettled different split unknown) knows

end Fires.Through

/-- When the consequence of a no-loop rule has ended, with success or an error, the match that it
fired on does not wait, whatever the consequence did; and it waits again only when it is found anew
after it was withdrawn. Other matches that the consequence created and that are still there wait. -/
theorem KnowledgeBase.Made.spent_of_fires {base : KnowledgeBase} (made : base.Made)
    {config : SessionConfig} (visits : base.Visits config before.session)
    (fires : Fires before next rule outcome after) (noLoop : rule.noLoop = true) :
    (∃ taken changes, Fires.Through before next rule outcome after taken changes) ∧
      ∀ {taken changes}, Fires.Through before next rule outcome after taken changes →
        next.toMatch.Spent taken changes after.session := by
  have intact := visits.intact made.proper.network.sound
  exact ⟨fires.exists_through, fun through =>
    through.spent intact.sound intact.consistent fires.isRule noLoop⟩

/-! ## A rule that raises the level that it matches -/

namespace Raising

open Sensors (sensor reading asking asking_visits)

/-- A high level is raised, and another sensor is set up. -/
def raise : RuleDecl where
  name := "raise"
  noLoop := true
  conditions :=
    [.pattern
      { typeName := "Sensor"
        binding := some "$s"
        constraints := [.test (.binary .gt (.name "level") (.literal (.int 3)))] }]
  consequence :=
    [.modify "$s" [("level", .binary .add (.field (.name "$s") "level") (.literal (.int 1)))],
      .insert (.construct "Sensor" [.literal (.int 9)])]

/-- The knowledge base, or the errors of its rules. -/
def built : Except (List Diagnostic) KnowledgeBase :=
  KnowledgeBase.build ⟨SortedMap.insert ∅ "app.Sensor" sensor⟩
    [{ name := "app", imports := [.type "app.Sensor" {}], rules := [raise] }]

/-- The knowledge base of the rule. -/
def base : KnowledgeBase := built.toOption.getD default

private theorem made : base.Made := .built
    (eq_ok_getD (by decide +kernel : built.toOption.isSome = true))

/-- A session with one reading. -/
def waiting : SessionRun :=
  asking (.insert (reading 5)) { session := (base.newSession {}).toOption.getD default }

private theorem waiting_visits : base.Visits {} waiting.session :=
  asking_visits (.new (eq_ok_getD (by decide +kernel :
    (base.newSession {}).toOption.isSome = true)))

/-- The match of the reading, and the agenda without it. -/
def taken : Activation × Agenda := waiting.session.agenda.pop?.getD default

private theorem taken_eq : waiting.session.agenda.pop? = some (taken.1, taken.2) :=
  by decide +kernel

/-- The rule of the match. -/
def raiser : Rule := (waiting.session.network.rule? taken.1.rule).getD default

private theorem raiser_eq : waiting.session.network.rule? taken.1.rule = some raiser := by
  have known : (waiting.session.network.rule? taken.1.rule).isSome = true := by decide +kernel
  obtain ⟨rule, isRule⟩ := Option.isSome_iff_exists.mp known
  rw [isRule, raiser, isRule]
  rfl

/-- The session without the match. -/
def popped : SessionRun := { waiting with session := { waiting.session with agenda := taken.2 } }

/-- The session in which the rule has fired. -/
def raised : SessionRun := ((SessionM.fire taken.1 raiser).run.run popped).2

private theorem exists_fires : ∃ outcome, Fires waiting taken.1 raiser outcome raised := by
  have run : Ends (SessionM.fire taken.1 raiser) popped
      ((SessionM.fire taken.1 raiser).run.run popped).1 raised := ends_run _ popped
  obtain ⟨outcome, -, fires⟩ := (ends_fire_taken taken_eq raiser_eq).mp run
  exact ⟨outcome, fires⟩

/-- The match has come back and is suppressed; that of the other sensor waits. -/
theorem raised_spent : base.Made ∧ base.Visits {} waiting.session ∧ raiser.noLoop = true ∧
    raised.session.agenda.settled = [(⟨0, [1]⟩, .suppressed)] ∧
    raised.session.agenda.pending.map Activation.toMatch = [⟨0, [2]⟩] ∧
    ∃ outcome, Fires waiting taken.1 raiser outcome raised ∧
      (∃ remaining changes, Fires.Through waiting taken.1 raiser outcome raised remaining changes) ∧
      ∀ {remaining changes}, Fires.Through waiting taken.1 raiser outcome raised remaining changes →
        taken.1.toMatch.Spent remaining changes raised.session := by
  have noLoop : raiser.noLoop = true := by decide +kernel
  obtain ⟨outcome, fires⟩ := exists_fires
  exact ⟨made, waiting_visits, noLoop, by decide +kernel, by decide +kernel, outcome, fires,
    KnowledgeBase.Made.spent_of_fires made waiting_visits fires noLoop⟩

end Raising

end Rete
