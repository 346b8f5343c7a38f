import Rete.Proofs.Matching.Coverage
import Rete.Proofs.Session.Admission
import Rete.Proofs.Session.Structure

/-!
# What a session loses

A live fact may be missing from the entry of its type only if replacing it has failed while it was
withdrawn. A token may be lost at a negated join only if letting go of a fact has failed that alone
held back the token or one that it starts with, or replacing a fact has that the token has.
Insertions that were taken back lose nothing (`KnowledgeBase.Made.lossless`), while a replacement
and a retraction that end early do (`Alarms.failures_lose`).
-/

namespace Rete

open Matching

namespace Session

variable {session after mid : Session} {handle : Handle} {token : Tuple} {fact : Object}

/-- A live fact is missing where the facts of its type come in. -/
def Misses (session : Session) (handle : Handle) : Prop :=
  ∃ fact top, session.memory.fact? handle = some fact ∧
    session.network.objectType? fact.typeName = some top ∧
    (session.matched.factsAt top).contains handle = false

/-- Where a token is on the left of a negated join, it is let through, or some fact holds it
back. -/
def Covered (session : Session) (token : Tuple) : Prop :=
  ∀ {id left right tests functions}, session.network.kind? id =
      some (.join left right tests true functions) →
    (session.matched.leftTokens left).contains token = true →
      (session.matched.tokensAt id).contains token = true ∨
        ∃ facts, (session.matched.blockedAt id).find? token = some facts ∧ facts.isEmpty = false

/-- A fact alone holds back a token, or one that it starts with. -/
def HoldsBack (session : Session) (handle : Handle) (token : Tuple) : Prop :=
  ∃ id stem facts, (session.matched.blockedAt id).find? stem = some facts ∧
    (∀ other, facts.contains other = true ↔ other = handle) ∧ stem <+: token

/-- Replacing a fact has failed while the fact was withdrawn. -/
def Withdraws (session : Session) (handle : Handle) (after : Session) : Prop :=
  ∃ fact error, session.Updates handle fact (.error error) after [error] ∧
    session.Follows (MatchM.retract · · handle) (.error error) after

/-- Only a live fact is withdrawn. -/
theorem Withdraws.live (withdraws : session.Withdraws handle after) :
    session.memory.contains handle = true := by
  obtain ⟨fact, error, updates, -⟩ := withdraws
  generalize one : [error] = failures at updates
  cases updates with
  | refused => cases one
  | withdrawn _ live | replaced _ live => exact live

/-- A step in which letting go of a fact that alone holds back a token has failed, or replacing a
fact that the token has. -/
inductive Drops (session : Session) (token : Tuple) (after : Session) : Prop
  | inserts {fact : Object} {error second : Error} {failed : Session}
      (inserts : session.Inserts fact (.error error) after [error, second])
      (follows : (session.storing fact).Follows (MatchM.assert · · session.memory.nextHandle)
        (.error error) failed)
      (held : failed.HoldsBack session.memory.nextHandle token)
  | updates {handle : Handle} {fact : Object} {error : Error}
      (updates : session.Updates handle fact (.error error) after [error])
      (concerned : handle ∈ token ∨ session.HoldsBack handle token)
  | retracts {handle : Handle} {error : Error}
      (retracts : session.Retracts handle (.error error) after [error])
      (held : session.HoldsBack handle token)

/-- No fact comes in in a step that drops a token. -/
theorem Drops.contains (drops : session.Drops token after)
    (live : after.memory.contains handle = true) : session.memory.contains handle = true := by
  cases drops with
  | @inserts fact error second failed inserts =>
      generalize two : [error, second] = failures at inserts
      cases inserts with
      | refused => cases two
      | takenBack _ _ follows back =>
          obtain ⟨_, -, rfl⟩ := follows
          obtain ⟨_, -, rfl⟩ := back
          have left : ((session.storing fact).dropping session.memory.nextHandle).memory.contains
            handle = true := live
          rw [contains_dropping, contains_storing, Bool.and_eq_true, Bool.not_eq_true',
            decide_eq_false_iff_not, Bool.or_eq_true, decide_eq_true_iff] at left
          exact left.2.resolve_left left.1
  | @updates other fact error updates =>
      generalize one : [error] = failures at updates
      cases updates with
      | refused => cases one
      | withdrawn _ _ _ follows =>
          obtain ⟨_, -, rfl⟩ := follows
          exact live
      | replaced _ isLive _ first second =>
          obtain ⟨_, -, rfl⟩ := first
          obtain ⟨_, -, rfl⟩ := second
          have stored : (session.replacing other fact).memory.contains handle = true := live
          rw [contains_replacing, Bool.or_eq_true, decide_eq_true_iff] at stored
          exact stored.elim (fun same => same ▸ isLive) fun before => before
  | @retracts other error retracts =>
      generalize one : [error] = failures at retracts
      generalize (.error error : Except Error Object) = result at retracts
      cases retracts with
      | refused => cases one
      | retracted _ _ follows =>
          obtain ⟨_, -, rfl⟩ := follows
          have left : (session.dropping other).memory.contains handle = true := live
          rw [contains_dropping, Bool.and_eq_true] at left
          exact left.2

/-- A step in which nothing has failed but insertions that were taken back. -/
inductive Spares (session : Session) : Session → Prop
  | quiet {after : Session} (step : session.Step [] after) : Spares session after
  | takenBack {fact : Object} {result : Except Error Handle} {error : Error} {after : Session}
      (inserts : session.Inserts fact result after [error]) : Spares session after

/-! ## Facts -/

namespace Misses

/-- A fact that is as it was has been missing before if nothing took it from the alpha level. -/
theorem before (misses : after.Misses handle) (network : after.network = session.network)
    (same : after.memory.fact? handle = session.memory.fact? handle)
    (held : ∀ {id}, (session.matched.factsAt id).contains handle = true →
      (after.matched.factsAt id).contains handle = true) : session.Misses handle := by
  obtain ⟨fact, top, isFact, isTop, absent⟩ := misses
  refine ⟨fact, top, same ▸ isFact, network ▸ isTop, Bool.eq_false_iff.mpr fun here => ?_⟩
  exact Bool.false_ne_true (absent.symm.trans (held here))

variable {other : Handle} {result : Except Error Unit}

/-- A fact that comes in is not missing. -/
theorem of_assert (misses : after.Misses other) (intact : session.Intact)
    (follows : session.Follows (MatchM.assert · · handle) result after) :
    other ≠ handle ∧ session.Misses other := by
  obtain ⟨matching, run, rfl⟩ := follows
  obtain ⟨held, enters⟩ := assert_holds intact.sound intact.matched run
  refine ⟨?_, misses.before rfl rfl held⟩
  rintro rfl
  obtain ⟨fact, top, isFact, isTop, absent⟩ := misses
  have here := enters isFact (intact.sound.wellFormed.objectType.mp isTop)
  exact Bool.false_ne_true (absent.symm.trans here)

/-- Withdrawing a fact makes no other fact missing. -/
theorem of_retract (misses : after.Misses other) (intact : session.Intact)
    (follows : session.Follows (MatchM.retract · · handle) result after) :
    other = handle ∨ session.Misses other := by
  obtain ⟨matching, run, rfl⟩ := follows
  by_cases same : other = handle
  · exact .inl same
  · exact .inr (misses.before rfl rfl (retract_holds intact.sound intact.matched run same))

private theorem of_put {memory : WorkingMemory}
    (misses : (session.withMemory (memory.put handle fact)).Misses other)
    (facts : memory.facts = session.memory.facts) (different : other ≠ handle) :
    session.Misses other := by
  refine misses.before rfl ?_ fun held => held
  change (memory.facts.insert handle fact).find? other = session.memory.facts.find? other
  rw [SortedMap.find?_insert_eq, if_neg different, facts]

private theorem of_dropping (misses : (session.dropping handle).Misses other) :
    other ≠ handle ∧ session.Misses other := by
  have erased : (session.dropping handle).memory.fact? other =
      if other = handle then none else session.memory.fact? other :=
    SortedMap.find?_erase_eq ..
  by_cases same : other = handle
  · obtain ⟨fact, top, isFact, -⟩ := misses
    rw [erased, if_pos same] at isFact
    cases isFact
  · rw [if_neg same] at erased
    exact ⟨same, misses.before rfl erased fun held => held⟩

variable {failures : List Error}

private theorem of_inserts (misses : after.Misses other) (intact : session.Intact)
    {result : Except Error Handle} (inserts : session.Inserts fact result after failures) :
    session.Misses other := by
  cases inserts with
  | refused => exact misses
  | inserted alive typed follows =>
      obtain ⟨different, stored⟩ := misses.of_assert (intact.storing fact) follows
      exact stored.of_put rfl different
  | takenBack alive typed follows back =>
      have failed := (intact.storing fact).assert follows
      obtain ⟨different, last⟩ := misses.of_dropping
      have sent := (last.of_retract failed back).resolve_left different
      exact (sent.of_assert (intact.storing fact) follows).2.of_put rfl different

private theorem of_updates (misses : after.Misses other) (intact : session.Intact)
    (updates : session.Updates handle fact result after failures) :
    session.Misses other ∨ (other = handle ∧ failures ≠ [] ∧ session.Withdraws handle after) := by
  cases updates with
  | refused => exact .inl misses
  | withdrawn alive live typed follows =>
      refine (misses.of_retract intact follows).symm.imp_right fun same => ?_
      exact ⟨same, List.cons_ne_nil _ _, fact, _, .withdrawn alive live typed follows, follows⟩
  | replaced alive live typed first second =>
      obtain ⟨taken, nowhere⟩ := intact.retract first
      obtain ⟨different, stored⟩ := misses.of_assert (taken.replacing nowhere fact) second
      exact .inl (((stored.of_put rfl different).of_retract intact first).resolve_left different)

private theorem of_retracts (misses : after.Misses other) (intact : session.Intact)
    {result : Except Error Object} (retracts : session.Retracts handle result after failures) :
    session.Misses other := by
  cases retracts with
  | refused => exact misses
  | retracted alive live follows =>
      obtain ⟨different, last⟩ := misses.of_dropping
      exact (last.of_retract intact follows).resolve_left different

/-- A fact that is missing after a step was so before, or replacing it has failed in the step. -/
theorem of_step (misses : after.Misses handle) (intact : session.Intact)
    (step : session.Step failures after) :
    session.Misses handle ∨ (failures ≠ [] ∧ session.Withdraws handle after) := by
  cases step with
  | inserts inserts => exact .inl (misses.of_inserts intact inserts)
  | updates updates =>
      refine (misses.of_updates intact updates).imp_right ?_
      rintro ⟨rfl, failed, withdraws⟩
      exact ⟨failed, withdraws⟩
  | retracts retracts => exact .inl (misses.of_retracts intact retracts)
  | globals | halted | pops | finishes => exact .inl (misses.before rfl rfl fun held => held)
  | givesUp =>
      obtain ⟨fact, top, isFact, -⟩ := misses
      cases isFact

private theorem of_spares (misses : after.Misses handle) (intact : session.Intact)
    (spares : session.Spares after) : session.Misses handle := by
  cases spares with
  | quiet step => exact (misses.of_step intact step).resolve_right fun withdrawn => withdrawn.1 rfl
  | takenBack inserts => exact misses.of_inserts intact inserts

end Misses

/-! ## Tokens -/

/-- Every token on the left of a negated join is let through or held back, or is excused. -/
def Covers (session : Session) (excused : NodeId → Tuple → Prop) : Prop :=
  Matching.Covers session.network session.agenda { memory := session.matched } excused

private theorem Intact.covered (intact : session.Intact)
    (covers : session.Covers fun _ other => other ≠ token) : session.Covered token := by
  intro id left right tests functions live offered
  refine ((covers.place live (contains_leftTokens.mp offered)).resolve_right
    fun different => different rfl).imp_right fun held => ?_
  obtain ⟨facts, blocked⟩ := Option.ne_none_iff_exists'.mp held
  obtain ⟨_, _, _, _, -, -, nonempty, -⟩ := intact.matched.coherent.blocked blocked
  exact ⟨facts, blocked, nonempty⟩

private theorem HoldsBack.of_matching
    (held : Matching.HoldsBack session.network session.agenda { memory := session.matched } handle
      token) : session.HoldsBack handle token := by
  obtain ⟨id, stem, ⟨facts, blocked, only⟩, starts⟩ := held
  exact ⟨id, stem, facts, blocked, only, starts⟩

namespace Covers

variable {excused : NodeId → Tuple → Prop}

/-- With more excused, less has to be covered. -/
theorem mono {more : NodeId → Tuple → Prop} (covers : session.Covers excused)
    (within : ∀ {id tuple}, excused id tuple → more id tuple) : session.Covers more :=
  Matching.Covers.mono covers within

/-- What is covered does not depend on the agenda. -/
theorem following {matching : Matching}
    (covers : Matching.Covers session.network session.agenda matching excused) :
    (session.following matching).Covers excused :=
  covers.congr rfl (fun _ _ => rfl) fun _ _ => rfl

private theorem assert (covers : session.Covers excused) (intact : session.Intact)
    {result : Except Error Unit}
    (follows : session.Follows (MatchM.assert · · handle) result after) :
    Outcome result (fun _ => after.Covers excused) fun _ =>
      after.Covers (Along excused handle) := by
  obtain ⟨matching, run, rfl⟩ := follows
  exact (assert_covers intact.sound intact.matched run covers).imp (fun _ => following)
    fun _ => following

/-- Withdrawing a fact covers what was excused for its sake, unless it fails where a token is
freed. -/
theorem retract (covers : session.Covers (Along excused handle)) (intact : session.Intact)
    {result : Except Error Unit}
    (follows : session.Follows (MatchM.retract · · handle) result after) :
    Outcome result (fun _ => after.Covers excused) fun _ =>
      after.Covers fun id tuple => excused id tuple ∨ session.HoldsBack handle tuple := by
  obtain ⟨matching, run, rfl⟩ := follows
  refine (retract_covers intact.sound intact.matched run covers).imp (fun _ => following)
    fun _ covers => following (covers.mono (Or.imp_right ?_))
  exact HoldsBack.of_matching

variable (covers : session.Covers excused) (intact : session.Intact)

include covers intact

/-- An insertion loses nothing if it was taken back without a further failure. -/
theorem of_inserts {result : Except Error Handle} {failures : List Error}
    (inserts : session.Inserts fact result after failures) :
    after.Covers fun id tuple =>
      excused id tuple ∨ (1 < failures.length ∧ session.Drops tuple after) := by
  have stored : (session.storing fact).Covers excused := covers
  cases inserts with
  | refused => exact covers.mono .inl
  | inserted alive typed follows =>
      have entered : after.Covers excused := stored.assert (intact.storing fact) follows
      exact entered.mono .inl
  | @takenBack error failed last taken alive typed follows back =>
      have sent : failed.Covers (Along excused _) := stored.assert (intact.storing fact) follows
      have withdrawn := sent.retract ((intact.storing fact).assert follows) back
      cases taken with
      | ok => exact Covers.mono withdrawn .inl
      | error second =>
          refine Covers.mono withdrawn (Or.imp_right fun held => ⟨Nat.lt_succ_self 1, ?_⟩)
          exact .inserts (.takenBack alive typed follows back) follows held

private theorem of_updates {result : Except Error Unit} {failures : List Error}
    (updates : session.Updates handle fact result after failures) :
    after.Covers fun id tuple =>
      excused id tuple ∨ (failures ≠ [] ∧ session.Drops tuple after) := by
  cases updates with
  | refused => exact covers.mono .inl
  | withdrawn alive live typed follows =>
      have withdrawn := retract (covers.mono .inl) intact follows
      refine Covers.mono withdrawn (Or.imp_right fun held => ⟨List.cons_ne_nil _ _, ?_⟩)
      exact .updates (.withdrawn alive live typed follows) (.inr held)
  | @replaced mid _ _ alive live typed first second =>
      obtain ⟨taken, nowhere⟩ := intact.retract first
      have withdrawn : mid.Covers excused := retract (covers.mono .inl) intact first
      have stored : (mid.replacing handle fact).Covers excused := withdrawn
      have entered := stored.assert (taken.replacing nowhere fact) second
      cases result with
      | ok => exact Covers.mono entered .inl
      | error error =>
          refine Covers.mono entered (Or.imp_right fun within => ⟨List.cons_ne_nil _ _, ?_⟩)
          exact .updates (.replaced alive live typed first second) (.inl within)

private theorem of_retracts {result : Except Error Object} {failures : List Error}
    (retracts : session.Retracts handle result after failures) :
    after.Covers fun id tuple =>
      excused id tuple ∨ (failures ≠ [] ∧ session.Drops tuple after) := by
  cases retracts with
  | refused => exact covers.mono .inl
  | @retracted fact last result alive live follows =>
      have taken := retract (covers.mono .inl) intact follows
      cases result with
      | ok => exact Covers.mono taken .inl
      | error error =>
          refine Covers.mono taken (Or.imp_right fun held => ⟨List.cons_ne_nil _ _, ?_⟩)
          exact .retracts (.retracted alive live follows) held

/-- A token that is lost after a step was so before, or something has failed in the step that drops
it. -/
theorem of_step {failures : List Error} (step : session.Step failures after) :
    after.Covers fun id tuple =>
      excused id tuple ∨ (failures ≠ [] ∧ session.Drops tuple after) := by
  cases step with
  | inserts done =>
      refine (of_inserts covers intact done).mono (Or.imp_right fun lost => ⟨?_, lost.2⟩)
      rintro rfl
      exact Nat.not_lt_zero 1 lost.1
  | updates done => exact of_updates covers intact done
  | retracts done => exact of_retracts covers intact done
  | globals | halted => exact covers.mono .inl
  | pops | finishes =>
      exact Covers.mono (Matching.Covers.congr covers rfl (fun _ _ => rfl) fun _ _ => rfl) .inl
  | givesUp =>
      refine ⟨fun {id left right tests functions tuple} live offered => ?_⟩
      cases left with
      | none => cases offered.1
      | some via => cases offered

/-- Nothing is lost in a step in which nothing has failed but insertions that were taken back. -/
theorem of_spares (spares : session.Spares after) : after.Covers excused := by
  cases spares with
  | quiet step =>
      exact (of_step covers intact step).mono fun here => here.resolve_right fun lost => lost.1 rfl
  | takenBack inserts =>
      exact (of_inserts covers intact inserts).mono fun here =>
        here.resolve_right fun lost => Nat.lt_irrefl 1 lost.1

end Covers

end Session

/-! ## Runs -/

namespace SessionM

private theorem ends_perform_insert {before after : SessionRun} {fact : Object}
    {result : Except Error Answer} (run : Ends (perform (.insert fact)) before result after) :
    ∃ failures inserted, before.session.Inserts fact inserted after.session failures ∧
      after.failures = before.failures ++ failures := by
  rcases ends_bind.mp run with ⟨handle, between, inserts, last⟩ | ⟨error, inserts, -⟩
  · obtain ⟨-, rfl⟩ := (ends_pure _).mp last
    obtain ⟨failures, inserts, same, -⟩ := ends_insert inserts
    exact ⟨failures, _, inserts, same⟩
  · obtain ⟨failures, inserts, same, -⟩ := ends_insert inserts
    exact ⟨failures, _, inserts, same⟩

end SessionM

namespace KnowledgeBase

variable {base : KnowledgeBase} {config : SessionConfig} {kind : Session → Session → Prop}

/-- The sessions of a knowledge base that steps of requests of a kind lead to. Between steps, the
host functions and the values of globals may become others. -/
inductive VisitsBy (base : KnowledgeBase) (config : SessionConfig)
    (kind : Session → Session → Prop) : Session → Prop
  | new {session : Session} (made : base.newSession config = .ok session) :
      VisitsBy base config kind session
  | step {session after : Session} {failures : List Error}
      (visits : VisitsBy base config kind session)
      (step : session.Step failures after) (ofKind : kind session after) :
      VisitsBy base config kind after
  | rehosted {session : Session} (visits : VisitsBy base config kind session) (catalog : Catalog)
      (globals : Globals) : VisitsBy base config kind
        { session with catalog, memory := { session.memory with globals } }

namespace VisitsBy

variable {session : Session}

/-- Steps of a kind are steps. -/
theorem visits (visitsBy : base.VisitsBy config kind session) : base.Visits config session := by
  induction visitsBy with
  | new made => exact .new made
  | step _ step _ ih => exact ih.step step
  | rehosted _ catalog globals ih => exact ih.rehosted catalog globals

/-- A request in which no condition fails leads on. -/
theorem perform {before after : SessionRun} {request : Request} {result : Except Error Answer}
    (visits : base.VisitsBy config Session.Spares before.session)
    (run : Ends (SessionM.perform request) before result after)
    (clean : after.failures = before.failures) :
    base.VisitsBy config Session.Spares after.session :=
  SessionM.perform_clean (fun visits step => .step visits step (.quiet step)) run clean visits

/-- An insertion that was taken back leads on. -/
theorem takenBack {before after : SessionRun} {fact : Object} {result : Except Error Answer}
    (visits : base.VisitsBy config Session.Spares before.session)
    (run : Ends (SessionM.perform (.insert fact)) before result after) {error : Error}
    (once : after.failures = before.failures ++ [error]) :
    base.VisitsBy config Session.Spares after.session := by
  obtain ⟨failures, inserted, inserts, same⟩ := SessionM.ends_perform_insert run
  obtain rfl := List.append_cancel_left (once.symm.trans same)
  exact visits.step (.inserts inserts) (.takenBack inserts)

/-- A fact is missing only if replacing it has failed. -/
theorem not_misses {handle : Handle} (visits : base.VisitsBy config
      (fun before after => ¬ before.Withdraws handle after) session)
    (sound : base.network.Sound) : ¬ session.Misses handle := by
  induction visits with
  | new made =>
      obtain ⟨matching, -, rfl⟩ := Session.follows_of_newSession made
      rintro ⟨fact, top, isFact, -⟩
      cases isFact
  | step visits step spared ih =>
      intro misses
      exact (misses.of_step (visits.visits.intact sound) step).elim ih fun lost => spared lost.2
  | rehosted _ catalog globals ih => exact ih

private theorem covers_new (made : base.newSession config = .ok session)
    (sound : base.network.Sound) : session.Covers fun _ _ => False := by
  obtain ⟨matching, seeded, rfl⟩ := Session.follows_of_newSession made
  exact Session.Covers.following (Session.exact_of_seed sound seeded).covers

/-- A token is lost only if something has failed that drops it. -/
theorem covered {token : Tuple} (visits : base.VisitsBy config
      (fun before after => ¬ before.Drops token after) session)
    (sound : base.network.Sound) : session.Covered token := by
  refine (visits.visits.intact sound).covered ?_
  induction visits with
  | new made => exact (covers_new made sound).mono False.elim
  | step visits step spared ih =>
      refine (ih.of_step (visits.visits.intact sound) step).mono fun here same => ?_
      subst same
      exact here.elim (fun different => different rfl) fun lost => spared lost.2
  | rehosted _ catalog globals ih => exact ih

private theorem covers (visits : base.VisitsBy config Session.Spares session)
    (sound : base.network.Sound) : session.Covers fun _ _ => False := by
  induction visits with
  | new made => exact covers_new made sound
  | step visits step spared ih => exact ih.of_spares (visits.visits.intact sound) spared
  | rehosted _ catalog globals ih => exact ih

private theorem misses_none (visits : base.VisitsBy config Session.Spares session)
    (sound : base.network.Sound) (handle : Handle) : ¬ session.Misses handle := by
  induction visits with
  | new made => exact (VisitsBy.new made).not_misses sound
  | step visits step spared ih =>
      exact fun misses => ih (misses.of_spares (visits.visits.intact sound) spared)
  | rehosted _ catalog globals ih => exact ih

end VisitsBy

/-- A live fact is missing from the entry of its type only if replacing it has failed while it was
withdrawn; a token is lost at a negated join only if something has failed that drops it. As long as
nothing has failed but insertions that were taken back, no fact is missing and no token is lost. -/
theorem Made.lossless (made : base.Made) :
    (∀ {session handle}, base.VisitsBy config
        (fun before after => ¬ before.Withdraws handle after) session → ¬ session.Misses handle) ∧
      (∀ {session token}, base.VisitsBy config
        (fun before after => ¬ before.Drops token after) session → session.Covered token) ∧
      (∀ {session}, base.VisitsBy config Session.Spares session →
        (∀ handle, ¬ session.Misses handle) ∧ ∀ token, session.Covered token) ∧
      ∀ {before request result after}, base.VisitsBy config Session.Spares before.session →
        Ends (SessionM.perform request) before result after →
        (after.failures = before.failures ∨ ∃ fact error, request = .insert fact ∧
          after.failures = before.failures ++ [error]) →
        base.VisitsBy config Session.Spares after.session := by
  have sound := made.proper.network.sound
  refine ⟨fun visits => visits.not_misses sound, fun visits => visits.covered sound,
    fun visits => ⟨visits.misses_none sound, fun token => ?_⟩,
    fun {before request result after} visits run few => ?_⟩
  · exact (visits.visits.intact sound).covered ((visits.covers sound).mono False.elim)
  · rcases few with clean | ⟨fact, error, rfl, once⟩
    · exact visits.perform run clean
    · exact visits.takenBack run once

end KnowledgeBase

/-! ## A knowledge base for alarms -/

namespace Alarms

open Sensors (sensor reading asking ends_asking asking_visits)

/-- An alarm has no fields. -/
def alarmType : TypeDef := { name := ⟨["app", "Alarm"]⟩ }

/-- A guard has no fields. -/
def guardType : TypeDef := { name := ⟨["app", "Guard"]⟩ }

/-- A fact of an alarm. -/
def alarm : Object := ⟨"app.Alarm", []⟩

/-- A fact of a guard. -/
def guard : Object := ⟨"app.Guard", []⟩

/-- A level that the reference is divided by while there is no alarm; a guard with an alarm. -/
def rules : List RuleDecl :=
  [{ name := "calm"
     conditions :=
      [.pattern { typeName := "Sensor", binding := some "$s" },
        .absent { typeName := "Alarm" },
        .eval (.binary .gt
          (.binary .div (.literal (.int 100)) (.field (.name "$s") "level"))
          (.literal (.int 2)))] },
    { name := "alarmed"
      conditions := [.pattern { typeName := "Guard" }, .pattern { typeName := "Alarm" }] }]

/-- The result of building the package. -/
def built : Except (List Diagnostic) KnowledgeBase :=
  KnowledgeBase.build
    ⟨((SortedMap.insert ∅ "app.Sensor" sensor).insert "app.Alarm" alarmType).insert "app.Guard"
      guardType⟩
    [{ name := "app"
       imports := [.type "app.Sensor" {}, .type "app.Alarm" {}, .type "app.Guard" {}]
       rules }]

/-- The knowledge base of the rules. -/
def base : KnowledgeBase := built.toOption.getD default

private theorem made : base.Made := .built
    (eq_ok_getD (by decide +kernel : built.toOption.isSome = true))

/-- A new session. -/
def opened : SessionRun :=
  { session := (base.newSession {}).toOption.getD default }

/-- A session can be opened. -/
theorem opened_eq : base.newSession {} = .ok opened.session :=
  eq_ok_getD (by decide +kernel : (base.newSession {}).toOption.isSome = true)

/-- Inserting a fact is a step of the session. -/
theorem step_asking_insert (fact : Object) (before : SessionRun) : ∃ failures,
    before.session.Step failures (asking (.insert fact) before).session ∧
      (asking (.insert fact) before).failures = before.failures ++ failures := by
  obtain ⟨failures, _, inserts, same⟩ :=
    SessionM.ends_perform_insert (ends_asking (.insert fact) before)
  exact ⟨failures, .inserts inserts, same⟩

/-! A level that is held back by an alarm. -/

/-- A level comes in. -/
def level : SessionRun := asking (.insert (reading 5)) opened

/-- An alarm comes in, which holds back the level. -/
def alarmed : SessionRun := asking (.insert alarm) level

private theorem opened_level : ∃ failures, opened.session.Step failures level.session :=
  (step_asking_insert (reading 5) opened).imp fun _ step => step.1

private theorem level_alarmed : ∃ failures, level.session.Step failures alarmed.session :=
  (step_asking_insert alarm level).imp fun _ step => step.1

/-- Steps of a kind that both insertions are of lead to the session. -/
theorem alarmed_visitsBy {kind : Session → Session → Prop}
    (first : kind opened.session level.session) (second : kind level.session alarmed.session) :
    base.VisitsBy {} kind alarmed.session := by
  obtain ⟨_, once⟩ := opened_level
  obtain ⟨_, twice⟩ := level_alarmed
  exact ((KnowledgeBase.VisitsBy.new opened_eq).step once first).step twice second

/-! An insertion that is taken back, and one that follows. -/

/-- The reference could not be divided by the level of the first fact. -/
def tried : SessionRun := asking (.insert (reading 0)) opened

/-- A level follows the one that was taken back. -/
def calmed : SessionRun := asking (.insert (reading 5)) tried

private theorem tried_failures : ∃ error, tried.failures = opened.failures ++ [error] := by
  obtain ⟨failures, -, same⟩ : ∃ failures, opened.session.Step failures tried.session ∧
      tried.failures = opened.failures ++ failures := step_asking_insert (reading 0) opened
  have once : tried.failures.length = 1 := by decide +kernel
  obtain ⟨error, rfl⟩ := List.length_eq_one_iff.mp ((congrArg List.length same).symm.trans once)
  exact ⟨error, same⟩

private theorem calmed_failures : calmed.failures = tried.failures := by
  obtain ⟨failures, -, same⟩ : ∃ failures, tried.session.Step failures calmed.session ∧
      calmed.failures = tried.failures ++ failures := step_asking_insert (reading 5) tried
  have none : calmed.failures.length = tried.failures.length := by decide +kernel
  rw [same, List.length_append, Nat.add_eq_left, List.length_eq_zero_iff] at none
  subst none
  exact same.trans (List.append_nil _)

/-- Where nothing is withdrawn or dropped, no fact is missing and no token is lost; an insertion
that was taken back does no harm. -/
theorem alarms_lossless : base.Made ∧
    base.VisitsBy {} (fun before after => ¬ before.Withdraws 2 after) alarmed.session ∧
    base.VisitsBy {} (fun before after => ¬ before.Drops [1] after) alarmed.session ∧
    (alarmed.session.matched.leftTokens (some 1)).contains [1] = true ∧
    alarmed.session.agenda.pending = [] ∧
    ¬ alarmed.session.Misses 2 ∧ alarmed.session.Covered [1] ∧
    base.VisitsBy {} Session.Spares calmed.session ∧ calmed.failures.length = 1 ∧
    calmed.session.agenda.pending.map (fun next => next.tuple) = [[2]] ∧
    (∀ handle, ¬ calmed.session.Misses handle) ∧ ∀ token, calmed.session.Covered token := by
  obtain ⟨facts, tokens, sparing, request⟩ := @KnowledgeBase.Made.lossless base {} made
  have absent : opened.session.memory.contains 2 = false ∧
      level.session.memory.contains 2 = false := by decide +kernel
  have kept : base.VisitsBy {} (fun before after => ¬ before.Withdraws 2 after) alarmed.session :=
    alarmed_visitsBy (fun withdraws => Bool.false_ne_true (absent.1.symm.trans withdraws.live))
      fun withdraws => Bool.false_ne_true (absent.2.symm.trans withdraws.live)
  have new : opened.session.memory.contains 1 = false ∧
      level.session.memory.contains 1 = true ∧ alarmed.session.memory.contains 2 = true := by
    decide +kernel
  have held : base.VisitsBy {} (fun before after => ¬ before.Drops [1] after) alarmed.session :=
    alarmed_visitsBy
      (fun drops => Bool.false_ne_true (new.1.symm.trans (drops.contains new.2.1)))
      fun drops => Bool.false_ne_true (absent.2.symm.trans (drops.contains new.2.2))
  obtain ⟨error, failed⟩ := tried_failures
  have taken : base.VisitsBy {} Session.Spares tried.session :=
    @request opened _ _ tried (.new opened_eq) (ends_asking (.insert (reading 0)) opened)
      (.inr ⟨_, error, rfl, failed⟩)
  have spared : base.VisitsBy {} Session.Spares calmed.session :=
    @request tried _ _ calmed taken (ends_asking (.insert (reading 5)) tried) (.inl calmed_failures)
  exact ⟨made, kept, held, by decide +kernel, by decide +kernel, facts kept, tokens held, spared,
    by decide +kernel, by decide +kernel, sparing spared⟩

/-! A replacement and a retraction that end early. -/

/-- The reference cannot be divided by the level, but there is an alarm. -/
def held : SessionRun := asking (.insert (reading 0)) (asking (.insert alarm) opened)

/-- The alarm is replaced by itself, which fails while it is withdrawn. -/
def lost : SessionRun := asking (.update 1 alarm) held

/-- The alarm is retracted, which frees a level that fails before one that does not. -/
def freed : SessionRun := asking (.retract 1) (asking (.insert (reading 5)) held)

private theorem held_visits : base.Visits {} held.session := asking_visits
    (asking_visits (.new opened_eq))

/-- The alarm that could not be replaced is missing, and no rule fires for the guard that comes to
it. The retraction of the alarm has lost the match of the second level. -/
theorem failures_lose :
    (base.Visits {} lost.session ∧ lost.failures.length = 1 ∧ lost.session.Misses 1 ∧
      (asking (.insert guard) lost).session.agenda.pending = []) ∧
    base.Visits {} freed.session ∧ freed.failures.length = 1 ∧ ¬ freed.session.Covered [3] := by
  refine ⟨⟨asking_visits held_visits, by decide +kernel, ?_, by decide +kernel⟩,
    asking_visits (asking_visits held_visits), by decide +kernel, fun covered => ?_⟩
  · exact ⟨alarm, 2, by decide +kernel, by decide +kernel, by decide +kernel⟩
  · have live : freed.session.network.kind? 3 =
        some (.join (some 1) 2 [] true ⟨"app", ∅⟩) := by decide +kernel
    have offered : (freed.session.matched.leftTokens (some 1)).contains [3] = true := by
      decide +kernel
    have absent : (freed.session.matched.tokensAt 3).contains [3] = false := by decide +kernel
    have free : (freed.session.matched.blockedAt 3).find? [3] = none := by decide +kernel
    rcases covered live offered with own | ⟨facts, blocked, -⟩
    · exact Bool.false_ne_true (absent.symm.trans own)
    · exact Option.some_ne_none _ (blocked.symm.trans free)

end Alarms

end Rete
