import Rete.Proofs.Matching.Rollback
import Rete.Proofs.Session.Exactness
import Rete.Proofs.Session.Likeness

/-!
# What a taken-back insertion leaves

An insertion that fails takes its fact back by a retraction. That gives back the facts and the
globals, and everything that the network and the agenda keep but for what is behind a token that the
new fact held back alone (`Session.TakenBack`). If it held back none, the session is as it was, up
to its counters.

A token that was held back is let through anew. If no condition fails then and the memories were
exact, the memories and the matches that are tracked are the same again; but a match that had fired
waits again (`KnowledgeBase.Made.takenBack_of_visits`, `Sensors.refused_waits_again`).
-/

namespace Rete

open Matching

/-! ## Queues that agree in part -/

/-- Matches that are in the same states in two agendas wait in the same order. -/
theorem Agenda.Consistent.filter_pending {agenda after : Agenda} (consistent : agenda.Consistent)
    (consistentAfter : after.Consistent) {spared : Match → Bool}
    (same : ∀ found, spared found = true →
      after.states.find? found = agenda.states.find? found) :
    after.pending.filter (fun next => spared next.toMatch) =
      agenda.pending.filter fun next => spared next.toMatch := by
  have queues : (after.queue.filter fun _ found => spared found) =
      agenda.queue.filter fun _ found => spared found := by
    apply SortedMap.ext_find?
    intro key
    rw [SortedMap.find?_filter, SortedMap.find?_filter]
    ext found
    rw [Option.filter_eq_some_iff, Option.filter_eq_some_iff, consistent.queued,
      consistentAfter.queued]
    exact and_congr_left fun isSpared => by rw [same found isSpared]
  have entries := congrArg SortedMap.entries queues
  unfold Agenda.pending
  rw [List.filter_map, List.filter_map]
  exact congrArg _ entries

/-- An agenda in which every match is in the same state is the same but for its counter. -/
theorem Agenda.Consistent.eq_of_states {agenda after : Agenda} (consistent : agenda.Consistent)
    (consistentAfter : after.Consistent)
    (same : ∀ found, after.states.find? found = agenda.states.find? found)
    (firing : after.firing = agenda.firing) :
    after = { agenda with nextSequence := after.nextSequence } := by
  have queue : after.queue = agenda.queue := by
    apply SortedMap.ext_find?
    intro key
    ext found
    rw [consistentAfter.queued, consistent.queued, same]
  have states : after.states = agenda.states := SortedMap.ext_find? same
  rw [← queue, ← states, ← firing]

namespace Session

variable {session mid after : Session} {fact : Object} {error : Error}

/-! ## Tokens that a new fact holds back -/

/-- The session when the network has followed a new fact, as far as no condition fails. -/
def sent (session : Session) (fact : Object) : Session :=
  (session.storing fact).following
    ((MatchM.assert session.network (session.storing fact).view session.memory.nextHandle).run.run
      { memory := session.matched }).2

/-- A new fact comes to hold back a token alone. -/
def Stops (session : Session) (fact : Object) (join : NodeId) (token : Tuple) : Prop :=
  session.memory.nextHandle ∉ token ∧
    ∃ facts, ((session.sent fact).matched.blockedAt join).find? token = some facts ∧
      ∀ other, facts.contains other = true ↔ other = session.memory.nextHandle

/-- A tuple at a node is a token that a new fact holds back alone, or comes of one. -/
def StopsBehind (session : Session) (fact : Object) (id : NodeId) (tuple : Tuple) : Prop :=
  ∃ join token, session.Stops fact join token ∧ Within session.network join token id tuple

/-- A match comes of a token that a new fact holds back alone. -/
def StopsMatch (session : Session) (fact : Object) (found : Match) : Prop :=
  ∃ id left terminal, session.network.kind? id = some (.terminal left terminal) ∧
    terminal.rule = found.rule ∧ session.StopsBehind fact id found.tuple

/-- What is left of an insertion that was taken back. -/
structure TakenBack (session : Session) (fact : Object) (after : Session) : Prop where
  retains : session.Retains after
  facts : after.memory.facts = session.memory.facts
  globals : after.memory.globals = session.memory.globals
  /-- A handle that was given out is not given out again, nor is the number of a match. -/
  nextHandle : session.memory.nextHandle ≤ after.memory.nextHandle
  nextSequence : session.agenda.nextSequence ≤ after.agenda.nextSequence
  firing : after.agenda.firing = session.agenda.firing
  halted : after.halted = session.halted
  disposed : after.disposed = session.disposed
  /-- The memories of the network are the same but for what comes of tokens that were held back. -/
  seeded : after.matched.seeded = session.matched.seeded
  factsAt : after.matched.factsAt = session.matched.factsAt
  tokensAt : ∀ {id tuple}, ¬ session.StopsBehind fact id tuple →
    (after.matched.tokensAt id).contains tuple = (session.matched.tokensAt id).contains tuple
  blockedAt : ∀ {id tuple}, ¬ session.StopsBehind fact id tuple →
    (after.matched.blockedAt id).find? tuple = (session.matched.blockedAt id).find? tuple
  /-- No other match is lost, nor found, nor in another state, and the others that wait are in their
  order. -/
  states : ∀ {found}, ¬ session.StopsMatch fact found →
    after.agenda.states.find? found = session.agenda.states.find? found
  pending : ∀ {spared : Match → Bool},
    (∀ found, spared found = true → ¬ session.StopsMatch fact found) →
      after.agenda.pending.filter (fun next => spared next.toMatch) =
        session.agenda.pending.filter fun next => spared next.toMatch
  /-- A match that comes of a token that was held back is tracked anew, if at all. -/
  anew : ∀ {found state}, session.StopsMatch fact found →
    after.agenda.states.find? found = some state →
      (state = .settled .suppressed ∧ session.agenda.firing = some found) ∨
        ∃ key, state = .pending key ∧ session.agenda.nextSequence ≤ key.sequence
  /-- What the fact held back alone was let through before, and the fact matches it. -/
  stops : ∀ {join token}, session.Stops fact join token →
    ∃ left input tests functions,
      session.network.kind? join = some (.join left input tests true functions) ∧
      (session.matched.leftTokens left).contains token = true ∧
      (session.matched.blockedAt join).find? token = none ∧
      (session.storing fact).view.Joins functions tests token session.memory.nextHandle

/-- The session with other counters of handles and of matches. -/
def recounted (session : Session) (nextHandle nextSequence : Nat) : Session :=
  { session with
    memory := { session.memory with nextHandle }
    agenda := { session.agenda with nextSequence } }

/-- A session is as another up to its counters, and has the same network memory record. -/
structure AsBefore (session after : Session) : Prop where
  alike : after.Alike true
    (session.recounted after.memory.nextHandle after.agenda.nextSequence)
  record : after.matched.toRecord = session.matched.toRecord

/-- The memories and the matches that are tracked are those of another session, and exact. -/
structure Rematched (session after : Session) : Prop where
  matched : after.matched.Alike session.matched
  record : after.matched.toRecord = session.matched.toRecord
  known : ∀ found, after.agenda.knows found = session.agenda.knows found
  exact : after.Exact after.memory.facts

private theorem follows_sent (session : Session) (fact : Object) :
    ∃ result, (session.storing fact).Follows (MatchM.assert · · session.memory.nextHandle) result
      (session.sent fact) :=
  ⟨_, _, ends_run _ _, rfl⟩

private theorem eq_sent {result : Except Error Unit}
    (follows : (session.storing fact).Follows (MatchM.assert · · session.memory.nextHandle) result
      mid) : mid = session.sent fact := by
  obtain ⟨matching, run, rfl⟩ := follows
  exact congrArg (fun run => (session.storing fact).following run.2) run.symm

/-- What is stopped in the memories comes of a token that the fact holds back. -/
theorem stopped_iff {id : NodeId} {tuple : Tuple} :
    Stopped session.network (session.sent fact).agenda session.memory.nextHandle
      { memory := (session.sent fact).matched } id tuple ↔ session.StopsBehind fact id tuple := by
  constructor
  · rintro ⟨join, token, without, held, inside⟩
    exact ⟨join, token, ⟨without, held⟩, inside⟩
  · rintro ⟨join, token, ⟨without, held⟩, inside⟩
    exact ⟨join, token, without, held, inside⟩

namespace Intact

variable (intact : session.Intact)

include intact

/-- A match of no terminal node is not tracked. -/
theorem states_eq_none {found : Match} (none : ¬ ∃ id left terminal,
    session.network.kind? id = some (.terminal left terminal) ∧ terminal.rule = found.rule) :
    session.agenda.states.find? found = Option.none :=
  Agenda.knows_eq_false.mp (Bool.eq_false_iff.mpr fun known =>
    none (intact.matched.coherent.tracked known))

/-- The network holds no fact that is new. -/
theorem absent_nextHandle (id : NodeId) :
    (session.matched.factsAt id).contains session.memory.nextHandle = false :=
  Bool.eq_false_iff.mpr fun held => Bool.false_ne_true
    (intact.not_contains_nextHandle.symm.trans (intact.live ⟨id, held⟩))

/-- A new fact that is sent down changes only what it may. -/
theorem cameIn (fact : Object) :
    CameIn session.network session.agenda (session.sent fact).agenda (session.storing fact).view
      session.memory.nextHandle { memory := session.matched }
      { memory := (session.sent fact).matched } := by
  obtain ⟨result, sent, run, same⟩ := session.follows_sent fact
  have stored : Matching.Intact session.network session.agenda (session.storing fact).view.facts
      { memory := session.matched } := (intact.storing fact).matched
  rw [same]
  exact (assert_cameIn intact.sound stored intact.absent_nextHandle run).restart

/-- A session is intact after a new fact was sent through the network, even if it was held up
there. -/
theorem sent (fact : Object) : (session.sent fact).Intact := by
  obtain ⟨result, follows⟩ := session.follows_sent fact
  exact (intact.storing fact).assert follows

/-- A token that a new fact holds back alone was let through before. -/
theorem stops {join : NodeId} {token : Tuple} (stops : session.Stops fact join token) :
    ∃ left input tests functions,
      session.network.kind? join = some (.join left input tests true functions) ∧
      (session.matched.leftTokens left).contains token = true ∧
      (session.matched.blockedAt join).find? token = none ∧
      (session.storing fact).view.Joins functions tests token session.memory.nextHandle := by
  obtain ⟨left, input, tests, functions, live, offered, free, joins⟩ :=
    (intact.cameIn fact).stoppable stops.1 stops.2
  exact ⟨left, input, tests, functions, live, contains_leftTokens.mpr offered, free, joins⟩

/-- A match that comes of a token that is held back is not tracked meanwhile. -/
theorem states_sent_of_stopsMatch {found : Match} (stops : session.StopsMatch fact found) :
    (session.sent fact).agenda.states.find? found = none := by
  obtain ⟨id, left, terminal, live, rule, behind⟩ := stops
  have coherent := (intact.sent fact).matched.coherent
  cases found
  cases rule
  rw [← Network.matchState?_of_terminal live]
  refine Option.eq_none_iff_forall_ne_some.mpr fun state tracked => ?_
  obtain ⟨_, _, isTerminal, offered⟩ := coherent.matched tracked
  obtain ⟨facts, held, -⟩ := coherent.heldOnly_of_stopped (intact.sent fact).sound isTerminal rfl
    offered (stopped_iff.mpr behind)
  obtain ⟨_, _, _, _, isJoin, -⟩ := coherent.blocked held
  cases isTerminal.symm.trans isJoin

end Intact

/-! ## Insertions that are taken back -/

section

variable {last : Session} {taken : Except Error Unit} (intact : session.Intact)
  (back : (session.sent fact).Follows (MatchM.retract · · session.memory.nextHandle) taken last)

include intact back

/-- What does not come of a token that was held back is as before; if the fact was taken back
without a failure, memories that were exact are exact again. -/
theorem Intact.takesBack : ∃ returned, last = (session.sent fact).following returned ∧
    TakesBack session.network session.agenda (session.sent fact).agenda session.memory.nextHandle
      { memory := session.matched } { memory := (session.sent fact).matched } returned ∧
    Matching.Intact session.network (session.sent fact).agenda (session.storing fact).memory.facts
      returned ∧
    (taken = .ok () → session.Exact session.memory.facts →
      Matching.Exact session.network (session.sent fact).agenda (session.storing fact).view
        ((session.storing fact).memory.facts.erase session.memory.nextHandle) returned) := by
  have whole := intact.sent fact
  obtain ⟨returned, run, rfl⟩ := back
  obtain ⟨takesBack, restores⟩ :=
    takesBack_of_retract intact.sound (intact.cameIn fact) whole.matched (live_storing fact) run
  exact ⟨returned, rfl, takesBack, (retract_follows whole.sound whole.matched run).1,
    fun done exact => restores done (Exact.storing intact exact fact)⟩

/-- An insertion that is taken back disturbs only what comes of tokens that it held back. -/
theorem Intact.takenBack : session.TakenBack fact (last.dropping session.memory.nextHandle) := by
  obtain ⟨taken, nowhere⟩ := (intact.sent fact).retract back
  obtain ⟨returned, rfl, takesBack, -⟩ := intact.takesBack back
  have cells : ∀ {id tuple}, ¬ session.StopsBehind fact id tuple →
      returned.cell session.network (session.sent fact).agenda id tuple =
        Matching.cell session.network session.agenda { memory := session.matched } id tuple :=
    fun free => takesBack.place (mt stopped_iff.mp free)
  have states : ∀ {found}, ¬ session.StopsMatch fact found →
      ((session.sent fact).following returned).agenda.states.find? found =
        session.agenda.states.find? found := by
    intro found free
    by_cases terminal : ∃ id left terminal,
        session.network.kind? id = some (.terminal left terminal) ∧ terminal.rule = found.rule
    · obtain ⟨id, left, terminal, live, rule⟩ := terminal
      have same := congrArg Cell.matched
        (cells fun behind => free ⟨id, left, terminal, live, rule, behind⟩)
      cases found
      cases rule
      rw [← Network.matchState?_of_terminal live, ← Network.matchState?_of_terminal live]
      exact same
    · exact (taken.states_eq_none terminal).trans (intact.states_eq_none terminal).symm
  -- The agenda followed what was noted while the fact came in, and then while it was taken back.
  have firing : (session.sent fact).agenda.firing = session.agenda.firing :=
    session.agenda.firing_followAll _
  have counter : session.agenda.nextSequence ≤ (session.sent fact).agenda.nextSequence :=
    session.agenda.nextSequence_le_followAll _
  exact {
    retains := ⟨rfl, rfl, rfl, rfl⟩
    facts := (SortedMap.erase_insert ..).trans (SortedMap.erase_of_absent
      (SortedMap.contains_eq_false.mp intact.not_contains_nextHandle))
    globals := rfl
    nextHandle := Nat.le_trans (Nat.le_succ _) (Nat.le_max_left ..)
    nextSequence := Nat.le_trans counter (Agenda.nextSequence_le_followAll _ returned.changes)
    firing := (Agenda.firing_followAll _ returned.changes).trans firing
    halted := rfl
    disposed := rfl
    seeded := takesBack.seeded
    factsAt := takesBack.factsAt
    tokensAt := fun free => congrArg Cell.token (cells free)
    blockedAt := fun free => congrArg Cell.blocked (cells free)
    states
    pending := fun each => intact.consistent.filter_pending taken.consistent
      fun found isSpared => states (each found isSpared)
    anew := fun stops now => by
      rcases Agenda.states_followAll now with before | ⟨suppressed, fires⟩ | ⟨key, pending, from_⟩
      · cases (intact.states_sent_of_stopsMatch stops).symm.trans before
      · exact .inl ⟨suppressed, firing.symm.trans fires⟩
      · exact .inr ⟨key, pending, Nat.le_trans counter from_⟩
    stops := intact.stops }

end

/-- An insertion that held back no token alone leaves the session as it was. -/
theorem TakenBack.asBefore (takenBack : session.TakenBack fact after) (intact : session.Intact)
    (intactAfter : after.Intact) (free : ∀ join token, ¬ session.Stops fact join token) :
    session.AsBefore after := by
  have nowhere : ∀ {id tuple}, ¬ session.StopsBehind fact id tuple := by
    rintro id tuple ⟨join, token, stops, -⟩
    exact free join token stops
  have matched : after.matched.Alike session.matched := by
    refine ⟨takenBack.seeded, fun id => congrFun takenBack.factsAt id, fun id => ?_, fun id => ?_⟩
    · exact SortedSet.ext_contains fun tuple => takenBack.tokensAt nowhere
    · exact SortedMap.ext_find? fun tuple => takenBack.blockedAt nowhere
  have agenda := intact.consistent.eq_of_states intactAfter.consistent
    (fun found => takenBack.states (by rintro ⟨_, _, _, -, -, behind⟩; exact nowhere behind))
    takenBack.firing
  have memory : after.memory =
      { session.memory with nextHandle := after.memory.nextHandle } := by
    change _ = WorkingMemory.mk session.memory.facts session.memory.globals _
    rw [← takenBack.facts, ← takenBack.globals]
  obtain ⟨catalog, network, globalTypes, config⟩ := takenBack.retains
  exact ⟨⟨catalog, network, globalTypes, config, memory, matched, agenda, takenBack.disposed,
    fun _ => takenBack.halted⟩, matched.toRecord⟩

/-- When the fact was taken back without a failure, memories that were exact keep the same again and
the same matches are tracked. -/
theorem Intact.rematched {last : Session} (intact : session.Intact)
    (back : (session.sent fact).Follows (MatchM.retract · · session.memory.nextHandle) (.ok ())
      last) (exact : session.Exact session.memory.facts) :
    session.Rematched (last.dropping session.memory.nextHandle) := by
  obtain ⟨taken, nowhere⟩ := (intact.sent fact).retract back
  obtain ⟨returned, rfl, takesBack, whole, restores⟩ := intact.takesBack back
  have again := restores rfl exact
  have cells := Matching.Exact.cell_unique intact.sound (Exact.storing intact exact fact)
    intact.matched.coherent again whole.coherent takesBack.factsAt
  have matched : returned.memory.Alike session.matched := by
    refine ⟨takesBack.seeded, fun id => congrFun takesBack.factsAt id, fun id => ?_, fun id => ?_⟩
    · exact SortedSet.ext_contains fun tuple => (cells id tuple).1
    · exact SortedMap.ext_find? fun tuple => (cells id tuple).2.1
  refine ⟨matched, matched.toRecord, fun found => ?_, ?_⟩
  · by_cases terminal : ∃ id left terminal,
        session.network.kind? id = some (.terminal left terminal) ∧ terminal.rule = found.rule
    · obtain ⟨id, left, terminal, live, rule⟩ := terminal
      cases found
      cases rule
      exact Bool.eq_iff_iff.mpr ((returned.knows_iff_matched live _).trans
        ((cells id _).2.2.trans
          (Matching.knows_iff_matched { memory := session.matched } live _).symm))
    · exact (Agenda.knows_eq_false.mpr (taken.states_eq_none terminal)).trans
        (Agenda.knows_eq_false.mpr (intact.states_eq_none terminal)).symm
  · exact Exact.dropping taken (Exact.following (intact.sent fact) again whole) nowhere

end Session

namespace KnowledgeBase

variable {base : KnowledgeBase} {config : SessionConfig} {session : Session}

/-- An insertion that fails is not taken up, or its fact is taken back. Then only what comes of
tokens that the fact held back alone may differ; without such tokens the session is as before up to
its counters. If no further condition fails and the memories were exact, they are the same, and so
are the matches that are tracked. Conditions are evaluated anew where tokens are let through again,
so that memories from before a change of the globals need not come back; see `Mends.faithful` for
sessions whose memories are exact. -/
theorem Made.takenBack_of_visits (made : base.Made) {before after : SessionRun}
    (visits : base.Visits config before.session) {fact : Object} {error : Error}
    (run : Ends (SessionM.insert fact) before (.error error) after) :
    (Refusal error ∧ after = before) ∨
      ∃ later, after.failures = before.failures ++ error :: later ∧
        before.session.TakenBack fact after.session ∧
        ((∀ join token, ¬ before.session.Stops fact join token) →
          before.session.AsBefore after.session) ∧
        (later = [] → before.session.Exact before.session.memory.facts →
          before.session.Rematched after.session) := by
  have intact := visits.intact made.proper.network.sound
  cases SessionM.inserting_of_ends run with
  | refused refusal => exact .inl ⟨refusal, rfl⟩
  | @takenBack _ failed last taken alive typed sent back =>
      obtain ⟨follows, failures⟩ := SessionM.ends_propagate sent
      obtain ⟨returns, moreFailures⟩ := SessionM.ends_propagate back
      have intactAfter := intact.step (.inserts (.takenBack alive typed follows returns))
      rw [Session.eq_sent follows] at returns
      have takenBack := intact.takenBack returns
      refine .inr ⟨failuresOf taken, ?_, takenBack, takenBack.asBefore intact intactAfter,
        fun none exact => ?_⟩
      · exact moreFailures.trans (failures ▸ List.append_assoc ..)
      · cases taken with
        | error error => cases none
        | ok => exact intact.rematched returns exact

/-! ## Sessions whose failures were mended -/

/-- The sessions that steps of requests lead to in which a condition fails only where an insertion
is taken back without a further failure. -/
inductive Mends (base : KnowledgeBase) (config : SessionConfig) : Session → Prop
  | new {session : Session} (made : base.newSession config = .ok session) :
      Mends base config session
  | step {session after : Session} (mends : Mends base config session)
      (step : session.Step [] after) : Mends base config after
  | takenBack {session after : Session} {fact : Object} {error : Error}
      (mends : Mends base config session)
      (inserts : session.Inserts fact (.error error) after [error]) : Mends base config after

namespace Mends

variable (mends : base.Mends config session)

include mends

private theorem leads : ∃ errors, base.Leads config session errors := by
  induction mends with
  | new made => exact ⟨[], .new made⟩
  | step _ step ih =>
      obtain ⟨errors, leads⟩ := ih
      exact ⟨_, leads.step step⟩
  | takenBack _ inserts ih =>
      obtain ⟨errors, leads⟩ := ih
      exact ⟨_, leads.step (.inserts inserts)⟩

/-- If no rule reads a global, the memories are exact again whenever a failure was mended. -/
theorem faithful (proper : base.Proper) (quiet : base.Quiet) : session.Faithful [] := by
  have network : base.network.Quiet :=
    proper.network.quiet (fun own other same => own.unique other same) quiet
  induction mends with
  | new made => exact .new proper.network.sound network made
  | step _ step ih => exact ih.step step
  | takenBack _ inserts ih =>
      have step := Session.Step.inserts inserts
      refine ⟨ih.intact.step step, step.retains.network ▸ ih.quiet, fun _ _ => ?_⟩
      generalize isFailures : [_] = failures at inserts
      cases inserts with
      | refused => cases isFailures
      | @takenBack _ failed last taken alive typed follows back =>
          cases taken with
          | error error => cases isFailures
          | ok =>
              rw [Session.eq_sent follows] at back
              exact (ih.intact.rematched back (ih.exact rfl alive)).exact

omit mends in
/-- A request in which no condition fails leads on. -/
theorem perform {before after : SessionRun} {request : Request} {result : Except Error Answer}
    (mends : base.Mends config before.session)
    (run : Ends (SessionM.perform request) before result after)
    (clean : after.failures = before.failures) : base.Mends config after.session :=
  SessionM.perform_clean (fun mends step => .step mends step) run clean mends

end Mends

/-- As long as every failure is mended, the agenda tracks exactly the matches of each rule that
brute force finds. -/
theorem Made.knows_iff_of_mends (made : base.Made) (quiet : base.Quiet)
    (mends : base.Mends config session) (alive : session.disposed = false) {id : RuleId}
    {rule : Rule} (found : base.network.rule? id = some rule) (tuple : Tuple) :
    session.agenda.knows ⟨id, tuple⟩ = true ↔ tuple ∈ rule.bruteForce session.view := by
  obtain ⟨errors, leads⟩ := mends.leads
  exact (mends.faithful made.proper quiet).knows_iff made.proper rfl alive leads.network found tuple

end KnowledgeBase

namespace Sensors

/-- No sensor is known, and the rule for that has fired. -/
def idle : SessionRun := asking (.fire none) opened

private theorem idle_visits : base.Visits {} idle.session := asking_visits opened_visits

private theorem idle_exact : idle.session.Exact idle.session.memory.facts :=
  ((asking_leads opened_leads).faithful made.proper quiet).exact
    (List.eq_nil_of_length_eq_zero (by decide +kernel)) (by decide +kernel)

/-- A low level is known, which holds back what a lower one would hold back. -/
def low : SessionRun := asking (.insert (reading 2)) opened

private theorem low_visits : base.Visits {} low.session := asking_visits opened_visits

/-- The insertion of a reading that the reference cannot be divided by, with the result. -/
def refusing (before : SessionRun) : Except Error Handle × SessionRun :=
  (SessionM.insert (reading 0)).run.run before

private theorem ends_refusing {before : SessionRun}
    (fails : (refusing before).1.toOption.isNone = true) :
    ∃ error, Ends (SessionM.insert (reading 0)) before (.error error) (refusing before).2 := by
  cases result : (refusing before).1 with
  | error error => exact ⟨error, result ▸ ends_run (SessionM.insert (reading 0)) before⟩
  | ok handle =>
      rw [result] at fails
      cases fails

/-- An insertion with one failure more was taken back, and no further condition has failed. -/
theorem mended_of_once {before after : SessionRun} {error : Error} {left : List Error → Prop}
    (outcome : (Refusal error ∧ after = before) ∨
      ∃ later, after.failures = before.failures ++ error :: later ∧ left later)
    (once : after.failures.length = before.failures.length + 1) : left [] := by
  obtain ⟨-, rfl⟩ | ⟨later, failures, isLeft⟩ := outcome
  · exact absurd once (Nat.ne_of_lt (Nat.lt_succ_self _))
  · rw [failures, List.length_append, List.length_cons, Nat.add_left_cancel_iff] at once
    exact List.eq_nil_of_length_eq_zero (Nat.succ.inj once) ▸ isLeft

/-- Where a level is known that holds a token back already, a second one holds back none alone. -/
theorem low_stops_nothing (join : NodeId) (token : Tuple) :
    ¬ low.session.Stops (reading 0) join token := by
  rintro ⟨-, facts, held, only⟩
  have first : ((low.session.sent (reading 0)).matched.blockers.entries.all fun blocked =>
      blocked.2.values.all (·.contains 1)) = true := by decide +kernel
  have within : facts.contains 1 = true := by
    unfold NetworkMemory.blockedAt at held
    cases found : (low.session.sent (reading 0)).matched.blockers.find? join with
    | none =>
        rw [found] at held
        cases held
    | some blocked =>
        rw [found] at held
        have each := List.all_eq_true.mp first _ ((SortedMap.mem_entries ..).mpr found)
        exact List.all_eq_true.mp each _ (SortedMap.mem_values.mpr ⟨token, held⟩)
  have next : low.session.memory.nextHandle = 2 := by decide +kernel
  have same := (only 1).mp within
  rw [next] at same
  cases same

/-- The reference cannot be divided by a level of zero. Its rollback lets the rule that had fired
without readings wait again, as the level had held back the empty tuple; where another level holds
it back too, the session is as before. -/
theorem idle_takenBack : base.Made ∧
    (base.Visits {} idle.session ∧ idle.session.Exact idle.session.memory.facts ∧
      (∃ error, Ends (SessionM.insert (reading 0)) idle (.error error) (refusing idle).2) ∧
      idle.session.TakenBack (reading 0) (refusing idle).2.session ∧
      idle.session.StopsMatch (reading 0) ⟨0, []⟩ ∧
      idle.session.Rematched (refusing idle).2.session) ∧
    base.Visits {} low.session ∧ (∀ join token, ¬ low.session.Stops (reading 0) join token) ∧
      (∃ error, Ends (SessionM.insert (reading 0)) low (.error error) (refusing low).2) ∧
      low.session.AsBefore (refusing low).2.session := by
  obtain ⟨error, run⟩ :=
    ends_refusing (by decide +kernel : (refusing idle).1.toOption.isNone = true)
  obtain ⟨other, lowRun⟩ :=
    ends_refusing (by decide +kernel : (refusing low).1.toOption.isNone = true)
  have differs : (refusing idle).2.session.agenda.states.find? ⟨0, []⟩ ≠
      idle.session.agenda.states.find? ⟨0, []⟩ := by decide +kernel
  obtain ⟨takenBack, -, rematched⟩ := mended_of_once
    (KnowledgeBase.Made.takenBack_of_visits made idle_visits run) (by decide +kernel)
  obtain ⟨-, asBefore, -⟩ := mended_of_once
    (KnowledgeBase.Made.takenBack_of_visits made low_visits lowRun) (by decide +kernel)
  refine ⟨made, ⟨idle_visits, idle_exact, ⟨error, run⟩, takenBack, ?_, rematched rfl idle_exact⟩,
    low_visits, low_stops_nothing, ⟨other, lowRun⟩, asBefore low_stops_nothing⟩
  by_contra free
  exact differs (takenBack.states free)

/-- The match that had fired waits again after the insertion has failed. -/
theorem refused_waits_again : base.Visits {} idle.session ∧
    (∃ error, Ends (SessionM.insert (reading 0)) idle (.error error) (refusing idle).2) ∧
    idle.session.agenda.pending = [] ∧
    idle.session.agenda.settled.map (fun entry => entry.1.tuple) = [[]] ∧
    (refusing idle).2.session.agenda.pending.map (fun next => (next.tuple, next.sequence)) =
      [([], 1)] :=
  ⟨idle_visits, ends_refusing (by decide +kernel), by decide +kernel, by decide +kernel,
    by decide +kernel⟩

end Sensors

end Rete
