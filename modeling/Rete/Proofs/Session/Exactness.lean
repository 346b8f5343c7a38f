import Rete.Proofs.Matching.BruteForce
import Rete.Proofs.Matching.Failures
import Rete.Proofs.Session.Admission
import Rete.Proofs.Session.Structure

/-!
# Sessions in which no condition has failed

As long as no condition has failed, the memories of a session whose rules read no global are exact
(`Session.Faithful`): each step of a request starts from exact memories and leaves exact ones
(`Faithful.step`). So the agenda tracks the matches of each rule that brute force finds
(`KnowledgeBase.Made.knows_iff_bruteForce`). Only conditions end a propagation (`Intact.raised`).
-/

namespace Rete

open Matching

namespace Session

variable {session after : Session} {handle : Handle} {fact : Object}

/-- The memories are exact for some facts, under what the conditions see. -/
def Exact (session : Session) (facts : Facts) : Prop :=
  Matching.Exact session.network session.agenda session.view facts { memory := session.matched }

/-- The session is intact, and its memories are exact for its facts unless a condition has
failed. -/
structure Faithful (session : Session) (errors : List Error) : Prop where
  intact : session.Intact
  quiet : session.network.Quiet
  exact : errors = [] → session.disposed = false → session.Exact session.memory.facts

section

variable (intact : session.Intact) {facts : Facts}

include intact

/-- The memories stay exact while the facts that are held stay the same, whatever the globals if no
rule reads them. -/
theorem Exact.withMemory (exact : session.Exact facts) {memory : WorkingMemory}
    (quiet : session.memory.globals = memory.globals ∨ session.network.Quiet)
    (same : ∀ {handle}, session.Holds handle →
      session.memory.facts.find? handle = memory.facts.find? handle) :
    (session.withMemory memory).Exact facts := by
  apply Matching.Exact.transfer exact intact.sound intact.matched.coherent
  · exact quiet
  · exact ⟨rfl, rfl, fun handle held => same held⟩
  · rfl
  · exact fun found known => known

private theorem Exact.withAgenda (exact : session.Exact facts) {agenda : Agenda}
    (known : ∀ found, session.agenda.knows found = true → agenda.knows found = true) :
    Exact { session with agenda } facts := by
  apply Matching.Exact.transfer exact intact.sound intact.matched.coherent
  · exact .inl rfl
  · exact ⟨rfl, rfl, fun handle held => rfl⟩
  · rfl
  · exact known

/-- Exact memories of a session that has followed a change. -/
theorem Exact.following {matching : Matching}
    (exact : Matching.Exact session.network session.agenda session.view facts matching)
    (matched : Matching.Intact session.network session.agenda session.memory.facts matching) :
    (session.following matching).Exact facts := by
  apply Matching.Exact.transfer exact intact.sound matched.coherent
  · exact .inl rfl
  · exact ⟨rfl, rfl, fun handle held => rfl⟩
  · rfl
  · exact fun found known => known

/-- The memories are exact with a fact that has come in without a failure. -/
theorem Exact.assert (follows : session.Follows (MatchM.assert · · handle) (.ok ()) after)
    (exact : session.Exact (session.memory.facts.erase handle)) :
    after.Exact after.memory.facts := by
  obtain ⟨matching, run, rfl⟩ := follows
  obtain ⟨matched, next⟩ := assert_follows intact.sound intact.matched run
  exact Exact.following intact (next rfl exact) matched

/-- The memories are exact without a fact that was taken back without a failure. -/
theorem Exact.retract (follows : session.Follows (MatchM.retract · · handle) (.ok ()) after)
    (exact : session.Exact session.memory.facts) :
    after.Exact (session.memory.facts.erase handle) := by
  obtain ⟨matching, run, rfl⟩ := follows
  obtain ⟨matched, -, next⟩ := retract_follows intact.sound intact.matched run
  exact Exact.following intact (next rfl exact) matched

/-- A new fact is stored. -/
theorem Exact.storing (exact : session.Exact session.memory.facts) (fact : Object) :
    (session.storing fact).Exact
      ((session.storing fact).memory.facts.erase session.memory.nextHandle) := by
  have absent : session.memory.facts.find? session.memory.nextHandle = none :=
    SortedMap.contains_eq_false.mp intact.not_contains_nextHandle
  change (session.storing fact).Exact
    ((session.memory.facts.insert session.memory.nextHandle fact).erase session.memory.nextHandle)
  rw [SortedMap.erase_insert, SortedMap.erase_of_absent absent]
  apply Exact.withMemory intact exact
  · exact .inl rfl
  · intro other held
    change _ = (session.memory.facts.insert session.memory.nextHandle fact).find? other
    rw [SortedMap.find?_insert_eq, if_neg]
    rintro rfl
    exact Bool.false_ne_true (intact.not_contains_nextHandle.symm.trans (intact.live held))

/-- The fact of a handle that is held nowhere is replaced. -/
theorem Exact.replacing (exact : session.Exact (session.memory.facts.erase handle))
    (nowhere : ¬ session.Holds handle) (fact : Object) : (session.replacing handle fact).Exact
      ((session.replacing handle fact).memory.facts.erase handle) := by
  change (session.replacing handle fact).Exact
    ((session.memory.facts.insert handle fact).erase handle)
  rw [SortedMap.erase_insert]
  apply Exact.withMemory intact exact
  · exact .inl rfl
  · intro other held
    change _ = (session.memory.facts.insert handle fact).find? other
    rw [SortedMap.find?_insert_eq, if_neg]
    rintro rfl
    exact nowhere held

/-- The fact of a handle that is held nowhere is dropped. -/
theorem Exact.dropping (exact : session.Exact (session.memory.facts.erase handle))
    (nowhere : ¬ session.Holds handle) :
    (session.dropping handle).Exact (session.dropping handle).memory.facts := by
  apply Exact.withMemory intact exact
  · exact .inl rfl
  · intro other held
    change _ = (session.memory.facts.erase handle).find? other
    rw [SortedMap.find?_erase_eq, if_neg]
    rintro rfl
    exact nowhere held

end

namespace Faithful

variable {errors failures : List Error}

/-- What an insertion without failures leaves is exact. -/
theorem inserts (faithful : session.Faithful errors) {result : Except Error Handle}
    (inserts : session.Inserts fact result after failures) (clean : errors ++ failures = [])
    (alive : after.disposed = false) : after.Exact after.memory.facts := by
  obtain ⟨none, noFailures⟩ := List.append_eq_nil_iff.mp clean
  cases inserts with
  | refused => exact faithful.exact none alive
  | takenBack => cases noFailures
  | inserted before typed follows =>
      have exact := faithful.exact none before
      apply Exact.assert (faithful.intact.storing fact) follows
      exact Exact.storing faithful.intact exact fact

private theorem updates (faithful : session.Faithful errors) {result : Except Error Unit}
    (updates : session.Updates handle fact result after failures) (clean : errors ++ failures = [])
    (alive : after.disposed = false) : after.Exact after.memory.facts := by
  obtain ⟨none, noFailures⟩ := List.append_eq_nil_iff.mp clean
  cases updates with
  | refused => exact faithful.exact none alive
  | withdrawn => cases noFailures
  | @replaced mid after result before live typed first second =>
      cases result with
      | error error => cases noFailures
      | ok =>
          have exact := faithful.exact none before
          obtain ⟨taken, nowhere⟩ := faithful.intact.retract first
          have without := Exact.retract faithful.intact first exact
          obtain ⟨matching, -, rfl⟩ := first
          apply Exact.assert (taken.replacing nowhere fact) second
          exact Exact.replacing taken without nowhere fact

private theorem retracts (faithful : session.Faithful errors) {result : Except Error Object}
    (retracts : session.Retracts handle result after failures) (clean : errors ++ failures = [])
    (alive : after.disposed = false) : after.Exact after.memory.facts := by
  obtain ⟨none, noFailures⟩ := List.append_eq_nil_iff.mp clean
  cases retracts with
  | refused => exact faithful.exact none alive
  | @retracted found last result before live follows =>
      cases result with
      | error error => cases noFailures
      | ok =>
          have exact := faithful.exact none before
          obtain ⟨taken, nowhere⟩ := faithful.intact.retract follows
          have without := Exact.retract faithful.intact follows exact
          obtain ⟨matching, -, rfl⟩ := follows
          exact Exact.dropping taken without nowhere

/-- The memories of a new session are exact. -/
theorem new {base : KnowledgeBase} (sound : base.network.Sound) (quiet : base.network.Quiet)
    {config : SessionConfig} (made : base.newSession config = .ok session) :
    session.Faithful [] := by
  obtain ⟨matching, seeded, rfl⟩ := follows_of_newSession made
  have start := Intact.unseeded sound config
  have matched := (seed_follows start.sound start.matched seeded).1
  exact ⟨start.following matched, quiet, fun _ _ =>
    Exact.following start (exact_of_seed sound seeded) matched⟩

/-- However a step of a request ends, the session stays faithful. -/
theorem step (faithful : session.Faithful errors) (step : session.Step failures after) :
    after.Faithful (errors ++ failures) := by
  refine ⟨faithful.intact.step step, ?_, fun clean alive => ?_⟩
  · rw [step.retains.network]
    exact faithful.quiet
  · obtain ⟨none, -⟩ := List.append_eq_nil_iff.mp clean
    cases step with
    | inserts inserts => exact faithful.inserts inserts clean alive
    | updates updates => exact faithful.updates updates clean alive
    | retracts retracts => exact faithful.retracts retracts clean alive
    | globals =>
        have exact := faithful.exact none alive
        exact Exact.withMemory faithful.intact exact (.inr faithful.quiet) fun _ => rfl
    | halted halted => exact faithful.exact none alive
    | @pops next agenda popped =>
        have exact := faithful.exact none alive
        apply Exact.withAgenda faithful.intact exact
        intro found known
        obtain ⟨-, rfl⟩ := Agenda.pop?_eq_some popped
        change (session.agenda.states.insert next.toMatch (.settled .fired)).contains found = true
        rw [SortedMap.contains_insert, Bool.or_eq_true]
        exact .inr known
    | finishes =>
        have exact := faithful.exact none alive
        exact Exact.withAgenda faithful.intact exact fun _ known => known
    | givesUp => cases alive

end Faithful

/-- What the agenda tracks of a rule is what brute force finds, if no condition has failed. -/
theorem Faithful.knows_iff {base : KnowledgeBase} (proper : base.Proper) {errors : List Error}
    (faithful : session.Faithful errors) (clean : errors = []) (alive : session.disposed = false)
    (network : session.network = base.network) {id : RuleId} {rule : Rule}
    (found : base.network.rule? id = some rule) (tuple : Tuple) :
    session.agenda.knows ⟨id, tuple⟩ = true ↔ tuple ∈ rule.bruteForce session.view := by
  have intact := faithful.intact
  have exact := faithful.exact clean alive
  obtain ⟨entry, isEntry, rfl⟩ := Option.map_eq_some_iff.mp found
  obtain ⟨isScoped, provided⟩ := proper.network.rule isEntry
  rw [← network] at isEntry
  obtain ⟨⟨left, live, -, realizes⟩, -⟩ := intact.sound.represents isEntry
  have tables : ∀ {id kind own}, session.network.kind? id = some kind → kind.table? = some own →
      own.package = entry.rule.functions.package → own = entry.rule.functions := by
    intro id kind own live isOwn
    rw [network] at live
    exact (proper.network.node live isOwn).unique provided
  have offered := Matching.Exact.offered_iff_bruteForce faithful.quiet tables exact
    intact.matched.coherent realizes (fun _ member => isScoped.readsTuple_alpha member) tuple
  refine Iff.trans ⟨fun known => ?_, fun here => ?_⟩ offered
  · obtain ⟨other, otherLeft, isOther, otherLive, -, here⟩ := intact.offered known
    cases isEntry.symm.trans isOther
    cases live.symm.trans otherLive
    exact here
  · have settled : (Matching.cell session.network session.agenda { memory := session.matched }
        entry.terminal tuple).matched ≠ none := exact.settled live rfl here
    obtain ⟨state, isState⟩ := Option.ne_none_iff_exists'.mp settled
    obtain ⟨_, terminal, isTerminal, tracked⟩ := Network.matchState?_eq_some.mp isState
    cases live.symm.trans isTerminal
    exact SortedMap.contains_eq_true.mpr ⟨state, tracked⟩

/-! ## What has failed -/

/-- What the memories of an intact session show is live and of the right length. -/
theorem Intact.shown (intact : session.Intact) :
    Shown session.network session.view { memory := session.matched } where
  live {id _} held := intact.live ⟨id, held⟩
  arity present := intact.matched.coherent.arity intact.sound (contains_leftTokens.mp present)

private theorem Intact.raised_of_assert (intact : session.Intact) {result : Except Error Unit}
    (live : session.memory.contains handle = true)
    (follows : session.Follows (MatchM.assert · · handle) result after) :
    ∀ error ∈ failuresOf result, RaisedInPlace session.network session.view error := by
  obtain ⟨matching, run, rfl⟩ := follows
  exact (assert_raised intact.sound intact.shown live run).of_failuresOf

private theorem Intact.raised_of_retract (intact : session.Intact) {result : Except Error Unit}
    (live : session.memory.contains handle = true)
    (follows : session.Follows (MatchM.retract · · handle) result after) :
    ∀ error ∈ failuresOf result, RaisedInPlace session.network session.view error := by
  obtain ⟨matching, run, rfl⟩ := follows
  exact (retract_raised intact.sound intact.shown live run).of_failuresOf

/-- A fact that has been stored is live. -/
theorem live_storing (fact : Object) :
    (session.storing fact).memory.contains session.memory.nextHandle = true := by
  rw [contains_storing, decide_eq_true rfl, Bool.true_or]

private theorem live_replacing (handle : Handle) (fact : Object) :
    (session.replacing handle fact).memory.contains handle = true := by
  rw [contains_replacing, decide_eq_true rfl, Bool.true_or]

/-- What ends a propagation is the failure of a condition. -/
theorem Intact.raised {failures : List Error} (intact : session.Intact)
    (step : session.Step failures after) : ∀ error ∈ failures, ∃ view : FactView,
      view.catalog = session.catalog ∧ RaisedInPlace session.network view error := by
  intro error member
  cases step with
  | inserts inserts =>
      cases inserts with
      | refused | inserted => cases member
      | takenBack alive typed follows back =>
          have stored := intact.storing
          rcases List.mem_cons.mp member with rfl | later
          · exact ⟨_, rfl, (stored _).raised_of_assert (live_storing _) follows _
              (List.mem_singleton_self _)⟩
          · have failed := (stored _).assert follows
            obtain ⟨matching, -, rfl⟩ := follows
            exact ⟨_, rfl, failed.raised_of_retract (live_storing _) back error later⟩
  | updates updates =>
      cases updates with
      | refused => cases member
      | withdrawn alive live typed follows =>
          exact ⟨_, rfl, intact.raised_of_retract live follows error member⟩
      | replaced alive live typed first second =>
          obtain ⟨taken, nowhere⟩ := intact.retract first
          have raised := (taken.replacing nowhere _).raised_of_assert (live_replacing _ _) second
            error member
          obtain ⟨matching, -, rfl⟩ := first
          exact ⟨_, rfl, raised⟩
  | retracts retracts =>
      cases retracts with
      | refused => cases member
      | retracted alive live follows =>
          have present := SortedMap.contains_eq_true.mpr ⟨_, live⟩
          exact ⟨_, rfl, intact.raised_of_retract present follows error member⟩
  | globals | halted | pops | finishes | givesUp => cases member

end Session

namespace KnowledgeBase

variable {base : KnowledgeBase} {config : SessionConfig} {session : Session} {errors : List Error}

/-- The sessions that steps of requests lead to, with the errors that ended a propagation on the
way. -/
inductive Leads (base : KnowledgeBase) (config : SessionConfig) : Session → List Error → Prop
  | new {session : Session} (made : base.newSession config = .ok session) :
      Leads base config session []
  | step {session after : Session} {errors failures : List Error}
      (leads : Leads base config session errors) (step : session.Step failures after) :
      Leads base config after (errors ++ failures)

/-- Requests take steps only, also those that fail. -/
theorem Leads.perform {before after : SessionRun}
    (leads : base.Leads config before.session before.failures) {request : Request}
    {result : Except Error Answer} (run : Ends (SessionM.perform request) before result after) :
    base.Leads config after.session after.failures :=
  have kept : Session.Kept (base.Leads config) := ⟨.step⟩
  (SessionM.Kept.perform kept request).keeps run leads

/-- Requests never change the network. -/
theorem Leads.network (leads : base.Leads config session errors) :
    session.network = base.network := by
  induction leads with
  | new made =>
      obtain ⟨matching, -, rfl⟩ := Session.follows_of_newSession made
      rfl
  | step _ step ih => exact step.retains.network.trans ih

private theorem Leads.intact (leads : base.Leads config session errors)
    (sound : base.network.Sound) :
    session.Intact := by
  induction leads with
  | new made => exact .new sound made
  | step _ step ih => exact ih.step step

/-- The rules of the network read no global. -/
def Quiet (base : KnowledgeBase) : Prop :=
  ∀ {id rule}, base.network.rule? id = some rule → rule.Quiet

/-- What requests lead to is faithful, if no rule reads globals. -/
theorem Leads.faithful (leads : base.Leads config session errors) (proper : base.Proper)
    (quiet : base.Quiet) : session.Faithful errors := by
  have network : base.network.Quiet :=
    proper.network.quiet (fun own other same => own.unique other same) quiet
  induction leads with
  | new made => exact .new proper.network.sound network made
  | step _ step ih => exact ih.step step

/-- Only conditions end a propagation. -/
theorem Leads.raised (leads : base.Leads config session errors) (sound : base.network.Sound) :
    ∀ error ∈ errors, ∃ view, Raised base.network view error := by
  induction leads with
  | new made => exact fun error none => absurd none List.not_mem_nil
  | step leads step ih =>
      intro error member
      rcases List.mem_append.mp member with earlier | new
      · exact ih error earlier
      · obtain ⟨view, -, inPlace⟩ := (leads.intact sound).raised step error new
        exact ⟨view, leads.network ▸ inPlace.forget⟩

/-- Without failures, the agenda tracks exactly the matches of each rule that brute force finds, at
every step of every request; only conditions fail. -/
theorem Made.knows_iff_bruteForce (made : base.Made) (quiet : base.Quiet) {before : SessionRun}
    (leads : base.Leads config before.session before.failures) :
    (before.failures = [] → before.session.disposed = false → ∀ {id rule},
      before.session.network.rule? id = some rule → ∀ tuple,
        before.session.agenda.knows ⟨id, tuple⟩ = true ↔
          tuple ∈ rule.bruteForce before.session.view) ∧
      (∀ error ∈ before.failures, ∃ view, Raised base.network view error) ∧
      ∀ {request result after}, Ends (SessionM.perform request) before result after →
        base.Leads config after.session after.failures := by
  have proper := made.proper
  refine ⟨fun clean alive id rule found tuple => ?_, leads.raised proper.network.sound,
    fun {request result after} run => leads.perform run⟩
  rw [leads.network] at found
  exact (leads.faithful proper quiet).knows_iff proper clean alive leads.network found tuple

end KnowledgeBase

namespace Sensors

/-- No condition of the rules reads a global. -/
theorem quiet : base.Quiet := by
  have plain : base.network.rules.values.all (fun entry =>
    entry.rule.conditions.all fun condition =>
      condition.tests.all fun test => !test.readsGlobals && !test.callsLocal) = true := by
    decide +kernel
  intro id rule found
  obtain ⟨entry, isEntry, rfl⟩ := Option.map_eq_some_iff.mp found
  intro condition member test isTest
  have each := List.all_eq_true.mp plain entry (SortedMap.mem_values.mpr ⟨id, isEntry⟩)
  have both := List.all_eq_true.mp (List.all_eq_true.mp each condition member) test isTest
  rw [Bool.and_eq_true, Bool.not_eq_true', Bool.not_eq_true'] at both
  exact .of_plain both.1 both.2

/-- Every request leads on. -/
theorem asking_leads {request : Request} {before : SessionRun}
    (leads : base.Leads {} before.session before.failures) :
    base.Leads {} (asking request before).session (asking request before).failures :=
  leads.perform (ends_run (SessionM.perform request) before)

/-- Requests lead from the new session. -/
theorem opened_leads : base.Leads {} opened.session opened.failures := .new opened_eq

/-- Three readings have come in and one has changed; one rule has fired. -/
def watched : SessionRun :=
  asking (.fire (some 1)) <| asking (.update 1 (reading 40)) <| asking (.insert (reading 4)) <|
    asking (.insert (reading 30)) <| asking (.insert (reading 5)) opened

private theorem watched_leads : base.Leads {} watched.session watched.failures :=
  asking_leads <| asking_leads <| asking_leads <| asking_leads <| asking_leads opened_leads

/-- The lowest of the high readings is the only match of its rule. -/
theorem watched_knows_iff : base.Made ∧ base.Quiet ∧
    base.Leads {} watched.session watched.failures ∧ watched.failures = [] ∧
    watched.session.disposed = false ∧ ∃ rule, watched.session.network.rule? 1 = some rule ∧
      rule.bruteForce watched.session.view = [[3]] ∧ ∀ tuple,
        watched.session.agenda.knows ⟨1, tuple⟩ = true ↔
          tuple ∈ rule.bruteForce watched.session.view := by
  have clean : watched.failures = [] := List.eq_nil_of_length_eq_zero (by decide +kernel)
  have alive : watched.session.disposed = false := by decide +kernel
  have lowest : (watched.session.network.rule? 1).map
      (fun rule => rule.bruteForce watched.session.view) = some [[3]] := by decide +kernel
  obtain ⟨rule, found, same⟩ := Option.map_eq_some_iff.mp lowest
  refine ⟨made, quiet, watched_leads, clean, alive, rule, found, same, fun tuple => ?_⟩
  exact (KnowledgeBase.Made.knows_iff_bruteForce made quiet watched_leads).1 clean alive found tuple

end Sensors

end Rete
