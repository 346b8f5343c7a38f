import Rete.Proofs.Matching.Following
import Rete.Session.Firing

/-!
# What an operation on a session does

Propagation hands the changes of the complete matches to the agenda (`ends_propagate`), and each
operation on facts is one or two propagations with a change of the working memory in between
(`ends_insert`, `ends_updateFact`, `ends_retract`). The firing loop is made of these, of changes of
the globals and of steps of the agenda, so whatever all of them keep is kept by every request
(`Kept.perform`).
-/

namespace Rete

/-- The session after the network has followed a change. -/
def Session.following (session : Session) (matching : Matching) : Session :=
  { session with matched := matching.memory, agenda := matching.agenda session.agenda }

/-- The network follows a change, with a result. -/
def Session.Follows (step : Network → FactView → MatchM Unit) (session : Session)
    (result : Except Error Unit) (after : Session) : Prop :=
  ∃ matching, Ends (step session.network session.view) { memory := session.matched } result
    matching ∧ after = session.following matching

/-- The errors of a result. -/
def failuresOf {α : Type} : Except Error α → List Error
  | .ok _ => []
  | .error error => [error]

/-- What fails in an operation is what its outcome allows. -/
theorem Outcome.of_failuresOf {α : Type} {result : Except Error α} {failure : Error → Prop}
    (outcome : Outcome result (fun _ => True) failure) :
    ∀ error ∈ failuresOf result, failure error := by
  intro error member
  cases result with
  | ok => cases member
  | error other => exact List.mem_singleton.mp member ▸ outcome

/-- Why a request is not taken up: the session was given up, or what it names is not there. -/
inductive Refusal : Error → Prop
  | disposed : Refusal (Error.of .sessionDisposed)
  | unknownType (name : String) : Refusal (Error.of (.unknownType name))
  | unknownFact (handle : Handle) : Refusal (Error.of (.unknownFact handle))

/-- A request fails with a refusal, or with an error that ended a propagation. -/
abbrev FailsBy {α : Type} (result : Except Error α) (failures : List Error) : Prop :=
  Outcome result (fun _ => True) fun error => Refusal error ∨ error ∈ failures

private theorem failsBy_failuresOf {α : Type} (result : Except Error α) :
    FailsBy result (failuresOf result) := by
  cases result with
  | ok => exact trivial
  | error error => exact .inr (List.mem_singleton_self error)

namespace Session

/-- The session with other facts and globals. -/
def withMemory (session : Session) (memory : WorkingMemory) : Session := { session with memory }

/-- A new fact is stored under the next handle. -/
def storing (session : Session) (fact : Object) : Session :=
  session.withMemory (session.memory.allocate.2.put session.memory.nextHandle fact)

/-- The fact of a handle is replaced. -/
def replacing (session : Session) (handle : Handle) (fact : Object) : Session :=
  session.withMemory (session.memory.put handle fact)

/-- The fact of a handle is dropped. -/
def dropping (session : Session) (handle : Handle) : Session :=
  session.withMemory (session.memory.remove handle)

/-- Storing a fact makes the next handle live. -/
theorem contains_storing (session : Session) (fact : Object) (handle : Handle) :
    (session.storing fact).memory.contains handle =
      (decide (handle = session.memory.nextHandle) || session.memory.contains handle) :=
  SortedMap.contains_insert ..

/-- Replacing a fact leaves its handle live. -/
theorem contains_replacing (session : Session) (handle : Handle) (fact : Object) (other : Handle) :
    (session.replacing handle fact).memory.contains other =
      (decide (other = handle) || session.memory.contains other) :=
  SortedMap.contains_insert ..

/-- Dropping a fact takes its handle off. -/
theorem contains_dropping (session : Session) (handle other : Handle) :
    (session.dropping handle).memory.contains other =
      (!decide (other = handle) && session.memory.contains other) :=
  SortedMap.contains_erase ..

/-- What inserting a fact does: with a result, the session afterwards, and the errors that ended a
propagation. -/
inductive Inserts (session : Session) (fact : Object) :
    Except Error Handle → Session → List Error → Prop
  | refused {error : Error} : Inserts session fact (.error error) session []
  | inserted {after : Session} (alive : session.disposed = false)
      (typed : session.catalog.contains fact.typeName = true)
      (follows : (session.storing fact).Follows (MatchM.assert · · session.memory.nextHandle)
        (.ok ()) after) :
      Inserts session fact (.ok session.memory.nextHandle) after []
  | takenBack {error : Error} {failed last : Session} {taken : Except Error Unit}
      (alive : session.disposed = false)
      (typed : session.catalog.contains fact.typeName = true)
      (follows : (session.storing fact).Follows (MatchM.assert · · session.memory.nextHandle)
        (.error error) failed)
      (back : failed.Follows (MatchM.retract · · session.memory.nextHandle) taken last) :
      Inserts session fact (.error error) (last.dropping session.memory.nextHandle)
        (error :: failuresOf taken)

/-- What replacing a fact does. -/
inductive Updates (session : Session) (handle : Handle) (fact : Object) :
    Except Error Unit → Session → List Error → Prop
  | refused {error : Error} : Updates session handle fact (.error error) session []
  | withdrawn {error : Error} {after : Session} (alive : session.disposed = false)
      (live : session.memory.contains handle = true)
      (typed : session.catalog.contains fact.typeName = true)
      (follows : session.Follows (MatchM.retract · · handle) (.error error) after) :
      Updates session handle fact (.error error) after [error]
  | replaced {mid after : Session} {result : Except Error Unit}
      (alive : session.disposed = false) (live : session.memory.contains handle = true)
      (typed : session.catalog.contains fact.typeName = true)
      (first : session.Follows (MatchM.retract · · handle) (.ok ()) mid)
      (second : (mid.replacing handle fact).Follows (MatchM.assert · · handle) result after) :
      Updates session handle fact result after (failuresOf result)

/-- What retracting a fact does. -/
inductive Retracts (session : Session) (handle : Handle) :
    Except Error Object → Session → List Error → Prop
  | refused {error : Error} : Retracts session handle (.error error) session []
  | retracted {fact : Object} {after : Session} {result : Except Error Unit}
      (alive : session.disposed = false) (live : session.memory.fact? handle = some fact)
      (follows : session.Follows (MatchM.retract · · handle) result after) :
      Retracts session handle (result.map fun _ => fact) (after.dropping handle)
        (failuresOf result)

end Session

namespace SessionRun

/-- A new fact is stored under the next handle, and it is told. -/
def storing (run : SessionRun) (fact : Object) : SessionRun :=
  { run with
    session := run.session.storing fact
    events := run.events ++ [.factInserted run.session.memory.nextHandle fact.typeName] }

/-- The fact of a handle is replaced, and it is told. -/
def replacing (run : SessionRun) (handle : Handle) (fact : Object) : SessionRun :=
  { run with
    session := run.session.replacing handle fact
    events := run.events ++ [.factUpdated handle fact.typeName] }

/-- The fact of a handle is dropped, and it is told. -/
def dropping (run : SessionRun) (handle : Handle) (typeName : String) : SessionRun :=
  { run with
    session := run.session.dropping handle
    events := run.events ++ [.factRetracted handle typeName] }

end SessionRun

namespace SessionM

variable {before after : SessionRun}

/-- How inserting a fact goes, propagation by propagation. -/
inductive Inserting (before : SessionRun) (fact : Object) : Except Error Handle → SessionRun → Prop
  | refused {error : Error} (refusal : Refusal error) : Inserting before fact (.error error) before
  | inserted {after : SessionRun} (alive : before.session.disposed = false)
      (typed : before.session.catalog.contains fact.typeName = true)
      (sent : Ends (propagate (MatchM.assert · · before.session.memory.nextHandle))
        (before.storing fact) (.ok ()) after) :
      Inserting before fact (.ok before.session.memory.nextHandle) after
  | takenBack {error : Error} {failed last : SessionRun} {taken : Except Error Unit}
      (alive : before.session.disposed = false)
      (typed : before.session.catalog.contains fact.typeName = true)
      (sent : Ends (propagate (MatchM.assert · · before.session.memory.nextHandle))
        (before.storing fact) (.error error) failed)
      (back : Ends (propagate (MatchM.retract · · before.session.memory.nextHandle)) failed taken
        last) :
      Inserting before fact (.error error)
        (last.dropping before.session.memory.nextHandle fact.typeName)

/-- How replacing a fact goes. -/
inductive Updating (before : SessionRun) (handle : Handle) (fact : Object) :
    Except Error Unit → SessionRun → Prop
  | refused {error : Error} (refusal : Refusal error) :
      Updating before handle fact (.error error) before
  | withdrawn {error : Error} {after : SessionRun} (alive : before.session.disposed = false)
      (live : before.session.memory.contains handle = true)
      (typed : before.session.catalog.contains fact.typeName = true)
      (back : Ends (propagate (MatchM.retract · · handle)) before (.error error) after) :
      Updating before handle fact (.error error) after
  | replaced {mid after : SessionRun} {result : Except Error Unit}
      (alive : before.session.disposed = false)
      (live : before.session.memory.contains handle = true)
      (typed : before.session.catalog.contains fact.typeName = true)
      (back : Ends (propagate (MatchM.retract · · handle)) before (.ok ()) mid)
      (sent : Ends (propagate (MatchM.assert · · handle)) (mid.replacing handle fact) result
        after) :
      Updating before handle fact result after

/-- How retracting a fact goes. -/
inductive Retracting (before : SessionRun) (handle : Handle) :
    Except Error Object → SessionRun → Prop
  | refused {error : Error} (refusal : Refusal error) :
      Retracting before handle (.error error) before
  | retracted {fact : Object} {last : SessionRun} {result : Except Error Unit}
      (alive : before.session.disposed = false)
      (live : before.session.memory.fact? handle = some fact)
      (back : Ends (propagate (MatchM.retract · · handle)) before result last) :
      Retracting before handle (result.map fun _ => fact) (last.dropping handle fact.typeName)

/-! ## Primitive steps -/

section Primitives

variable {α β : Type} {result : Except Error α}

@[simp] theorem ends_session_bind {next : Session → SessionM α} :
    Ends (session >>= next) before result after ↔
      Ends (next before.session) before result after :=
  ends_bind_of_total rfl

@[simp] theorem ends_update {change : Session → Session} {result : Except Error Unit} :
    Ends (update change) before result after ↔
      result = .ok () ∧ after = { before with session := change before.session } :=
  ends_modify _

@[simp] theorem ends_update_bind {change : Session → Session} {next : Unit → SessionM α} :
    Ends (update change >>= next) before result after ↔
      Ends (next ()) { before with session := change before.session } result after :=
  ends_modify_bind

@[simp] theorem ends_notify {event : SessionEvent} {result : Except Error Unit} :
    Ends (notify event) before result after ↔
      result = .ok () ∧ after = { before with events := before.events ++ [event] } :=
  ends_modify _

@[simp] theorem ends_notify_bind {event : SessionEvent} {next : Unit → SessionM α} :
    Ends (notify event >>= next) before result after ↔
      Ends (next ()) { before with events := before.events ++ [event] } result after :=
  ends_modify_bind

/-- An operation whose outcome is looked at goes on in every case. -/
theorem ends_outcome_bind {operation : SessionM β} {next : Except Error β → SessionM α} :
    Ends (outcome operation >>= next) before result after ↔
      ∃ inner between, Ends operation before inner between ∧
        Ends (next inner) between result after := by
  rw [ends_bind]
  constructor
  · rintro (⟨inner, between, first, last⟩ | ⟨error, first, -⟩)
    · obtain ⟨_, step, same⟩ := ends_map_run.mp first
      cases same
      exact ⟨inner, between, step, last⟩
    · obtain ⟨_, -, same⟩ := ends_map_run.mp first
      cases same
  · rintro ⟨inner, between, first, last⟩
    exact .inl ⟨inner, between, ends_map_run.mpr ⟨inner, first, rfl⟩, last⟩

end Primitives

/-! ## Following changes -/

/-- Notices go to the events only. -/
structure Silent (before after : SessionRun) : Prop where
  session : after.session = before.session
  failures : after.failures = before.failures

private theorem Silent.refl (run : SessionRun) : Silent run run := ⟨rfl, rfl⟩

private theorem Silent.trans {mid : SessionRun} (first : Silent before mid)
    (second : Silent mid after) :
    Silent before after :=
  ⟨second.session.trans first.session, second.failures.trans first.failures⟩

private theorem ends_notifyOf {rule : RuleId} {event : RuleRef → SessionEvent}
    {result : Except Error Unit} (run : Ends (notifyOf rule event) before result after) :
    result = .ok () ∧ Silent before after := by
  unfold notifyOf at run
  rw [ends_session_bind] at run
  cases found : before.session.network.rule? rule with
  | none =>
      simp only [found] at run
      obtain ⟨rfl, rfl⟩ := (ends_pure _).mp run
      exact ⟨rfl, .refl _⟩
  | some rule =>
      simp only [found] at run
      obtain ⟨rfl, rfl⟩ := ends_notify.mp run
      exact ⟨rfl, rfl, rfl⟩

/-- The agenda follows a change of the complete matches. -/
theorem ends_applyChange {change : MatchChange} {result : Except Error Unit}
    (run : Ends (applyChange change) before result after) :
    result = .ok () ∧
      after.session = { before.session with agenda := before.session.agenda.follow change } ∧
      after.failures = before.failures := by
  cases change with
  | found terminal tuple =>
      unfold applyChange at run
      rw [ends_session_bind] at run
      simp only [ends_update_bind] at run
      cases sequence : (before.session.agenda.activate terminal tuple).1 with
      | none =>
          simp only [sequence] at run
          obtain ⟨rfl, rfl⟩ := (ends_pure _).mp run
          exact ⟨rfl, rfl, rfl⟩
      | some number =>
          simp only [sequence] at run
          obtain ⟨rfl, silent⟩ := ends_notifyOf run
          exact ⟨rfl, silent.session, silent.failures⟩
  | lost rule stem =>
      unfold applyChange at run
      rw [ends_session_bind] at run
      simp only [ends_update_bind] at run
      set told : SessionRun := { before with
        session := { before.session with
          agenda := (before.session.agenda.deactivate rule stem).2 } } with isTold
      have outcome := run.forM (fun _ between => Silent told between) (fun _ _ => False)
        (.refl told) fun activation rest mid result' last _ silent step => by
          obtain ⟨rfl, more⟩ := ends_notifyOf step
          exact silent.trans more
      cases result with
      | error error => exact outcome.elim
      | ok => exact ⟨rfl, outcome.session, outcome.failures⟩

/-- The agenda follows one change after the other. -/
theorem ends_forM_applyChange {changes : List MatchChange} {result : Except Error Unit}
    (run : Ends (changes.forM applyChange) before result after) :
    result = .ok () ∧
      after.session = { before.session with agenda := before.session.agenda.followAll changes } ∧
      after.failures = before.failures := by
  induction changes generalizing before with
  | nil =>
      obtain ⟨rfl, rfl⟩ := (ends_pure _).mp run
      exact ⟨rfl, rfl, rfl⟩
  | cons change rest ih =>
      rw [List.forM_eq_forM, List.forM_cons] at run
      rcases ends_bind.mp run with ⟨_, mid, first, others⟩ | ⟨error, first, -⟩
      · obtain ⟨-, session, failures⟩ := ends_applyChange first
        obtain ⟨done, last, more⟩ := ih others
        refine ⟨done, ?_, more.trans failures⟩
        rw [last, session]
        rfl
      · cases (ends_applyChange first).1

/-- A propagation hands on what the network has noted, which does not fail, and ends like the walk
through the network. -/
theorem propagating_of_ends {step : Network → FactView → MatchM Unit} {result : Except Error Unit}
    (run : Ends (propagate step) before result after) :
    ∃ matching between, Ends (step before.session.network before.session.view)
        { memory := before.session.matched } result matching ∧
      Ends (matching.changes.forM applyChange)
        { before with session := { before.session with matched := matching.memory } } (.ok ())
        between ∧
      after = { between with failures := between.failures ++ failuresOf result } := by
  unfold propagate failure at run
  rw [ends_session_bind] at run
  rcases walked : (step before.session.network before.session.view).run.run
    { memory := before.session.matched } with ⟨inner, matching⟩
  simp only [walked, ends_update_bind] at run
  rcases ends_bind.mp run with ⟨_, between, walk, last⟩ | ⟨error, walk, -⟩
  · cases inner with
    | ok =>
        obtain ⟨rfl, rfl⟩ := (ends_pure _).mp last
        exact ⟨matching, _, walked, walk, congrArg (SessionRun.mk _ _) (List.append_nil _).symm⟩
    | error error =>
        rw [ends_modify_bind] at last
        obtain ⟨rfl, rfl⟩ := (ends_throw _).mp last
        exact ⟨matching, _, walked, walk, rfl⟩
  · cases (ends_forM_applyChange walk).1

/-- The agenda follows what has happened to the complete matches, up to an error as well. -/
theorem ends_propagate {step : Network → FactView → MatchM Unit} {result : Except Error Unit}
    (run : Ends (propagate step) before result after) :
    before.session.Follows step result after.session ∧
      after.failures = before.failures ++ failuresOf result := by
  obtain ⟨matching, between, walked, handedOn, rfl⟩ := propagating_of_ends run
  obtain ⟨-, now, failures⟩ := ends_forM_applyChange handedOn
  exact ⟨⟨matching, walked, now⟩, congrArg (· ++ failuresOf result) failures⟩

/-- What the network follows leaves the facts alone. -/
theorem memory_propagate {step : Network → FactView → MatchM Unit} {result : Except Error Unit}
    (run : Ends (propagate step) before result after) :
    after.session.memory = before.session.memory := by
  obtain ⟨matching, -, same⟩ := (ends_propagate run).1
  rw [same]
  rfl

/-! ## Operations on facts -/

/-- Nothing follows in a session that is disposed. -/
theorem ends_ensureLive_bind {α : Type} {next : Unit → SessionM α} {result : Except Error α} :
    Ends (ensureLive >>= next) before result after ↔
      if before.session.disposed then
        result = .error (Error.of .sessionDisposed) ∧ after = before
      else Ends (next ()) before result after := by
  unfold ensureLive
  rw [bind_assoc, ends_session_bind]
  cases before.session.disposed with
  | true => exact ends_throw_bind
  | false => exact ends_pure_bind

private theorem ends_checkType_bind {α : Type} {fact : Object} {next : Unit → SessionM α}
    {result : Except Error α} :
    Ends (checkType fact >>= next) before result after ↔
      if before.session.catalog.contains fact.typeName then Ends (next ()) before result after
      else result = .error (Error.of (.unknownType fact.typeName)) ∧ after = before := by
  unfold checkType
  rw [bind_assoc, ends_session_bind]
  cases before.session.catalog.contains fact.typeName with
  | true => exact ends_pure_bind
  | false => exact ends_throw_bind

private theorem ends_expectFact_bind {α : Type} {handle : Handle} {next : Unit → SessionM α}
    {result : Except Error α} :
    Ends (expectFact handle >>= next) before result after ↔
      if before.session.memory.contains handle then Ends (next ()) before result after
      else result = .error (Error.of (.unknownFact handle)) ∧ after = before := by
  unfold expectFact
  rw [bind_assoc, ends_session_bind]
  cases before.session.memory.contains handle with
  | true => exact ends_pure_bind
  | false => exact ends_throw_bind

/-- However inserting a fact ends, it is one of the ways of `Inserting` -/
theorem inserting_of_ends {fact : Object} {result : Except Error Handle}
    (run : Ends (insert fact) before result after) : Inserting before fact result after := by
  unfold insert at run
  rw [ends_ensureLive_bind] at run
  cases alive : before.session.disposed with
  | true =>
      rw [alive, if_pos rfl] at run
      obtain ⟨rfl, rfl⟩ := run
      exact .refused .disposed
  | false =>
      rw [alive, if_neg Bool.false_ne_true, ends_checkType_bind] at run
      cases typed : before.session.catalog.contains fact.typeName with
      | false =>
          rw [typed, if_neg Bool.false_ne_true] at run
          obtain ⟨rfl, rfl⟩ := run
          exact .refused (.unknownType _)
      | true =>
          rw [typed, if_pos rfl, ends_session_bind] at run
          simp only [ends_update_bind, ends_notify_bind] at run
          obtain ⟨inner, mid, sent, run⟩ := ends_outcome_bind.mp run
          cases inner with
          | ok =>
              obtain ⟨rfl, rfl⟩ := (ends_pure _).mp run
              exact .inserted alive typed sent
          | error error =>
              obtain ⟨taken, last, back, run⟩ := ends_outcome_bind.mp run
              simp only [ends_update_bind, ends_notify_bind] at run
              obtain ⟨rfl, rfl⟩ := (ends_throw _).mp run
              exact .takenBack alive typed sent back

/-- However replacing a fact ends, it is one of the ways of `Updating` -/
theorem updating_of_ends {handle : Handle} {fact : Object} {result : Except Error Unit}
    (run : Ends (updateFact handle fact) before result after) :
    Updating before handle fact result after := by
  unfold updateFact at run
  rw [ends_ensureLive_bind] at run
  cases alive : before.session.disposed with
  | true =>
      rw [alive, if_pos rfl] at run
      obtain ⟨rfl, rfl⟩ := run
      exact .refused .disposed
  | false =>
      rw [alive, if_neg Bool.false_ne_true, ends_expectFact_bind] at run
      cases live : before.session.memory.contains handle with
      | false =>
          rw [live, if_neg Bool.false_ne_true] at run
          obtain ⟨rfl, rfl⟩ := run
          exact .refused (.unknownFact _)
      | true =>
          rw [live, if_pos rfl, ends_checkType_bind] at run
          cases typed : before.session.catalog.contains fact.typeName with
          | false =>
              rw [typed, if_neg Bool.false_ne_true] at run
              obtain ⟨rfl, rfl⟩ := run
              exact .refused (.unknownType _)
          | true =>
              rw [typed, if_pos rfl] at run
              rcases ends_bind.mp run with ⟨_, mid, back, run⟩ | ⟨error, back, rfl⟩
              · simp only [ends_update_bind, ends_notify_bind] at run
                exact .replaced alive live typed back run
              · exact .withdrawn alive live typed back

/-- However retracting a fact ends, it is one of the ways of `Retracting` -/
theorem retracting_of_ends {handle : Handle} {result : Except Error Object}
    (run : Ends (retract handle) before result after) : Retracting before handle result after := by
  unfold retract at run
  rw [ends_ensureLive_bind] at run
  cases alive : before.session.disposed with
  | true =>
      rw [alive, if_pos rfl] at run
      obtain ⟨rfl, rfl⟩ := run
      exact .refused .disposed
  | false =>
      rw [alive, if_neg Bool.false_ne_true, ends_session_bind] at run
      cases live : before.session.memory.fact? handle with
      | none =>
          simp only [live] at run
          obtain ⟨rfl, rfl⟩ := (ends_throw _).mp run
          exact .refused (.unknownFact _)
      | some fact =>
          simp only [live] at run
          obtain ⟨inner, mid, back, run⟩ := ends_outcome_bind.mp run
          simp only [ends_update_bind, ends_notify_bind] at run
          have taken := Retracting.retracted alive live back
          rcases ends_lift_bind.mp run with ⟨_, rfl, run⟩ | ⟨error, rfl, rfl, rfl⟩
          · obtain ⟨rfl, rfl⟩ := (ends_pure _).mp run
            exact taken
          · exact taken

/-- Everything that inserting a fact can do. -/
theorem ends_insert {fact : Object} {result : Except Error Handle}
    (run : Ends (insert fact) before result after) :
    ∃ failures, before.session.Inserts fact result after.session failures ∧
      after.failures = before.failures ++ failures ∧ FailsBy result failures := by
  cases inserting_of_ends run with
  | refused refusal => exact ⟨[], .refused, (List.append_nil _).symm, .inl refusal⟩
  | inserted alive typed sent =>
      obtain ⟨follows, failures⟩ := ends_propagate sent
      exact ⟨[], .inserted alive typed follows, failures, trivial⟩
  | takenBack alive typed sent back =>
      obtain ⟨follows, failures⟩ := ends_propagate sent
      obtain ⟨back, moreFailures⟩ := ends_propagate back
      refine ⟨_, .takenBack alive typed follows back, ?_, .inr List.mem_cons_self⟩
      exact moreFailures.trans (failures ▸ List.append_assoc ..)

/-- Everything that replacing a fact can do. -/
theorem ends_updateFact {handle : Handle} {fact : Object} {result : Except Error Unit}
    (run : Ends (updateFact handle fact) before result after) :
    ∃ failures, before.session.Updates handle fact result after.session failures ∧
      after.failures = before.failures ++ failures ∧ FailsBy result failures := by
  cases updating_of_ends run with
  | refused refusal => exact ⟨[], .refused, (List.append_nil _).symm, .inl refusal⟩
  | withdrawn alive live typed back =>
      obtain ⟨withdrawn, failures⟩ := ends_propagate back
      exact ⟨_, .withdrawn alive live typed withdrawn, failures, .inr List.mem_cons_self⟩
  | replaced alive live typed back sent =>
      obtain ⟨withdrawn, failures⟩ := ends_propagate back
      obtain ⟨follows, moreFailures⟩ := ends_propagate sent
      refine ⟨_, .replaced alive live typed withdrawn follows, ?_, failsBy_failuresOf result⟩
      exact moreFailures.trans
        (congrArg (· ++ failuresOf result) (failures.trans (List.append_nil _)))

/-- Everything that retracting a fact can do. -/
theorem ends_retract {handle : Handle} {result : Except Error Object}
    (run : Ends (retract handle) before result after) :
    ∃ failures, before.session.Retracts handle result after.session failures ∧
      after.failures = before.failures ++ failures ∧ FailsBy result failures := by
  cases retracting_of_ends run with
  | refused refusal => exact ⟨[], .refused, (List.append_nil _).symm, .inl refusal⟩
  | @retracted fact last result alive live back =>
      obtain ⟨follows, failures⟩ := ends_propagate back
      refine ⟨_, .retracted alive live follows, failures, ?_⟩
      cases result with
      | ok => exact trivial
      | error error => exact .inr List.mem_cons_self

end SessionM

end Rete
