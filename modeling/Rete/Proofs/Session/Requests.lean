import Rete.Knowledge
import Rete.Proofs.Session.Consequences

/-!
# Requests to a session

What a host can ask of a session (`Request`). The firing loop is made of operations on facts, of
changes of the globals and of steps of the agenda (`Session.Step`), so whatever all of them keep
(`Session.Kept`) every request keeps (`Kept.perform`), also one that fails; and every request goes
along the relations of runs that all of them go along (`Served.perform`).
-/

namespace Rete

/-- What a host asks of a session. -/
inductive Request where
  | insert (fact : Object)
  | update (handle : Handle) (fact : Object)
  | retract (handle : Handle)
  | setGlobal (name : String) (value : Value)
  /-- Fires at most a given number of rules, or as many as there are to fire. -/
  | fire (budget : Option Nat)
  | dispose
  deriving DecidableEq, Inhabited

/-- What a request yields. -/
inductive Answer where
  | inserted (handle : Handle)
  | retracted (fact : Object)
  | fired (count : Nat)
  | done
  deriving DecidableEq, Inhabited

namespace SessionM

/-- Carries out a request. -/
def perform : Request → SessionM Answer
  | .insert fact => return .inserted (← insert fact)
  | .update handle fact => do
    updateFact handle fact
    return .done
  | .retract handle => return .retracted (← retract handle)
  | .setGlobal name value => do
    setGlobal name value
    return .done
  | .fire budget => return .fired (← fireRules budget)
  | .dispose => do
    dispose
    return .done

end SessionM

namespace Session

/-- What is left of a session that was given up. -/
def givenUp (session : Session) : Session :=
  { session with memory := {}, matched := {}, agenda := session.agenda.clear, disposed := true }

/-- A step of a request, with the errors that ended a propagation in it. -/
inductive Step (session : Session) : List Error → Session → Prop
  | inserts {fact : Object} {result : Except Error Handle} {after : Session}
      {failures : List Error} (inserts : session.Inserts fact result after failures) :
      Step session failures after
  | updates {handle : Handle} {fact : Object} {result : Except Error Unit} {after : Session}
      {failures : List Error} (updates : session.Updates handle fact result after failures) :
      Step session failures after
  | retracts {handle : Handle} {result : Except Error Object} {after : Session}
      {failures : List Error} (retracts : session.Retracts handle result after failures) :
      Step session failures after
  | globals {globals : Globals}
      (admits : session.globalTypes.Admit session.memory.globals →
        session.globalTypes.Admit globals) :
      Step session [] (session.withMemory { session.memory with globals })
  | halted (halted : Bool) : Step session [] { session with halted }
  | pops {next : Activation} {agenda : Agenda}
      (popped : session.agenda.pop? = some (next, agenda)) : Step session [] { session with agenda }
  | finishes : Step session [] { session with agenda := session.agenda.finishFiring }
  | givesUp : Step session [] session.givenUp

end Session

namespace SessionM

variable {α β : Type}

/-! ## Relations that requests go along -/

/-- A relation that can be composed, and that all parts of requests go along: those of consequences,
and the steps of the firing loop. -/
structure Served (related : SessionRun → SessionRun → Prop) : Prop extends Composed related where
  updateFact : ∀ handle fact, Goes related (updateFact handle fact)
  revises _ _ run := (updateFact _ _).goes run
  /-- What is told of matches and firings. -/
  tells : ∀ {run : SessionRun} {event : SessionEvent}, event.isFactEvent = false →
    related run { run with events := run.events ++ [event] }
  resumes : ∀ run : SessionRun,
    related run { run with session := { run.session with halted := false } }
  pops : ∀ {run : SessionRun} {next : Activation} {agenda : Agenda},
    run.session.agenda.pop? = some (next, agenda) →
      related run { run with session := { run.session with agenda } }
  finishes : ∀ run : SessionRun, related run
    { run with session := { run.session with agenda := run.session.agenda.finishFiring } }
  givesUp : ∀ run : SessionRun, related run
    { run with session := run.session.givenUp, events := run.events ++ [.disposed] }

private theorem Goes.outcome {related : SessionRun → SessionRun → Prop} {operation : SessionM α}
    (goes : Goes related operation) : Goes related (outcome operation) where
  goes run := by
    obtain ⟨_, step, -⟩ := ends_map_run.mp run
    exact goes.goes step

private theorem ends_checkLimit {fired : Nat} {before after : SessionRun}
    {result : Except Error Unit}
    (run : Ends (checkLimit fired) before result after) : after = before := by
  unfold checkLimit at run
  rw [ends_session_bind] at run
  cases limited : before.session.config.maxActivations with
  | none =>
      simp only [limited] at run
      exact ((ends_pure _).mp run).2
  | some limit =>
      by_cases reached : limit ≤ fired
      · simp only [limited, reached, ↓reduceIte] at run
        exact ((ends_throw _).mp run).2
      · simp only [limited, reached, ↓reduceIte] at run
        exact ((ends_pure _).mp run).2

namespace Served

variable {related : SessionRun → SessionRun → Prop} (served : Served related)

include served

private theorem notify {event : SessionEvent} (other : event.isFactEvent = false) :
    Goes related (notify event) where
  goes run := by
    obtain ⟨-, rfl⟩ := ends_notify.mp run
    exact served.tells other

/-- The end of a firing goes along a relation that allows for it. -/
theorem finishFiring : Goes related finishFiring where
  goes run := by
    obtain ⟨-, rfl⟩ := ends_update.mp run
    exact served.finishes _

private theorem checkLimit (fired : Nat) : Goes related (checkLimit fired) where
  goes run := ends_checkLimit run ▸ served.refl _

private theorem takeNext (waiting : Nat) : Goes related (takeNext waiting) := by
  induction waiting with
  | zero => exact served.pure _
  | succ waiting ih =>
      refine ⟨fun {before result after} run => ?_⟩
      unfold SessionM.takeNext at run
      rw [ends_session_bind] at run
      cases popped : before.session.agenda.pop? with
      | none =>
          simp only [popped] at run
          exact (served.pure _).goes run
      | some step =>
          obtain ⟨next, agenda⟩ := step
          simp only [popped, ends_update_bind] at run
          refine served.trans (served.pops popped) ?_
          rw [ends_session_bind] at run
          cases found : before.session.network.rule? next.rule with
          | none =>
              simp only [found] at run
              exact (served.bind served.finishFiring fun _ => served.throw _).goes run
          | some rule =>
              simp only [found] at run
              rw [ends_session_bind] at run
              cases all : next.tuple.all before.session.memory.contains with
              | true =>
                  simp only [all, ↓reduceIte] at run
                  exact (served.pure _).goes run
              | false =>
                  simp only [all, Bool.false_eq_true, ↓reduceIte] at run
                  exact (served.bind served.finishFiring fun _ => ih).goes run

private theorem fire (next : Activation) (rule : Rule) : Goes related (fire next rule) := by
  refine served.bind (served.notify rfl) fun _ => ?_
  refine served.bind (served.execute rule next.tuple).outcome fun result => ?_
  refine served.bind served.finishFiring fun _ => ?_
  cases result with
  | error source => exact served.throw _
  | ok =>
      refine served.bind (served.notify rfl) fun _ => served.bind served.session fun session => ?_
      cases session.halted with
      | true => exact served.notify rfl
      | false => exact served.pure _

private theorem fireLoop (budget fired : Nat) : Goes related (fireLoop budget fired) := by
  induction budget generalizing fired with
  | zero => exact served.pure _
  | succ budget ih =>
      refine served.bind served.session fun before => ?_
      cases idle : before.halted || before.agenda.isEmpty with
      | true =>
          simp only [↓reduceIte]
          exact served.pure _
      | false =>
          simp only [Bool.false_eq_true, ↓reduceIte]
          refine served.bind (served.checkLimit fired) fun _ =>
            served.bind (served.takeNext _) fun taken => ?_
          cases taken with
          | none => exact served.pure _
          | some step => exact served.bind (served.fire step.1 step.2) fun _ => ih (fired + 1)

private theorem fireRules (budget : Option Nat) : Goes related (fireRules budget) := by
  refine ⟨fun {before result after} run => ?_⟩
  unfold SessionM.fireRules at run
  rw [ends_ensureLive_bind] at run
  split at run
  · exact run.2 ▸ served.refl _
  · simp only [ends_update_bind] at run
    exact served.trans (served.resumes before) ((served.fireLoop _ 0).goes run)

private theorem dispose : Goes related dispose := by
  refine served.bind served.session fun session => ?_
  cases session.disposed with
  | true => exact served.pure _
  | false =>
      refine ⟨fun {before result after} run => ?_⟩
      simp only [Bool.not_false, ↓reduceIte, ends_update_bind] at run
      obtain ⟨-, rfl⟩ := ends_notify.mp run
      exact served.givesUp before

/-- Every request goes along what its parts go along. -/
theorem perform (request : Request) : Goes related (perform request) := by
  cases request with
  | insert fact => exact served.bind (served.insert fact) fun _ => served.pure _
  | update handle fact => exact served.bind (served.updateFact handle fact) fun _ => served.pure _
  | retract handle => exact served.bind (served.retract handle) fun _ => served.pure _
  | setGlobal name value => exact served.bind (served.setGlobal name value) fun _ => served.pure _
  | fire budget => exact served.bind (served.fireRules budget) fun _ => served.pure _
  | dispose => exact served.bind served.dispose fun _ => served.pure _

end Served

end SessionM

namespace Session

/-! ## Invariants that requests keep -/

/-- What all steps of requests keep of a session and of the errors that ended a propagation. -/
structure Kept (invariant : Session → List Error → Prop) : Prop where
  step : ∀ {session errors failures after}, invariant session errors →
    session.Step failures after → invariant after (errors ++ failures)

/-- A step in which no propagation failed. -/
theorem Kept.quiet {invariant : Session → List Error → Prop} (kept : Kept invariant)
    {session after : Session} {errors : List Error} (holds : invariant session errors)
    (step : session.Step [] after) : invariant after errors :=
  List.append_nil errors ▸ kept.step holds step

end Session

namespace SessionM

variable {α β : Type} {invariant : Session → List Error → Prop}

/-- An operation keeps an invariant, whether or not it fails. -/
structure Keeping (invariant : Session → List Error → Prop) (operation : SessionM α) : Prop where
  keeps : ∀ {before result after}, Ends operation before result after →
    invariant before.session before.failures → invariant after.session after.failures

namespace Keeping

/-- Yielding a value keeps every invariant. -/
theorem pure (a : α) : Keeping invariant (Pure.pure a : SessionM α) where
  keeps run holds := by
    obtain ⟨-, rfl⟩ := (ends_pure _).mp run
    exact holds

/-- Failing keeps every invariant. -/
theorem throw (error : Error) : Keeping invariant (throw error : SessionM α) where
  keeps run holds := by
    obtain ⟨-, rfl⟩ := (ends_throw _).mp run
    exact holds

/-- Reading the session keeps every invariant. -/
theorem session : Keeping invariant session where
  keeps run holds := by
    have same : _ = (_, _) := run
    cases same
    exact holds

/-- Operations that keep an invariant do so one after the other. -/
theorem bind {first : SessionM β} {next : β → SessionM α} (one : Keeping invariant first)
    (two : ∀ value, Keeping invariant (next value)) : Keeping invariant (first >>= next) where
  keeps run holds := by
    rcases ends_bind.mp run with ⟨value, between, start, rest⟩ | ⟨error, start, -⟩
    · exact (two value).keeps rest (one.keeps start holds)
    · exact one.keeps start holds

end Keeping

namespace Kept

variable (kept : Session.Kept invariant)

include kept

/-- Inserting keeps what all steps keep. -/
theorem insert (fact : Object) : Keeping invariant (insert fact) where
  keeps run holds := by
    obtain ⟨failures, inserts, same, -⟩ := ends_insert run
    exact same ▸ kept.step holds (.inserts inserts)

/-- Replacing a fact keeps what all steps keep. -/
theorem updateFact (handle : Handle) (fact : Object) :
    Keeping invariant (updateFact handle fact) where
  keeps run holds := by
    obtain ⟨failures, updates, same, -⟩ := ends_updateFact run
    exact same ▸ kept.step holds (.updates updates)

/-- Retracting keeps what all steps keep. -/
theorem retract (handle : Handle) : Keeping invariant (retract handle) where
  keeps run holds := by
    obtain ⟨failures, retracts, same, -⟩ := ends_retract run
    exact same ▸ kept.step holds (.retracts retracts)

/-- Requests go along with what is kept. -/
theorem served : Served fun before after =>
    invariant before.session before.failures → invariant after.session after.failures where
  refl _ holds := holds
  trans first second holds := second (first holds)
  insert fact := ⟨(insert kept fact).keeps⟩
  updateFact handle fact := ⟨(updateFact kept handle fact).keeps⟩
  retract handle := ⟨(retract kept handle).keeps⟩
  globals admits holds := kept.quiet holds (.globals admits)
  halted _ holds := kept.quiet holds (.halted true)
  tells _ holds := holds
  resumes _ holds := kept.quiet holds (.halted false)
  pops popped holds := kept.quiet holds (.pops popped)
  finishes _ holds := kept.quiet holds .finishes
  givesUp _ holds := kept.quiet holds .givesUp

/-- Setting a global in a consequence keeps what all steps keep. -/
theorem assignGlobal (name : String) (value : Value) :
    Keeping invariant (assignGlobal name value) :=
  ⟨((served kept).assignGlobal name value).goes⟩

/-- Evaluating keeps what all steps keep. -/
theorem evaluate (functions : FunctionTable) (tuple : Tuple) (frame : List Value) (e : Expr) :
    Keeping invariant (evaluate functions tuple frame e) :=
  ⟨((served kept).evaluate functions tuple frame e).goes⟩

/-- Every action keeps what all steps keep. -/
theorem runAction (functions : FunctionTable) (tuple : Tuple) (frame : List Value)
    (action : Action) : Keeping invariant (runAction functions tuple frame action) :=
  ⟨((served kept).runAction functions tuple frame action).goes⟩

/-- Every consequence keeps what all steps keep. -/
theorem execute (rule : Rule) (tuple : Tuple) : Keeping invariant (execute rule tuple) :=
  ⟨((served kept).execute rule tuple).goes⟩

/-- The end of a firing keeps what all steps keep. -/
theorem finishFiring : Keeping invariant finishFiring :=
  ⟨(served kept).finishFiring.goes⟩

/-- Taking a match off the agenda keeps what all steps keep. -/
theorem takeNext (waiting : Nat) : Keeping invariant (takeNext waiting) :=
  ⟨((served kept).takeNext waiting).goes⟩

omit kept in
/-- Checking the limit changes nothing. -/
theorem checkLimit (fired : Nat) : Keeping invariant (checkLimit fired) where
  keeps run holds := ends_checkLimit run ▸ holds

/-- Rules that fire keep what all steps keep. -/
theorem fireRules (budget : Option Nat) : Keeping invariant (fireRules budget) :=
  ⟨((served kept).fireRules budget).goes⟩

/-- Disposing of the session keeps what all steps keep. -/
theorem dispose : Keeping invariant dispose :=
  ⟨(served kept).dispose.goes⟩

/-- Every request keeps what all its steps keep. -/
theorem perform (request : Request) : Keeping invariant (perform request) :=
  ⟨((served kept).perform request).goes⟩

end Kept

/-- A request in which no condition fails keeps what all steps without failures keep. -/
theorem perform_clean {holds : Session → Prop}
    (each : ∀ {session after}, holds session → session.Step [] after → holds after)
    {before after : SessionRun} {request : Request} {result : Except Error Answer}
    (run : Ends (perform request) before result after) (clean : after.failures = before.failures)
    (start : holds before.session) : holds after.session := by
  -- Failures are only added, so there are none on the way.
  have kept : Session.Kept fun session errors => before.failures <+: errors ∧
      (errors = before.failures → holds session) := by
    refine ⟨fun {session errors failures after} both step => ?_⟩
    obtain ⟨starts, onward⟩ := both
    refine ⟨starts.trans (List.prefix_append ..), fun same => ?_⟩
    obtain ⟨more, rfl⟩ := starts
    rw [List.append_assoc, List.append_right_eq_self, List.append_eq_nil_iff] at same
    obtain ⟨rfl, rfl⟩ := same
    exact each (onward (List.append_nil _)) step
  exact ((Kept.perform kept request).keeps run ⟨List.prefix_refl _, fun _ => start⟩).2 clean

end SessionM

end Rete
