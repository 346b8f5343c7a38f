import Rete.Proofs.Matching.Likeness
import Rete.Proofs.Session.Requests
import Rete.Snapshot.Basic

/-!
# Sessions that do the same

Sessions are alike if they only differ in stores that are empty in one and missing in the other, and
in whether their last firing loop was halted (`Session.Alike`). They answer every request in the
same way and stay alike (`Steady.perform`), and they have one snapshot (`Session.Alike.snapshot`).
-/

namespace Rete

/-- Two sessions only differ in stores that hold nothing and, unless rules fire, in whether they
are halted. -/
structure Session.Alike (firing : Bool) (one other : Session) : Prop where
  catalog : one.catalog = other.catalog
  network : one.network = other.network
  globalTypes : one.globalTypes = other.globalTypes
  config : one.config = other.config
  memory : one.memory = other.memory
  matched : one.matched.Alike other.matched
  agenda : one.agenda = other.agenda
  disposed : one.disposed = other.disposed
  halted : firing = true → one.halted = other.halted

namespace Session.Alike

variable {firing : Bool} {one other last : Session}

/-- A session is like itself. -/
theorem refl (session : Session) : session.Alike firing session :=
  ⟨rfl, rfl, rfl, rfl, rfl, .refl _, rfl, rfl, fun _ => rfl⟩

/-- Likeness does not depend on the side. -/
theorem symm (alike : one.Alike firing other) : other.Alike firing one :=
  ⟨alike.catalog.symm, alike.network.symm, alike.globalTypes.symm, alike.config.symm,
    alike.memory.symm, alike.matched.symm, alike.agenda.symm, alike.disposed.symm,
    fun fires => (alike.halted fires).symm⟩

/-- Likeness passes on. -/
theorem trans (alike : one.Alike firing other) (next : other.Alike firing last) :
    one.Alike firing last :=
  ⟨alike.catalog.trans next.catalog, alike.network.trans next.network,
    alike.globalTypes.trans next.globalTypes, alike.config.trans next.config,
    alike.memory.trans next.memory, alike.matched.trans next.matched,
    alike.agenda.trans next.agenda, alike.disposed.trans next.disposed,
    fun fires => (alike.halted fires).trans (next.halted fires)⟩

variable (alike : one.Alike firing other)

include alike

private theorem view : one.view = other.view := by
  simp only [Session.view, alike.catalog, alike.memory, alike.config]

/-- Alike sessions stay so with the same working memory. -/
theorem withMemory {memory memory' : WorkingMemory} (same : memory = memory') :
    Session.Alike firing { one with memory } { other with memory := memory' } :=
  { alike with memory := same }

private theorem withMatched {matched matched' : NetworkMemory} (same : matched.Alike matched') :
    Session.Alike firing { one with matched } { other with matched := matched' } :=
  { alike with matched := same }

/-- Alike sessions stay so with the same agenda. -/
theorem withAgenda {agenda agenda' : Agenda} (same : agenda = agenda') :
    Session.Alike firing { one with agenda } { other with agenda := agenda' } :=
  { alike with agenda := same }

/-- Sessions that are alike have one snapshot. -/
theorem snapshot : one.snapshot = other.snapshot := by
  have names : one.ruleName = other.ruleName := by
    funext id
    simp only [Session.ruleName, alike.network]
  have activations : one.recordActivation = other.recordActivation := by
    funext activation
    simp only [Session.recordActivation, names]
  have settled : one.recordSettled = other.recordSettled := by
    funext settled
    simp only [Session.recordSettled, names]
  unfold Session.snapshot
  rw [alike.disposed, alike.agenda, alike.network, alike.memory, alike.matched.toRecord,
    activations, settled]

end Session.Alike

/-- The sessions are alike, and so far the same has happened in both. -/
structure SessionRun.Alike (firing : Bool) (one other : SessionRun) : Prop where
  session : one.session.Alike firing other.session
  events : one.events = other.events
  failures : one.failures = other.failures

namespace SessionM

variable {α : Type} {firing : Bool}

/-- An operation that does the same on sessions that are alike. -/
abbrev Steady (firing : Bool) (operation : SessionM α) : Prop :=
  Lockstep (SessionRun.Alike firing) operation operation

/-! ## Parts of operations -/

namespace Steady

/-- What comes after a look at the session may depend on what is the same. -/
theorem session_bind {next : Session → SessionM α}
    (each : ∀ {one other : Session}, one.Alike firing other →
      Lockstep (SessionRun.Alike firing) (next one) (next other)) :
    Steady firing (session >>= next) := by
  intro before before' alike
  obtain ⟨result, after, after', ends, ends', last⟩ := each alike.session alike
  exact ⟨result, after, after', ends_session_bind.mpr ends, ends_session_bind.mpr ends', last⟩

/-- A change that keeps sessions alike is made in step. -/
theorem update {change : Session → Session}
    (each : ∀ {one other : Session}, one.Alike firing other →
      (change one).Alike firing (change other)) : Steady firing (update change) :=
  Lockstep.modify fun alike => ⟨each alike.session, alike.events, alike.failures⟩

/-- A change that keeps sessions alike is made in step, and so is what follows. -/
theorem update_bind {change : Session → Session} {next : Unit → SessionM α}
    (each : ∀ {one other : Session}, one.Alike firing other →
      (change one).Alike firing (change other))
    (onward : Steady firing (next ())) : Steady firing (SessionM.update change >>= next) :=
  Lockstep.bind (update each) fun _ => onward

/-- An event is told in step. -/
theorem notify (event : SessionEvent) : Steady firing (notify event) :=
  Lockstep.modify fun alike =>
    ⟨alike.session, congrArg (· ++ [event]) alike.events, alike.failures⟩

private theorem failure (error : Error) : Steady firing (failure error : SessionM α) := by
  apply Lockstep.bind
  · exact Lockstep.modify fun alike =>
      ⟨alike.session, alike.events, congrArg (· ++ [error]) alike.failures⟩
  · exact fun _ => .throw error

/-- Whether the session is disposed is checked in step. -/
theorem ensureLive : Steady firing ensureLive := by
  refine session_bind fun {one other} alike => ?_
  rw [alike.disposed]
  cases other.disposed with
  | true => exact .throw _
  | false => exact .pure _

private theorem checkType (fact : Object) : Steady firing (checkType fact) := by
  refine session_bind fun {one other} alike => ?_
  rw [alike.catalog]
  cases other.catalog.contains fact.typeName with
  | true => exact .pure _
  | false => exact .throw _

private theorem expectFact (handle : Handle) : Steady firing (expectFact handle) := by
  refine session_bind fun {one other} alike => ?_
  rw [alike.memory]
  cases other.memory.contains handle with
  | true => exact .pure _
  | false => exact .throw _

private theorem notifyOf (rule : RuleId) (event : RuleRef → SessionEvent) :
    Steady firing (notifyOf rule event) := by
  refine session_bind fun {one other} alike => ?_
  rw [alike.network]
  cases other.network.rule? rule with
  | none => exact .pure _
  | some found => exact notify _

private theorem applyChange (change : MatchChange) : Steady firing (applyChange change) := by
  cases change with
  | found terminal tuple =>
      refine session_bind fun {one other} alike => ?_
      rw [alike.agenda]
      rcases other.agenda.activate terminal tuple with ⟨sequence?, agenda⟩
      refine update_bind (fun alike => alike.withAgenda rfl) ?_
      cases sequence? with
      | none => exact .pure _
      | some sequence => exact notifyOf _ _
  | lost rule stem =>
      refine session_bind fun {one other} alike => ?_
      rw [alike.agenda]
      rcases other.agenda.deactivate rule stem with ⟨cancelled, agenda⟩
      refine update_bind (fun alike => alike.withAgenda rfl) ?_
      exact .forM (fun activation => notifyOf rule _) cancelled

/-- A change that the network follows in the same way. -/
theorem propagate {step : Network → FactView → MatchM Unit}
    (each : ∀ network view, MatchM.Steady (step network view)) :
    Steady firing (propagate step) := by
  refine session_bind fun {one other} alike => ?_
  rw [alike.network, alike.view]
  have start : Matching.Alike { memory := one.matched } { memory := other.matched } :=
    ⟨alike.matched, rfl⟩
  obtain ⟨result, matching, matching', ends, ends', last⟩ := each other.network other.view start
  unfold Ends at ends ends'
  simp only [ends, ends']
  apply Lockstep.bind
  · exact Lockstep.modify fun alike =>
      ⟨alike.session.withMatched last.memory, alike.events, alike.failures⟩
  · intro _
    rw [last.changes]
    refine Lockstep.bind (.forM applyChange matching'.changes) fun _ => ?_
    cases result with
    | ok => exact .pure _
    | error error => exact failure error

/-! ## Facts and globals -/

/-- Inserting goes in step on alike sessions. -/
theorem insert (fact : Object) : Steady firing (insert fact) := by
  refine Lockstep.bind ensureLive fun _ => Lockstep.bind (checkType fact) fun _ => ?_
  refine session_bind fun {one other} alike => ?_
  rw [alike.memory]
  refine update_bind (fun alike => alike.withMemory rfl) ?_
  refine Lockstep.bind (notify _) fun _ => ?_
  refine (propagate fun _ _ => MatchM.assert_lockstep _).outcome.bind fun result => ?_
  cases result with
  | ok => exact .pure _
  | error error =>
      refine (propagate fun _ _ => MatchM.retract_lockstep _).outcome.bind fun _ => ?_
      refine update_bind (fun alike => alike.withMemory ?_) ?_
      · rw [alike.memory]
      · exact (notify _).bind fun _ => .throw error

private theorem updateFact (handle : Handle) (fact : Object) : Steady firing
    (updateFact handle fact) := by
  refine Lockstep.bind ensureLive fun _ => Lockstep.bind (expectFact handle) fun _ => ?_
  refine Lockstep.bind (checkType fact) fun _ => ?_
  refine (propagate fun _ _ => MatchM.retract_lockstep handle).bind fun _ => ?_
  refine update_bind (fun alike => alike.withMemory ?_) ?_
  · rw [alike.memory]
  · exact (notify _).bind fun _ => propagate fun _ _ => MatchM.assert_lockstep handle

private theorem retract (handle : Handle) : Steady firing (retract handle) := by
  refine Lockstep.bind ensureLive fun _ => ?_
  refine session_bind fun {one other} alike => ?_
  rw [alike.memory]
  cases other.memory.fact? handle with
  | none => exact .throw _
  | some fact =>
      refine (propagate fun _ _ => MatchM.retract_lockstep handle).outcome.bind fun result => ?_
      refine update_bind (fun alike => alike.withMemory ?_) ?_
      · rw [alike.memory]
      · exact (notify _).bind fun _ => Lockstep.bind (.lift result) fun _ => .pure _

private theorem assignGlobal (name : String) (value : Value) : Steady firing
    (assignGlobal name value) := by
  refine session_bind fun {one other} alike => ?_
  rw [alike.globalTypes]
  cases other.globalTypes.find? name with
  | none => exact .throw _
  | some declared =>
      cases accepts : declared.accepts value.type with
      | false =>
          simp only [accepts, Bool.false_eq_true, ↓reduceIte]
          exact .throw _
      | true =>
          simp only [accepts, ↓reduceIte]
          refine update fun alike => alike.withMemory ?_
          rw [alike.memory]

private theorem dispose : Steady firing dispose := by
  refine session_bind fun {one other} alike => ?_
  rw [alike.disposed]
  cases other.disposed with
  | true => exact .pure _
  | false =>
      refine update_bind (fun {one other} alike => ?_) (notify _)
      exact ⟨alike.catalog, alike.network, alike.globalTypes, alike.config, rfl, .refl _,
        congrArg Agenda.clear alike.agenda, rfl, alike.halted⟩

/-! ## Consequences -/

private theorem evaluate (functions : FunctionTable) (tuple : Tuple) (frame : List Value)
    (e : Expr) :
    Steady firing (evaluate functions tuple frame e) := by
  refine session_bind fun {one other} alike => ?_
  rw [alike.catalog, alike.config, alike.memory]
  refine update_bind (fun alike => alike.withMemory ?_) (.lift _)
  rw [alike.memory]

private theorem evaluateAssignments (functions : FunctionTable) (tuple : Tuple) (frame : List Value)
    (assignments : List (String × Expr)) :
    Steady firing (evaluateAssignments functions tuple frame assignments) := by
  induction assignments with
  | nil => exact .pure _
  | cons assignment rest ih =>
      exact (evaluate functions tuple frame assignment.2).bind fun value =>
        ih.bind fun values => .pure _

private theorem runAction (functions : FunctionTable) (tuple : Tuple) (frame : List Value)
    (action : Action) : Steady firing (runAction functions tuple frame action) := by
  cases action with
  | eval e => exact (evaluate functions tuple frame e).bind fun _ => .pure _
  | bind slot e =>
      refine (evaluate functions tuple frame e).bind fun value => ?_
      by_cases within : slot < frame.length
      · simp only [within, ↓reduceIte]
        exact .pure _
      · simp only [within, ↓reduceIte]
        exact .throw _
  | insert e =>
      refine (evaluate functions tuple frame e).bind fun value => ?_
      cases value with
      | object typeName fields => exact (insert _).bind fun _ => .pure _
      | nil | bool | int | float | string | list => exact .throw _
  | modify index var assignments =>
      refine Lockstep.bind (.lift _) fun handle => ?_
      refine (evaluateAssignments functions tuple frame assignments).bind fun values => ?_
      refine session_bind fun {one other} alike => ?_
      rw [alike.memory]
      cases other.memory.fact? handle with
      | none => exact .throw _
      | some current => exact (updateFact _ _).bind fun _ => .pure _
  | retract index var =>
      exact Lockstep.bind (.lift _) fun handle => (retract handle).bind fun _ => .pure _
  | setGlobal name e =>
      exact (evaluate functions tuple frame e).bind fun value =>
        (assignGlobal name value).bind fun _ => .pure _
  | halt =>
      refine update_bind (fun alike => ?_) (.pure _)
      exact { alike with halted := fun _ => rfl }

private theorem runActions (functions : FunctionTable) (tuple : Tuple) (frame : List Value)
    (actions : List Action) : Steady firing (runActions functions tuple frame actions) := by
  induction actions generalizing frame with
  | nil => exact .pure _
  | cons action rest ih => exact (runAction functions tuple frame action).bind ih

/-! ## The loop -/

private theorem finishFiring : Steady firing finishFiring :=
  update fun alike => alike.withAgenda (congrArg Agenda.finishFiring alike.agenda)

private theorem takeNext (waiting : Nat) : Steady firing (takeNext waiting) := by
  induction waiting with
  | zero => exact .pure _
  | succ waiting ih =>
      refine session_bind fun {one other} alike => ?_
      rw [alike.agenda]
      cases other.agenda.pop? with
      | none => exact .pure _
      | some popped =>
          obtain ⟨next, agenda⟩ := popped
          refine update_bind (fun alike => alike.withAgenda rfl) ?_
          refine session_bind fun {one other} alike => ?_
          rw [alike.network]
          cases other.network.rule? next.rule with
          | none => exact finishFiring.bind fun _ => .throw _
          | some rule =>
              refine session_bind fun {one other} alike => ?_
              rw [alike.memory]
              cases next.tuple.all other.memory.contains with
              | true => exact .pure _
              | false => exact finishFiring.bind fun _ => ih

private theorem checkLimit (fired : Nat) : Steady firing (checkLimit fired) := by
  refine session_bind fun {one other} alike => ?_
  rw [alike.config, alike.agenda, alike.network]
  cases other.config.maxActivations with
  | none => exact .pure _
  | some limit =>
      by_cases reached : limit ≤ fired
      · simp only [reached, ↓reduceIte]
        exact .throw _
      · simp only [reached, ↓reduceIte]
        exact .pure _

private theorem fire (next : Activation) (rule : Rule) : Steady true (fire next rule) := by
  refine (notify _).bind fun _ => ?_
  refine (runActions _ _ _ _).outcome.bind fun result => ?_
  refine finishFiring.bind fun _ => ?_
  cases result with
  | error source => exact .throw _
  | ok =>
      refine (notify _).bind fun _ => session_bind fun {one other} alike => ?_
      rw [alike.halted rfl]
      cases other.halted with
      | true => exact notify _
      | false => exact .pure _

private theorem fireLoop (budget fired : Nat) : Steady true (fireLoop budget fired) := by
  induction budget generalizing fired with
  | zero => exact .pure _
  | succ budget ih =>
      refine session_bind fun {one other} alike => ?_
      rw [alike.halted rfl, alike.agenda]
      cases other.halted || other.agenda.isEmpty with
      | true => exact .pure _
      | false =>
          refine (checkLimit fired).bind fun _ => (takeNext _).bind fun taken => ?_
          cases taken with
          | none => exact .pure _
          | some step => exact (fire step.1 step.2).bind fun _ => ih (fired + 1)

/-- A firing loop begins by taking back the halt of the last one. -/
theorem fireRules (budget : Option Nat) : Steady false (fireRules budget) := by
  refine Lockstep.bind ensureLive fun _ before before' alike => ?_
  have same := alike.session
  have unhalted : SessionRun.Alike true
      { before with session := { before.session with halted := false } }
      { before' with session := { before'.session with halted := false } } :=
    ⟨{ same with halted := fun _ => rfl }, alike.events, alike.failures⟩
  obtain ⟨result, after, after', ends, ends', last⟩ := fireLoop (budget.getD _) 0 unhalted
  refine ⟨result, after, after', ends_update_bind.mpr ends, ends_update_bind.mpr ends', ?_⟩
  exact ⟨{ last.session with halted := fun never => by cases never }, last.events, last.failures⟩

/-- Sessions that are alike answer every request in the same way and stay alike. -/
theorem perform (request : Request) : Steady false (perform request) := by
  cases request with
  | insert fact => exact (insert fact).bind fun _ => .pure _
  | update handle fact => exact (updateFact handle fact).bind fun _ => .pure _
  | retract handle => exact (retract handle).bind fun _ => .pure _
  | setGlobal name value =>
      apply Lockstep.bind
      · exact Lockstep.bind ensureLive fun _ => assignGlobal name value
      · exact fun _ => .pure _
  | fire budget => exact (fireRules budget).bind fun _ => .pure _
  | dispose => exact dispose.bind fun _ => .pure _

end Steady

end SessionM

namespace Session

/-- Asks a session one request after the other; yields the answers, with the events on the way, and
the session afterwards. -/
def serve (session : Session) :
    List Request → List (Except Error Answer × List SessionEvent) × Session
  | [] => ([], session)
  | request :: rest =>
    let (result, run) := (SessionM.perform request).on session
    let (answers, last) := run.session.serve rest
    ((result, run.events) :: answers, last)

/-- Sessions that are alike give the same answers and stay alike. -/
theorem Alike.serve {one other : Session} (alike : one.Alike false other)
    (requests : List Request) :
    (one.serve requests).1 = (other.serve requests).1 ∧
      (one.serve requests).2.Alike false (other.serve requests).2 := by
  induction requests generalizing one other with
  | nil => exact ⟨rfl, alike⟩
  | cons request rest ih =>
      have start : SessionRun.Alike false { session := one } { session := other } :=
        ⟨alike, rfl, rfl⟩
      obtain ⟨result, after, after', ends, ends', last⟩ := SessionM.Steady.perform request start
      have answers : (SessionM.perform request).on one = (result, after) := ends
      have answers' : (SessionM.perform request).on other = (result, after') := ends'
      obtain ⟨same, onward⟩ := ih last.session
      simp only [Session.serve, answers, answers', last.events]
      exact ⟨congrArg _ same, onward⟩

end Session

end Rete
