import Rete.Proofs.Containment
import Rete.Proofs.Session.Exactness
import Rete.Proofs.Session.Snapshots

/-!
# Requests without internal errors

Rules refer to what there is, tests of nodes are tried on matches in progress that are as long as
their place says, and a rule fires on a match that is as long as the rule needs. So while host
functions do not fail internally, no request does (`KnowledgeBase.Made.contained_of_visits`),
neither at once nor inside a consequence.
-/

namespace Rete

open Matching

/-! ## What ends a propagation -/

/-- In a well scoped network, a test that fails does not fail internally. -/
theorem Network.Scoped.ordinary {network : Network} (isScoped : network.Scoped) {view : FactView}
    (trusted : view.catalog.Trusted) {error : Error}
    (raised : RaisedInPlace network view error) : error.Ordinary := by
  cases raised with
  | @test id kind own test room scope live isOwn member gives meets failed =>
      obtain ⟨there, givesThere, fits⟩ := isScoped.placed id kind live test member
      obtain rfl := gives.unique givesThere
      have contained : Contained (view.holds own scope test) :=
        Evaluation.contained_test trusted (isScoped.tables live isOwn)
          (Nat.le_of_eq (gives.functions_eq isOwn)) meets gives.isPlain fits view.globals
      rw [failed] at contained
      exact contained

private theorem Refusal.ordinary {error : Error} (refusal : Refusal error) : error.Ordinary := by
  cases refusal <;> rfl

namespace Session

/-- What requests rely on in order not to fail internally. -/
structure Secure (session : Session) : Prop where
  intact : session.Intact
  network : session.network.Scoped
  trusted : session.catalog.Trusted

variable {session after : Session}

/-- What ends a propagation is no internal error. -/
theorem Secure.ordinary {failures : List Error} (secure : session.Secure)
    (step : session.Step failures after) : ∀ error ∈ failures, error.Ordinary := by
  intro error member
  obtain ⟨view, same, raised⟩ := secure.intact.raised step error member
  exact secure.network.ordinary (same ▸ secure.trusted) raised

/-- No step makes a session less secure. -/
theorem Secure.step {failures : List Error} (secure : session.Secure)
    (step : session.Step failures after) : after.Secure where
  intact := secure.intact.step step
  network := step.retains.network ▸ secure.network
  trusted := step.retains.catalog ▸ secure.trusted

/-- Steps of requests keep a session secure. -/
theorem kept_secure : Kept fun session _ => session.Secure := ⟨Secure.step⟩

/-- A request that fails by a refusal or by what ended a propagation. -/
theorem Secure.contained {α : Type} {result : Except Error α} {failures : List Error}
    (secure : session.Secure) (step : session.Step failures after)
    (fails : FailsBy result failures) : Contained result :=
  fails.imp (fun _ _ => trivial) fun error why =>
    why.elim Refusal.ordinary (secure.ordinary step error)

end Session

namespace SessionM

/-- An operation that does not fail internally. -/
abbrev Calm {α : Type} (operation : SessionM α) : Prop :=
  Safe (fun run : SessionRun => run.session.Secure) Error.Ordinary operation

variable {before after : SessionRun}

/-- It is known what an operation keeps; what is left is how it fails. -/
theorem Calm.of_keeping {α : Type} {operation : SessionM α}
    (keeping : Keeping (fun session _ => session.Secure) operation)
    (contained : ∀ {before result after}, Ends operation before result after →
      before.session.Secure → Contained result) : Calm operation where
  safe run secure := ⟨keeping.keeps run secure, contained run secure⟩

open Session (kept_secure)

/-! ## Operations on facts and globals -/

/-- Reading the session does not fail. -/
theorem calm_session : Calm session := .get_bind fun _ _ => .pure _

private theorem calm_notify (event : SessionEvent) : Calm (notify event) :=
  .modify fun _ secure => secure

private theorem calm_ensureLive : Calm ensureLive := by
  refine calm_session.bind fun session => ?_
  cases session.disposed with
  | true => exact .throw rfl
  | false => exact .pure _

private theorem calm_insert (fact : Object) : Calm (insert fact) :=
  .of_keeping (Kept.insert kept_secure fact) fun run secure => by
    obtain ⟨failures, inserts, -, fails⟩ := ends_insert run
    exact secure.contained (.inserts inserts) fails

private theorem calm_updateFact (handle : Handle) (fact : Object) : Calm (updateFact handle fact) :=
  .of_keeping (Kept.updateFact kept_secure handle fact) fun run secure => by
    obtain ⟨failures, updates, -, fails⟩ := ends_updateFact run
    exact secure.contained (.updates updates) fails

private theorem calm_retract (handle : Handle) : Calm (retract handle) :=
  .of_keeping (Kept.retract kept_secure handle) fun run secure => by
    obtain ⟨failures, retracts, -, fails⟩ := ends_retract run
    exact secure.contained (.retracts retracts) fails

private theorem calm_assignGlobal (name : String) (value : Value) : Calm
    (assignGlobal name value) :=
  .of_keeping (Kept.assignGlobal kept_secure name value) fun {before result after} run _ => by
    unfold assignGlobal at run
    rw [ends_session_bind] at run
    split at run
    · exact ((ends_throw _).mp run).1 ▸ rfl
    · split at run
      · exact (ends_update.mp run).1 ▸ trivial
      · exact ((ends_throw _).mp run).1 ▸ rfl

private theorem calm_dispose : Calm dispose :=
  .of_keeping (Kept.dispose kept_secure) fun {before result after} run _ => by
    unfold dispose at run
    rw [ends_session_bind] at run
    split at run
    · rw [ends_update_bind] at run
      exact (ends_notify.mp run).1 ▸ trivial
    · exact ((ends_pure _).mp run).1 ▸ trivial

/-! ## Consequences -/

/-- What an action refers to is there when it is run. -/
structure Supplied (room : Room) (functions : FunctionTable) (tuple : Tuple) (frame : List Value) :
    Prop where
  isScoped : functions.Scoped
  functions : room.functions ≤ functions.functions.length
  facts : room.facts ≤ tuple.length
  current : room.current = false
  slots : room.slots ≤ frame.length

section

variable {room : Room} {functions : FunctionTable} {tuple : Tuple} {frame : List Value}

private theorem calm_evaluate (supplied : Supplied room functions tuple frame) {e : Expr}
    (fits : e.Fits room) : Calm (evaluate functions tuple frame e) :=
  .of_keeping (Kept.evaluate kept_secure functions tuple frame e)
    fun {before result after} run secure => by
      unfold evaluate at run
      rw [ends_session_bind] at run
      obtain ⟨rfl, -⟩ := (ends_lift _).mp run
      let evaluation : Evaluation :=
        { catalog := before.session.catalog, functions
          callDepth := before.session.config.maxCallDepth
          facts := before.session.memory.facts, access := .readWrite }
      have filled : room.Filled evaluation { tuple } frame :=
        ⟨⟨supplied.facts, fun current => absurd (supplied.current.symm.trans current)
          Bool.false_ne_true⟩, supplied.slots, nofun⟩
      have calm :=
        evaluation.calm_eval secure.trusted supplied.isScoped supplied.functions filled fits
      exact (calm.safe (ends_run _ _) trivial).2

private theorem calm_evaluateAssignments (supplied : Supplied room functions tuple frame)
    {assignments : List (String × Expr)}
    (fits : ∀ assignment ∈ assignments, assignment.2.Fits room) :
    Calm (evaluateAssignments functions tuple frame assignments) := by
  induction assignments with
  | nil => exact .pure _
  | cons assignment rest ih =>
      refine (calm_evaluate supplied (fits assignment List.mem_cons_self)).bind fun value => ?_
      refine (ih fun other member => fits other (List.mem_cons_of_mem _ member)).bind
        fun values => ?_
      exact .pure _

private theorem contained_handleAt {index : Nat} (within : index < tuple.length) (var : String) :
    Contained (handleAt tuple index var) := by
  unfold handleAt
  rw [List.getElem?_eq_getElem within]
  exact trivial

private theorem calm_runAction (supplied : Supplied room functions tuple frame) {action : Action}
    (fits : action.Fits room) : Calm (runAction functions tuple frame action) := by
  have handles : ∀ {index}, index < room.facts → ∀ var, Contained (handleAt tuple index var) :=
    fun within var => contained_handleAt (Nat.lt_of_lt_of_le within supplied.facts) var
  cases action with
  | eval e => exact (calm_evaluate supplied fits).bind fun _ => .pure _
  | bind slot e =>
      refine (calm_evaluate supplied fits.2).bind fun value => ?_
      rw [if_pos (Nat.lt_of_lt_of_le fits.1 supplied.slots)]
      exact .pure _
  | insert e =>
      refine (calm_evaluate supplied fits).bind fun value => ?_
      cases value with
      | object typeName fields => exact (calm_insert _).bind fun _ => .pure _
      | nil | bool | int | float | string | list => exact .throw rfl
  | modify index var assignments =>
      refine Safe.bind (.lift (handles fits.1 var)) fun handle => ?_
      refine (calm_evaluateAssignments supplied fits.2).bind fun values => ?_
      refine calm_session.bind fun session => ?_
      cases session.memory.fact? handle with
      | none => exact .throw rfl
      | some current => exact (calm_updateFact _ _).bind fun _ => .pure _
  | retract index var =>
      refine Safe.bind (.lift (handles fits var)) fun handle => ?_
      exact (calm_retract handle).bind fun _ => .pure _
  | setGlobal name e =>
      refine (calm_evaluate supplied fits).bind fun value => ?_
      exact (calm_assignGlobal name value).bind fun _ => .pure _
  | halt =>
      refine .of_keeping (Kept.runAction kept_secure functions tuple frame .halt) ?_
      intro before result after run _
      simp only [runAction, ends_update_bind] at run
      exact ((ends_pure _).mp run).1 ▸ trivial

/-- Only the introduction of a variable stores a value in the frame. -/
theorem frame_of_runAction {action : Action} {next : List Value}
    (run : Ends (runAction functions tuple frame action) before (.ok next) after) :
    match action with
    | .bind slot e => ∃ value, Ends (evaluate functions tuple frame e) before (.ok value) after ∧
        slot < frame.length ∧ next = frame.set slot value
    | _ => next = frame := by
  have last : ∀ {before after : SessionRun} {value : List Value},
      Ends (pure value : SessionM (List Value)) before (.ok next) after → next = value :=
    fun ending => Except.ok.inj ((ends_pure _).mp ending).1
  cases action with
  | eval e =>
      obtain ⟨value, mid, -, run⟩ := run.bind_ok
      exact last run
  | bind slot e =>
      obtain ⟨value, mid, evaluated, run⟩ := run.bind_ok
      split at run
      · next within =>
          obtain ⟨same, rfl⟩ := (ends_pure _).mp run
          exact ⟨value, evaluated, within, Except.ok.inj same⟩
      · cases ((ends_throw _).mp run).1
  | insert e =>
      obtain ⟨value, mid, -, run⟩ := run.bind_ok
      cases value with
      | object typeName fields =>
          obtain ⟨handle, later, -, run⟩ := run.bind_ok
          exact last run
      | nil | bool | int | float | string | list => cases ((ends_throw _).mp run).1
  | modify index var assignments =>
      obtain ⟨handle, mid, -, run⟩ := run.bind_ok
      obtain ⟨values, later, -, run⟩ := run.bind_ok
      rw [ends_session_bind] at run
      split at run
      · cases ((ends_throw _).mp run).1
      · obtain ⟨_, done, -, run⟩ := run.bind_ok
        exact last run
  | retract index var =>
      obtain ⟨handle, mid, -, run⟩ := run.bind_ok
      obtain ⟨fact, later, -, run⟩ := run.bind_ok
      exact last run
  | setGlobal name e =>
      obtain ⟨value, mid, -, run⟩ := run.bind_ok
      obtain ⟨_, later, -, run⟩ := run.bind_ok
      exact last run
  | halt =>
      simp only [runAction, ends_update_bind] at run
      exact last run

/-- An action keeps the size of the frame. -/
theorem length_of_runAction {action : Action} {next : List Value}
    (run : Ends (runAction functions tuple frame action) before (.ok next) after) :
    next.length = frame.length := by
  have same := frame_of_runAction run
  cases action with
  | bind slot e =>
      obtain ⟨value, -, -, rfl⟩ := same
      exact List.length_set
  | eval | insert | modify | retract | setGlobal | halt => exact congrArg _ same

private theorem calm_runActions (supplied : Supplied room functions tuple frame)
    {actions : List Action} (fits : ∀ action ∈ actions, action.Fits room) :
    Calm (runActions functions tuple frame actions) := by
  induction actions generalizing frame with
  | nil => exact .pure _
  | cons action rest ih =>
      refine (calm_runAction supplied (fits action List.mem_cons_self)).bind_value
        (fun run _ => length_of_runAction run) fun next same => ?_
      exact ih { supplied with slots := same.symm ▸ supplied.slots }
        fun other member => fits other (List.mem_cons_of_mem _ member)

end

/-! ## Firing -/

/-- A rule fires on a match that is as long as it needs. -/
structure Ready (rule : Rule) (tuple : Tuple) : Prop where
  meaning : rule.Scoped
  functions : rule.functions.Scoped
  length : tuple.length = rule.arity

private theorem calm_execute {rule : Rule} {tuple : Tuple} (ready : Ready rule tuple) :
    Calm (execute rule tuple) :=
  calm_runActions
    { isScoped := ready.functions, functions := Nat.le_refl _
      facts := Nat.le_of_eq ready.length.symm, current := rfl
      slots := Nat.le_of_eq List.length_replicate.symm } ready.meaning.actions

private theorem calm_finishFiring : Calm finishFiring :=
  .of_keeping (Kept.finishFiring kept_secure) fun run _ => (ends_update.mp run).1 ▸ trivial

/-- The match that is taken is one that its rule can fire on. -/
theorem takeNext_ready {waiting : Nat} {result : Except Error (Option (Activation × Rule))}
    (run : Ends (takeNext waiting) before result after) (secure : before.session.Secure) :
    Outcome result (fun taken => ∀ next ∈ taken, Ready next.2 next.1.tuple) Error.Ordinary := by
  cases waiting with
  | zero =>
      obtain ⟨rfl, -⟩ := (ends_pure _).mp run
      exact nofun
  | succ waiting =>
      rcases secure.intact.takeNext run with ⟨-, rfl⟩ | ⟨next, rule, first, isRule, rfl⟩
      · exact nofun
      · rintro _ ⟨⟩
        have known := secure.intact.knows_pending (List.mem_of_mem_head? first)
        obtain ⟨entry, left, isEntry, -, -, length⟩ := secure.intact.structured.tracked known
        have same : rule = entry.rule := by
          rw [Network.rule?, isEntry] at isRule
          exact (Option.some.inj isRule).symm
        obtain ⟨meaning, functions⟩ := secure.network.rules isRule
        exact ⟨meaning, functions, by rw [meaning.arity, same]; exact length⟩

private theorem calm_checkLimit (fired : Nat) : Calm (checkLimit fired) := by
  refine calm_session.bind fun session => ?_
  cases session.config.maxActivations with
  | none => exact .pure _
  | some limit =>
      dsimp only
      split
      · exact .throw rfl
      · exact .pure _

private theorem calm_fire {next : Activation} {rule : Rule} (ready : Ready rule next.tuple) :
    Calm (fire next rule) := by
  refine (calm_notify _).bind fun _ => ?_
  have executes : ∀ {before result after}, Ends (outcome (execute rule next.tuple)) before
      (.ok result) after → before.session.Secure → Contained result := by
    intro before result after run secure
    obtain ⟨inner, executes, same⟩ := ends_map_run.mp run
    cases same
    exact ((calm_execute ready).safe executes secure).2
  refine (calm_execute ready).outcome.bind_value executes fun result contained => ?_
  refine calm_finishFiring.bind fun _ => ?_
  cases result with
  | error source => exact .throw contained
  | ok =>
      refine (calm_notify _).bind fun _ => calm_session.bind fun session => ?_
      split
      · exact calm_notify _
      · exact .pure _

private theorem calm_fireLoop (budget fired : Nat) : Calm (fireLoop budget fired) := by
  induction budget generalizing fired with
  | zero => exact .pure _
  | succ budget ih =>
      refine calm_session.bind fun session => ?_
      split
      · exact .pure _
      · refine (calm_checkLimit fired).bind fun _ => ?_
        have takes : Calm (takeNext session.agenda.size) :=
          .of_keeping (Kept.takeNext kept_secure _) fun run secure =>
            (takeNext_ready run secure).imp (fun _ _ => trivial) fun _ => id
        refine takes.bind_value (fun run secure => takeNext_ready run secure) fun taken ready => ?_
        cases taken with
        | none => exact .pure _
        | some step => exact (calm_fire (ready step rfl)).bind fun _ => ih (fired + 1)

private theorem calm_fireRules (budget : Option Nat) : Calm (fireRules budget) := by
  refine calm_ensureLive.bind fun _ => Safe.bind ?_ fun _ => calm_fireLoop _ 0
  exact .modify fun run secure => secure.step (.halted false)

/-- No request to a secure session fails internally. -/
theorem calm_perform (request : Request) : Calm (perform request) := by
  cases request with
  | insert fact => exact (calm_insert fact).bind fun _ => .pure _
  | update handle fact => exact (calm_updateFact handle fact).bind fun _ => .pure _
  | retract handle => exact (calm_retract handle).bind fun _ => .pure _
  | setGlobal name value =>
      refine Safe.bind (calm_ensureLive.bind fun _ => calm_assignGlobal name value) fun _ => .pure _
  | fire budget => exact (calm_fireRules budget).bind fun _ => .pure _
  | dispose => exact calm_dispose.bind fun _ => .pure _

end SessionM

/-! ## Every session -/

private theorem Session.Intact.contained_snapshot {session : Session} (intact : session.Intact) :
    Contained session.snapshot := by
  cases alive : session.disposed with
  | false =>
      rw [intact.snapshot_eq alive]
      exact trivial
  | true =>
      rw [Session.snapshot, alive]
      exact rfl

namespace KnowledgeBase

variable {base : KnowledgeBase} {config : SessionConfig}

/-- Conditions that need no fact do not fail internally when a session is made. -/
theorem Made.contained_newSession (made : base.Made) (trusted : base.catalog.Trusted)
    (config : SessionConfig) : Contained (base.newSession config) := by
  have start := Session.Intact.unseeded made.proper.network.sound config
  unfold newSession
  rcases seeding : SessionM.seed.on (base.unseededSession config) with ⟨result, run⟩
  have seeds : Ends SessionM.seed { session := base.unseededSession config } result run := seeding
  obtain ⟨matching, follows, -⟩ := (SessionM.ends_propagate seeds).1
  have raised := seed_raised start.sound start.shown follows
  cases result with
  | ok => exact trivial
  | error error => exact made.proper.scoped.ordinary trusted raised

/-- A session keeps the network that it was made with. -/
theorem Visits.network {session : Session} (visits : base.Visits config session) :
    session.network = base.network := by
  induction visits with
  | new made =>
      obtain ⟨matching, -, rfl⟩ := Session.follows_of_newSession made
      rfl
  | step _ step ih => exact step.retains.network.trans ih
  | rehosted _ _ _ ih => exact ih

private theorem Made.secure_of_visits (made : base.Made) {session : Session}
    (visits : base.Visits config session) (trusted : session.catalog.Trusted) : session.Secure where
  intact := visits.intact made.proper.network.sound
  network := visits.network ▸ made.proper.scoped
  trusted := trusted

/-- Whatever rules, functions and facts there are, everything that is referred to is there. So as
long as host functions do not fail internally, making a session does not, nor does any request to a
session or a snapshot of it. -/
theorem Made.contained_of_visits (made : base.Made) :
    base.network.Scoped ∧
      (base.catalog.Trusted → ∀ config, Contained (base.newSession config)) ∧
      ∀ {config : SessionConfig} {before : SessionRun}, base.Visits config before.session →
        before.session.catalog.Trusted →
          Contained before.session.snapshot ∧
          ∀ {request result after}, Ends (SessionM.perform request) before result after →
            Contained result ∧ base.Visits config after.session ∧
              after.session.catalog.Trusted := by
  refine ⟨made.proper.scoped, made.contained_newSession, ?_⟩
  intro config before visits trusted
  have secure := made.secure_of_visits visits trusted
  refine ⟨secure.intact.contained_snapshot, fun {request result after} run => ?_⟩
  obtain ⟨kept, contained⟩ := (SessionM.calm_perform request).safe run secure
  exact ⟨contained, visits.perform run, kept.trusted⟩

end KnowledgeBase

/-! ## A knowledge base with a host function -/

namespace Gauges

/-- What a number is inverted by: zero has no inverse. -/
def invert : HostFunction where
  holder := ⟨["app", "Gauge"]⟩
  name := "invert"
  params := [.int]
  returns := .int
  host
    | [.int 0] => .error (Cause.divisionByZero : Error)
    | [.int level] => .ok (.int (1000 / level))
    | _ => .ok .nil

/-- A type with a level and a function of the host. -/
def gauge : TypeDef :=
  { name := ⟨["app", "Gauge"]⟩, fields := [.ofType "level" .int], functions := [invert] }

/-- The level of a gauge is inverted while there is no other gauge with a higher one. -/
def rules : List RuleDecl :=
  [{ name := "inverted"
     conditions :=
      [.pattern
          { typeName := "Gauge", binding := some "$g", constraints := [.bind "$level" "level"] },
        .absent
          { typeName := "Gauge"
            constraints := [.test (.binary .gt (.name "level") (.name "$level"))] }]
     consequence :=
      [.bind "$inverse" (.method (.name "Gauge") "invert" [.name "$level"]),
        .modify "$g" [("level", .name "$inverse")]] }]

/-- The result of building the package. -/
def built : Except (List Diagnostic) KnowledgeBase :=
  KnowledgeBase.build ⟨SortedMap.insert ∅ "app.Gauge" gauge⟩
    [{ name := "app", imports := [.type "app.Gauge" {}], rules }]

/-- The knowledge base of the rules. -/
def base : KnowledgeBase := built.toOption.getD default

/-- The package does build. -/
theorem built_eq : built = .ok base := eq_ok_getD (by decide +kernel : built.toOption.isSome = true)

private theorem trusted : base.catalog.Trusted := by
  have same : base.catalog = ⟨SortedMap.insert ∅ "app.Gauge" gauge⟩ :=
    KnowledgeBase.catalog_of_build built_eq
  have inverts : ∀ args, Contained (invert.host args) := by
    intro args
    dsimp only [invert]
    split <;> first | exact rfl | exact trivial
  intro name type found function member args
  rw [same, Catalog.get?, SortedMap.find?_insert_eq] at found
  split at found
  · cases found
    obtain rfl := List.mem_singleton.mp member
    exact inverts args
  · cases found

/-- A new session. -/
def opened : SessionRun :=
  { session := (base.newSession {}).toOption.getD default }

/-- A session can be opened. -/
theorem opened_eq : base.newSession {} = .ok opened.session :=
  eq_ok_getD (by decide +kernel : (base.newSession {}).toOption.isSome = true)

/-- A gauge at zero, whose level is to be inverted next. -/
def waiting : SessionRun :=
  ((SessionM.perform (.insert ⟨"app.Gauge", [("level", .int 0)]⟩)).run.run opened).2

/-- The consequence fails in the host function, which is no internal error. -/
theorem waiting_contained : base.Made ∧ base.catalog.Trusted ∧ base.Visits {} waiting.session ∧
    waiting.session.catalog.Trusted ∧ ∃ result after,
      Ends (SessionM.perform (.fire none)) waiting result after ∧ result.toOption = none ∧
      Contained result ∧ Contained after.session.snapshot := by
  have made : base.Made := .built built_eq
  have isTrusted : opened.session.catalog.Trusted := by
    obtain ⟨matching, -, same⟩ := Session.follows_of_newSession opened_eq
    rw [same]
    exact trusted
  obtain ⟨-, -, each⟩ := KnowledgeBase.Made.contained_of_visits made
  have inserts : Ends (SessionM.perform (.insert ⟨"app.Gauge", [("level", .int 0)]⟩)) opened _
    waiting := ends_run _ _
  have before := ((@each {} opened (.new opened_eq) isTrusted).2 inserts).2
  obtain ⟨result, after, fires⟩ :
      ∃ result after, Ends (SessionM.perform (.fire none)) waiting result after :=
    ⟨_, _, ends_run _ _⟩
  have fails : result.toOption = none := by
    rw [(fires.unique (ends_run _ _)).1]
    decide +kernel
  obtain ⟨contained, later, last⟩ := (@each {} waiting before.1 before.2).2 fires
  exact ⟨made, trusted, before.1, before.2, result, after, fires, fails, contained,
    (each later last).1⟩

end Gauges

end Rete
