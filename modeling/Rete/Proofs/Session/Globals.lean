import Rete.Proofs.Knowledge
import Rete.Proofs.Session.Snapshots
import Rete.Proofs.Snapshot.Restoring

/-!
# Globals of sessions

However a session came about, and whatever was asked of it, its globals are those of its knowledge
base, with values that the declared types accept; conditions and functions leave them as they are
(`KnowledgeBase.Made.globals_typed`). An evaluation changes globals only where a consequence updates
one itself: conditions may not write (`GlobalsM.Still`), and functions are compiled without updates.
-/

namespace Rete

/-! ## Evaluation that changes nothing -/

namespace GlobalsM

variable {α β : Type}

/-- The computation leaves the globals as they are, however it ends. -/
structure Still (operation : GlobalsM α) : Prop where
  same : ∀ {globals result after}, Ends operation globals result after → after = globals

namespace Still

private theorem pure (a : α) : Still (Pure.pure a : GlobalsM α) :=
  ⟨fun run => ((ends_pure a).mp run).2⟩

/-- Failing leaves the globals as they are. -/
theorem throw (error : Error) : Still (throw error : GlobalsM α) :=
  ⟨fun run => ((ends_throw error).mp run).2⟩

private theorem liftResult (result : Except Error α) : Still (liftResult result) :=
  ⟨fun run => ((ends_lift result).mp run).2⟩

private theorem bind {first : GlobalsM β} {next : β → GlobalsM α} (one : Still first)
    (two : ∀ value, Still (next value)) : Still (first >>= next) where
  same run := by
    rcases ends_bind.mp run with ⟨value, between, start, rest⟩ | ⟨error, start, -⟩
    · exact ((two value).same rest).trans (one.same start)
    · exact one.same start

private theorem read (name : String) : Still (read name) := by
  refine bind ⟨fun run => ?_⟩ fun _ => pure _
  exact (ends_get.mp run).2

/-- Leaving the globals as they are goes along with composing computations. -/
theorem composes : Composes fun _ one _ => Still one where
  pure := pure
  throw := throw
  liftResult := liftResult
  bind := bind

end Still

end GlobalsM

namespace Expr

open GlobalsM

/-- An expression changes no global if its updates and the functions that it calls change none. -/
theorem evalWith_still {call : LocalCall} {evaluation : Evaluation} {scope : MatchScope} {e : Expr}
    (frame : List Value)
    (updates : ∀ {name update args}, .updateGlobal name update args ∈ e.parts →
      ∀ value, Still (evaluation.writeGlobal name value))
    (calls : ∀ name index values, Still (call name index values)) :
    Still (e.evalWith call evaluation scope frame) := by
  suffices each : ∀ part ∈ e.parts, part.Likewise (fun _ one _ => Still one) call call evaluation
      evaluation scope scope from evalWith_related Still.composes rfl frame e each
  intro part member
  cases part with
  | global name => exact Still.read name
  | updateGlobal name update args => exact ⟨.read name, updates member⟩
  | call name callee args =>
      cases callee with
      | native => exact trivial
      | localFunction index => exact calls name index
  | fact | factField | currentField => exact rfl
  | const | slot | field | method | construct | binary | unary => exact trivial

end Expr

namespace Evaluation

open GlobalsM

variable {evaluation : Evaluation}

private theorem writeGlobal_still (readOnly : evaluation.access ≠ .readWrite) (name : String)
    (value : Value) : Still (evaluation.writeGlobal name value) := by
  unfold writeGlobal
  cases access : evaluation.access with
  | readWrite => exact absurd access readOnly
  | readOnly | absent => exact .throw _

/-- A function changes no global if its body does not update any, or if it may not. -/
theorem callLocal_still
    (updates : ∀ function ∈ evaluation.functions.functions, ∀ {name update args},
      .updateGlobal name update args ∈ function.body.parts →
        ∀ value, Still (evaluation.writeGlobal name value))
    (remaining : Nat) (name : String) (index : Nat) (args : List Value) :
    Still (evaluation.callLocal remaining name index args) := by
  induction remaining generalizing name index args with
  | zero =>
      unfold callLocal
      cases evaluation.functions.functions[index]? with
      | none => exact .throw _
      | some function => exact .throw _
  | succ remaining ih =>
      unfold callLocal
      cases found : evaluation.functions.functions[index]? with
      | none => exact .throw _
      | some function =>
          exact Expr.evalWith_still _ (updates function (List.mem_of_getElem? found)) ih

/-- What may only read globals changes none. -/
theorem eval_still (readOnly : evaluation.access ≠ .readWrite) (scope : MatchScope)
    (frame : List Value) (e : Expr) : Still (evaluation.eval scope frame e) :=
  Expr.evalWith_still frame (fun _ => writeGlobal_still readOnly _)
    (callLocal_still (fun _ _ _ _ _ _ => writeGlobal_still readOnly _) _)

/-- Functions of packages update no globals. -/
theorem callLocal_still_of_scoped (fit : evaluation.functions.Scoped) (remaining : Nat)
    (name : String) (index : Nat) (args : List Value) :
    Still (evaluation.callLocal remaining name index args) := by
  refine callLocal_still (fun function member name update args part => ?_) remaining name index args
  cases show false = true from fit function member _ part

end Evaluation

/-! ## Restored memories -/

namespace Snapshot

variable {base : KnowledgeBase} {config : SessionConfig} {memory after : WorkingMemory}

private theorem admissible_restoreGlobal {global : String × Value}
    (admissible : ((base.unseededSession config).withMemory memory).Admissible)
    (restored : restoreGlobal base.globals memory global = .ok after) :
    ((base.unseededSession config).withMemory after).Admissible := by
  obtain ⟨declared, isDeclared, accepts, rfl⟩ := restoreGlobal_eq_ok restored
  exact ⟨admissible.typed, admissible.admits.insert isDeclared accepts, admissible.counted⟩

private theorem admissible_restoreFact {fact : FactRecord}
    (admissible : ((base.unseededSession config).withMemory memory).Admissible)
    (restored : restoreFact base.catalog memory fact = .ok after) :
    ((base.unseededSession config).withMemory after).Admissible := by
  obtain ⟨typed, rfl⟩ := restoreFact_eq_ok restored
  exact admissible.putting rfl rfl typed

/-- Whatever a session is restored from, its facts and globals are checked. -/
theorem admissible_restore {snapshot : Snapshot} {session : Session}
    (restored : snapshot.restore base config = .ok session) : session.Admissible := by
  obtain ⟨named, memory, _, _, _, globals, facts, -, -, rfl⟩ := restore_eq_ok restored
  have empty : ((base.unseededSession config).withMemory {}).Admissible :=
    ⟨fun {handle fact} found => (by cases found), GlobalTypes.Admit.empty, Nat.le_refl 1⟩
  have withGlobals := holds_of_foldlM
    (fun memory => ((base.unseededSession config).withMemory memory).Admissible) globals empty
    admissible_restoreGlobal
  have withFacts := holds_of_foldlM
    (fun memory => ((base.unseededSession config).withMemory memory).Admissible) facts withGlobals
    admissible_restoreFact
  exact ⟨withFacts.typed, withFacts.admits, Nat.le_trans withFacts.counted (Nat.le_max_left ..)⟩

end Snapshot

/-! ## Sessions of a knowledge base -/

namespace KnowledgeBase

/-- The sessions of a knowledge base: new ones, those that were restored from a snapshot, and what
requests make of them, also those that fail. -/
inductive Hosts (base : KnowledgeBase) : Session → Prop
  | new {config : SessionConfig} {session : Session}
      (made : base.newSession config = .ok session) : Hosts base session
  | restored {snapshot : Snapshot} {config : SessionConfig} {session : Session}
      (restored : snapshot.restore base config = .ok session) : Hosts base session
  | asked {before after : SessionRun} {request : Request} {result : Except Error Answer}
      (hosts : Hosts base before.session)
      (run : Ends (SessionM.perform request) before result after) : Hosts base after.session

namespace Hosts

variable {base : KnowledgeBase} {session : Session}

private theorem admissible (hosts : base.Hosts session) : session.Admissible := by
  induction hosts with
  | new made => exact .new made
  | restored restored => exact Snapshot.admissible_restore restored
  | asked _ run ih =>
      have kept : Session.Kept fun session _ => session.Admissible := ⟨fun holds => holds.step⟩
      exact (SessionM.Kept.perform kept _).keeps run ih

private theorem globalTypes (hosts : base.Hosts session) : session.globalTypes = base.globals := by
  induction hosts with
  | new made =>
      obtain ⟨matching, -, rfl⟩ := Session.follows_of_newSession made
      rfl
  | restored restored =>
      obtain ⟨_, _, _, _, _, -, -, -, -, rfl⟩ := Snapshot.restore_eq_ok restored
      rfl
  | asked _ run ih =>
      have kept : Session.Kept fun session _ => session.globalTypes = base.globals :=
        ⟨fun holds step => step.retains.globalTypes.trans holds⟩
      exact (SessionM.Kept.perform kept _).keeps run ih

end Hosts

end KnowledgeBase

/-- A request that only has conditions tested. -/
def Request.OnFacts : Request → Prop
  | .insert _ | .update _ _ | .retract _ => True
  | .setGlobal _ _ | .fire _ | .dispose => False

namespace Session

variable {session after : Session}

/-- Following the network does not touch the globals. -/
theorem Follows.globals {step : Network → FactView → MatchM Unit} {result : Except Error Unit}
    (follows : session.Follows step result after) :
    after.memory.globals = session.memory.globals := by
  obtain ⟨matching, rfl⟩ := follows.exists_eq
  rfl

variable {handle : Handle} {fact : Object} {failures : List Error}

private theorem Inserts.globals {result : Except Error Handle}
    (inserts : session.Inserts fact result after failures) :
    after.memory.globals = session.memory.globals := by
  cases inserts with
  | refused => rfl
  | inserted _ _ follows => exact follows.globals
  | takenBack _ _ follows back => exact back.globals.trans follows.globals

private theorem Updates.globals {result : Except Error Unit}
    (updates : session.Updates handle fact result after failures) :
    after.memory.globals = session.memory.globals := by
  cases updates with
  | refused => rfl
  | withdrawn _ _ _ follows => exact follows.globals
  | replaced _ _ _ first second => exact second.globals.trans first.globals

private theorem Retracts.globals {result : Except Error Object}
    (retracts : session.Retracts handle result after failures) :
    after.memory.globals = session.memory.globals := by
  cases retracts with
  | refused => rfl
  | retracted _ _ follows => exact follows.globals

end Session

namespace SessionM

variable {globals : Globals}

/-- An operation that leaves the globals of a session as they are. -/
abbrev Sparing {α : Type} (globals : Globals) (operation : SessionM α) : Prop :=
  Keeping (fun session _ => session.memory.globals = globals) operation

private theorem sparing_insert (fact : Object) : Sparing globals (insert fact) where
  keeps run holds := by
    obtain ⟨_, inserts, -, -⟩ := ends_insert run
    exact inserts.globals.trans holds

private theorem sparing_updateFact (handle : Handle) (fact : Object) :
    Sparing globals (updateFact handle fact) where
  keeps run holds := by
    obtain ⟨_, updates, -, -⟩ := ends_updateFact run
    exact updates.globals.trans holds

private theorem sparing_retract (handle : Handle) : Sparing globals (retract handle) where
  keeps run holds := by
    obtain ⟨_, retracts, -, -⟩ := ends_retract run
    exact retracts.globals.trans holds

/-- Having conditions tested leaves the globals as they are. -/
theorem sparing_perform {request : Request} (onFacts : request.OnFacts) :
    Sparing globals (perform request) := by
  cases request with
  | insert fact => exact (sparing_insert fact).bind fun _ => .pure _
  | update handle fact => exact (sparing_updateFact handle fact).bind fun _ => .pure _
  | retract handle => exact (sparing_retract handle).bind fun _ => .pure _
  | setGlobal | fire | dispose => exact onFacts.elim

end SessionM

namespace KnowledgeBase

variable {base : KnowledgeBase}

/-- **Globals keep their types.** However a session of a knowledge base came about, also from a
snapshot that was changed, and whatever was asked of it: every global that is set is one of the
knowledge base, and its type accepts the value. Requests that have conditions tested leave all
globals as they are, and so does every evaluation that may not write, also one that fails, and every
call of a function of a package, also where a consequence makes it. -/
theorem Made.globals_typed (made : base.Made) :
    (∀ {session}, base.Hosts session →
      session.globalTypes = base.globals ∧
      ∀ name value, session.memory.globals.find? name = some value →
        ∃ declared, base.globals.find? name = some declared ∧
          declared.accepts value.type = true) ∧
    (∀ {before request result after}, Ends (SessionM.perform request) before result after →
      request.OnFacts → after.session.memory.globals = before.session.memory.globals) ∧
    (∀ {evaluation : Evaluation}, evaluation.access ≠ .readWrite →
      ∀ scope frame e {globals result after},
        Ends (evaluation.eval scope frame e) globals result after → after = globals) ∧
    ∀ {evaluation : Evaluation}, base.Provides evaluation.functions →
      ∀ remaining name index args {globals result after},
        Ends (evaluation.callLocal remaining name index args) globals result after →
          after = globals := by
  refine ⟨fun hosts => ⟨hosts.globalTypes, ?_⟩, fun run onFacts => ?_,
    fun readOnly scope frame e => (Evaluation.eval_still readOnly scope frame e).same,
    fun {_} provides remaining name index args {_ _ _} run => ?_⟩
  · rw [← hosts.globalTypes]
    exact hosts.admissible.admits
  · exact (SessionM.sparing_perform onFacts).keeps run rfl
  · have fit := made.proper.scoped_of_provides provides
    exact (Evaluation.callLocal_still_of_scoped fit remaining name index args).same run

end KnowledgeBase

/-! ## A list that consequences add to -/

namespace Journal

open Sensors (sensor reading asking ends_asking)

/-- A rule that adds a level to a list and then divides by it, for levels whose double is below
ten. -/
def built : Except (List Diagnostic) KnowledgeBase :=
  KnowledgeBase.build ⟨SortedMap.insert ∅ "app.Sensor" sensor⟩
    [{ name := "app"
       imports := [.type "app.Sensor" {}]
       globals := [{ name := "log", typeName := "List" }]
       functions :=
         [{ name := "double"
            params := [("x", "int")]
            returnType := "int"
            body := .binary .add (.name "x") (.name "x") }]
       rules :=
         [{ name := "note"
            conditions :=
              [.pattern
                { typeName := "Sensor"
                  binding := some "$s"
                  constraints :=
                    [.test (.binary .lt (.call "double" [.name "level"])
                      (.literal (.int 10)))] }]
            consequence :=
              [.eval (.method (.name "log") "add" [.field (.name "$s") "level"]),
                .eval (.binary .div (.literal (.int 100)) (.field (.name "$s") "level"))] }] }]

/-- The knowledge base of the rule. -/
def base : KnowledgeBase := built.toOption.getD default

private theorem made : base.Made := .built
    (eq_ok_getD (by decide +kernel : built.toOption.isSome = true))

/-- A new session. -/
def opened : SessionRun := { session := (base.newSession {}).toOption.getD default }

/-- A level has been noted before the consequence failed. -/
def noted : SessionRun :=
  asking (.fire none) (asking (.insert (reading 0)) (asking (.setGlobal "log" (.list [])) opened))

/-- What is restored from the snapshot of the session. -/
def restored : Except Error Session :=
  (noted.session.snapshot.toOption.getD default).restore base {}

/-- The restored session. -/
def revived : SessionRun := { session := restored.toOption.getD default }

private theorem restored_eq : restored = .ok (restored.toOption.getD default) :=
  eq_ok_getD (by decide +kernel)

private theorem revived_hosted : base.Hosts revived.session := by
  dsimp only [revived]
  exact .restored restored_eq

/-- The functions of the package. -/
def functions : FunctionTable :=
  ((base.packages.find? "app").map PackageScope.functions).getD default

private theorem provided : base.Provides functions := by
  obtain ⟨scope, found⟩ := Option.isSome_iff_exists.mp
    (by decide +kernel : (base.packages.find? "app").isSome = true)
  have package : functions.package = "app" := by decide +kernel
  refine ⟨scope, by rw [package]; exact found, ?_⟩
  rw [functions, found]
  rfl

/-- Where a consequence may write. -/
def writing : Evaluation := { catalog := base.catalog, functions, access := .readWrite }

/-- Where a condition is tested. -/
def testing : Evaluation := { catalog := base.catalog, functions, access := .readOnly }

/-- In the restored session, the list holds what was noted before the consequence failed. Having
conditions tested and calling the function leave it as it is. -/
theorem log_typed :
    base.Made ∧ base.Hosts revived.session ∧
    revived.session.memory.globals.find? "log" = some (.list [.int 0]) ∧
    (∃ declared, base.globals.find? "log" = some declared ∧
      declared.accepts (Value.list [.int 0]).type = true) ∧
    (asking (.insert (reading 1)) revived).session.memory.globals =
      revived.session.memory.globals ∧
    testing.access ≠ .readWrite ∧
    ((testing.eval {} [] (.updateGlobal "log" .clear [])).run.run
      revived.session.memory.globals).2 = revived.session.memory.globals ∧
    base.Provides writing.functions ∧
    ((writing.callLocal 1 "double" 0 [.int 4]).run.run revived.session.memory.globals).1.toOption =
      some (.int 8) ∧
    ((writing.callLocal 1 "double" 0 [.int 4]).run.run revived.session.memory.globals).2 =
      revived.session.memory.globals := by
  have isLog :
      revived.session.memory.globals.find? "log" = some (.list [.int 0]) := by decide +kernel
  have readOnly : testing.access ≠ .readWrite := by decide
  obtain ⟨typed, tests, reads, calls⟩ := made.globals_typed
  have afterTests := tests (ends_asking (.insert (reading 1)) revived) trivial
  have afterRead := reads readOnly {} [] (.updateGlobal "log" .clear [])
    (ends_run _ revived.session.memory.globals)
  have provides : base.Provides writing.functions := provided
  have afterCall := calls provides 1 "double" 0 [.int 4]
    (ends_run _ revived.session.memory.globals)
  exact ⟨made, revived_hosted, isLog, (typed revived_hosted).2 _ _ isLog, afterTests, readOnly,
    afterRead, provided, by decide +kernel, afterCall⟩

end Journal

end Rete
