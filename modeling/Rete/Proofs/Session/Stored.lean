import Rete.Proofs.Session.Firings
import Rete.Proofs.Session.Naming
import Rete.Proofs.Session.Snapshots

/-!
# What all live facts have in common

A fact gets into a session by a request of the host or by an action of a consequence
(`Execution`), and stays as it is until it is replaced or retracted. So what the facts have that the
host gives and that actions store, all live facts have (`KnowledgeBase.ReachesWith.each`).
-/

namespace Rete

variable {holds : Object → Prop}

/-! ## Operations on facts -/

namespace Session

variable {session after : Session} {handle : Handle} {fact : Object} {failures : List Error}

/-- Every live fact has a property. -/
structure Each (holds : Object → Prop) (session : Session) : Prop where
  live : ∀ {handle fact}, session.memory.facts.find? handle = some fact → holds fact

namespace Each

variable (each : session.Each holds)

include each

/-- Following the network does not touch the facts. -/
theorem follows {step : Network → FactView → MatchM Unit} {result : Except Error Unit}
    (follows : session.Follows step result after) : after.Each holds := by
  obtain ⟨matching, rfl⟩ := follows.exists_eq
  exact ⟨each.live⟩

private theorem putting {memory : WorkingMemory} (facts : memory.facts = session.memory.facts)
    (has : holds fact) : (session.withMemory (memory.put handle fact)).Each holds := by
  refine ⟨fun {other found} isFound => ?_⟩
  replace isFound : (memory.facts.insert handle fact).find? other = some found := isFound
  rw [SortedMap.find?_insert_eq, facts] at isFound
  split at isFound
  · cases isFound
    exact has
  · exact each.live isFound

private theorem dropping (handle : Handle) : (session.dropping handle).Each holds := by
  refine ⟨fun {other found} isFound => ?_⟩
  replace isFound : (session.memory.facts.erase handle).find? other = some found := isFound
  rw [SortedMap.find?_erase_eq] at isFound
  split at isFound
  · cases isFound
  · exact each.live isFound

private theorem inserts (has : holds fact) {result : Except Error Handle}
    (inserts : session.Inserts fact result after failures) : after.Each holds := by
  have stored : (session.storing fact).Each holds := each.putting rfl has
  cases inserts with
  | refused => exact each
  | inserted alive typed follows => exact stored.follows follows
  | takenBack alive typed follows back => exact ((stored.follows follows).follows back).dropping _

private theorem updates (has : holds fact) {result : Except Error Unit}
    (updates : session.Updates handle fact result after failures) : after.Each holds := by
  cases updates with
  | refused => exact each
  | withdrawn alive live typed follows => exact each.follows follows
  | replaced alive live typed first second =>
      exact Each.follows (Each.putting (each.follows first) rfl has) second

private theorem retracts {result : Except Error Object}
    (retracts : session.Retracts handle result after failures) : after.Each holds := by
  cases retracts with
  | refused => exact each
  | retracted alive live follows => exact (each.follows follows).dropping _

end Each

end Session

namespace SessionM

/-- An operation that stores no fact without the property. -/
abbrev Storing {α : Type} (holds : Object → Prop) (operation : SessionM α) : Prop :=
  Keeping (fun session _ => session.Each holds) operation

private theorem storing_insert {fact : Object} (has : holds fact) : Storing holds
    (insert fact) where
  keeps run each := by
    obtain ⟨_, inserts, -⟩ := ends_insert run
    exact each.inserts has inserts

private theorem storing_updateFact {fact : Object} (has : holds fact) (handle : Handle) :
    Storing holds (updateFact handle fact) where
  keeps run each := by
    obtain ⟨_, updates, -⟩ := ends_updateFact run
    exact each.updates has updates

private theorem storing_retract (handle : Handle) : Storing holds (retract handle) where
  keeps run each := by
    obtain ⟨_, retracts, -⟩ := ends_retract run
    exact each.retracts retracts

/-- Evaluating stores no fact. -/
theorem storing_evaluate (functions : FunctionTable) (tuple : Tuple) (frame : List Value)
    (e : Expr) : Storing holds (evaluate functions tuple frame e) where
  keeps run each := by
    unfold evaluate at run
    rw [ends_session_bind] at run
    obtain ⟨-, rfl⟩ := (ends_lift _).mp run
    exact ⟨each.live⟩

private theorem storing_evaluateAssignments (functions : FunctionTable) (tuple : Tuple)
    (frame : List Value) (assignments : List (String × Expr)) :
    Storing holds (evaluateAssignments functions tuple frame assignments) := by
  induction assignments with
  | nil => exact .pure _
  | cons assignment rest ih =>
      exact (storing_evaluate functions tuple frame assignment.2).bind fun value =>
        ih.bind fun values => .pure _

private theorem storing_assignGlobal (name : String) (value : Value) :
    Storing holds (assignGlobal name value) := by
  refine Keeping.session.bind fun session => ?_
  split
  · exact .throw _
  · split
    · refine ⟨fun run each => ?_⟩
      obtain ⟨-, rfl⟩ := ends_update.mp run
      exact ⟨each.live⟩
    · exact .throw _

private theorem storing_setGlobal (name : String) (value : Value) :
    Storing holds (setGlobal name value) := by
  refine Keeping.bind (Keeping.session.bind fun session => ?_) fun _ =>
    storing_assignGlobal name value
  split
  · exact .throw _
  · exact .pure _

private theorem storing_dispose : Storing holds dispose := by
  refine Keeping.session.bind fun session => ?_
  split
  · refine ⟨fun run each => ?_⟩
    rw [ends_update_bind] at run
    obtain ⟨-, rfl⟩ := ends_notify.mp run
    exact ⟨fun found => by cases found⟩
  · exact .pure _

end SessionM

/-! ## Actions -/

/-- An action of a consequence that is about to be run. -/
structure Execution where
  rule : Rule
  tuple : Tuple
  frame : List Value
  action : Action
  run : SessionRun

namespace Execution

variable (execution : Execution)

/-- The value of an expression, where the action is run. -/
def evaluate (e : Expr) : SessionM Value :=
  SessionM.evaluate execution.rule.functions execution.tuple execution.frame e

/-- The values of assignments, where the action is run. -/
def evaluateAssignments (assignments : List (String × Expr)) : SessionM (List (String × Value)) :=
  SessionM.evaluateAssignments execution.rule.functions execution.tuple execution.frame assignments

/-- What the action stores as a fact has a property, if a fact that it replaces has it. -/
def Stores (holds : Object → Prop) : Prop :=
  match execution.action with
  | .insert e => ∀ {fact after},
      Ends (execution.evaluate e) execution.run (.ok (.ofObject fact)) after → holds fact
  | .modify index var assignments => ∀ {handle values current after},
      SessionM.handleAt execution.tuple index var = .ok handle →
      Ends (execution.evaluateAssignments assignments) execution.run (.ok values) after →
      after.session.memory.fact? handle = some current → holds current →
      holds (values.foldl (fun fact (field, value) => fact.set field value) current)
  | .eval _ | .bind .. | .retract .. | .setGlobal .. | .halt => True

/-- The action is run when its rule has been started on its match. -/
def After (start : SessionRun) : Prop :=
  ∃ done stored, done ++ [execution.action] <+: execution.rule.consequence.actions ∧
    SessionM.Ran execution.rule.functions execution.tuple
      (List.replicate execution.rule.consequence.frameSize .nil) start done stored execution.frame
      execution.run

variable {execution}

private theorem Stores.each_of_insert {e : Expr} (isAction : execution.action = .insert e)
    (stores : execution.Stores holds) (each : execution.run.session.Each holds)
    {result : Except Error (List Value)} {after : SessionRun}
    (run : Ends (SessionM.runAction execution.rule.functions execution.tuple execution.frame
      (.insert e)) execution.run result after) : after.session.Each holds := by
  unfold Stores at stores
  rw [isAction] at stores
  have evaluates : SessionM.Storing holds (execution.evaluate e) := SessionM.storing_evaluate ..
  rcases ends_bind.mp run with ⟨value, mid, evaluated, rest⟩ | ⟨_, failed, -⟩
  · have kept := evaluates.keeps evaluated each
    cases value with
    | object typeName fields =>
        have has : holds ⟨typeName, fields⟩ := stores evaluated
        have inserts := SessionM.storing_insert has
        exact (inserts.bind fun _ => .pure execution.frame).keeps rest kept
    | nil | bool | int | float | string | list =>
        obtain ⟨-, rfl⟩ := (ends_throw _).mp rest
        exact kept
  · exact evaluates.keeps failed each

private theorem Stores.each_of_modify {index : Nat} {var : String}
    {assignments : List (String × Expr)}
    (isAction : execution.action = .modify index var assignments)
    (stores : execution.Stores holds) (each : execution.run.session.Each holds)
    {result : Except Error (List Value)} {after : SessionRun}
    (run : Ends (SessionM.runAction execution.rule.functions execution.tuple execution.frame
      (.modify index var assignments)) execution.run result after) : after.session.Each holds := by
  unfold Stores at stores
  rw [isAction] at stores
  have evaluates : SessionM.Storing holds (execution.evaluateAssignments assignments) :=
    SessionM.storing_evaluateAssignments ..
  rcases ends_lift_bind.mp run with ⟨handle, bound, rest⟩ | ⟨_, -, -, rfl⟩
  · rcases ends_bind.mp rest with ⟨values, mid, evaluated, rest⟩ | ⟨_, failed, -⟩
    · have kept := evaluates.keeps evaluated each
      rw [SessionM.ends_session_bind] at rest
      cases live : mid.session.memory.fact? handle with
      | none =>
          simp only [live] at rest
          obtain ⟨-, rfl⟩ := (ends_throw _).mp rest
          exact kept
      | some current =>
          simp only [live] at rest
          have has := stores bound evaluated live (kept.live live)
          have updates := SessionM.storing_updateFact has handle
          exact (updates.bind fun _ => .pure execution.frame).keeps rest kept
    · exact evaluates.keeps failed each
  · exact each

/-- An action that stores no fact without the property leaves none without it. -/
theorem Stores.each (stores : execution.Stores holds) (each : execution.run.session.Each holds)
    {result : Except Error (List Value)} {after : SessionRun}
    (run : Ends (SessionM.runAction execution.rule.functions execution.tuple execution.frame
      execution.action) execution.run result after) : after.session.Each holds := by
  suffices storing : ∀ {action}, execution.action = action → after.session.Each holds from
    storing rfl
  intro action isAction
  rw [isAction] at run
  cases action with
  | eval e =>
      have evaluates : SessionM.Storing holds (execution.evaluate e) := SessionM.storing_evaluate ..
      exact (evaluates.bind fun _ => .pure execution.frame).keeps run each
  | bind slot e =>
      have evaluates : SessionM.Storing holds (execution.evaluate e) := SessionM.storing_evaluate ..
      rcases ends_bind.mp run with ⟨value, mid, evaluated, rest⟩ | ⟨_, failed, -⟩
      · have kept := evaluates.keeps evaluated each
        split at rest
        · obtain ⟨-, rfl⟩ := (ends_pure _).mp rest
          exact kept
        · obtain ⟨-, rfl⟩ := (ends_throw _).mp rest
          exact kept
      · exact evaluates.keeps failed each
  | insert e => exact stores.each_of_insert isAction each run
  | modify index var assignments => exact stores.each_of_modify isAction each run
  | retract index var =>
      rcases ends_lift_bind.mp run with ⟨handle, -, rest⟩ | ⟨_, -, -, rfl⟩
      · have retracts : SessionM.Storing holds (SessionM.retract handle) :=
          SessionM.storing_retract handle
        exact (retracts.bind fun _ => .pure execution.frame).keeps rest each
      · exact each
  | setGlobal name e =>
      have evaluates : SessionM.Storing holds (execution.evaluate e) := SessionM.storing_evaluate ..
      have assigns : ∀ value, SessionM.Storing holds (SessionM.assignGlobal name value) :=
        SessionM.storing_assignGlobal name
      exact (evaluates.bind fun value => (assigns value).bind fun _ =>
        .pure execution.frame).keeps run each
  | halt =>
      simp only [SessionM.runAction, SessionM.ends_update_bind] at run
      obtain ⟨-, rfl⟩ := (ends_pure _).mp run
      exact ⟨each.live⟩

end Execution

/-! ## Consequences -/

namespace SessionM

variable {functions : FunctionTable} {tuple : Tuple} {rule : Rule} {before after : SessionRun}

/-- If all actions that come up store no fact without the property, neither does the part of the
consequence that has been run. -/
theorem Ran.each {actions : List Action} {stored frame : List Value}
    (ran : Ran rule.functions tuple (List.replicate rule.consequence.frameSize .nil) before actions
      stored frame after)
    (within : actions <+: rule.consequence.actions)
    (stores : ∀ {execution : Execution}, execution.rule = rule → execution.tuple = tuple →
      execution.After before → execution.run.session.Each holds → execution.Stores holds)
    (each : before.session.Each holds) : after.session.Each holds := by
  induction ran with
  | none => exact each
  | @bind actions stored frame mid after slot e value ran inFrame evaluated ih =>
      have kept := ih ((List.prefix_append ..).trans within)
      exact (storing_evaluate ..).keeps evaluated kept
  | @other actions stored frame mid after action ran storesNothing run ih =>
      have kept := ih ((List.prefix_append ..).trans within)
      let execution : Execution := ⟨rule, tuple, frame, action, mid⟩
      have up : execution.After before := ⟨actions, stored, within, ran⟩
      exact (stores rfl rfl up kept).each kept run

/-- If all actions that come up store no fact without the property, neither does the consequence,
whether or not one of them fails. -/
theorem each_execute {result : Except Error Unit}
    (stores : ∀ {execution : Execution}, execution.rule = rule → execution.tuple = tuple →
      execution.After before → execution.run.session.Each holds → execution.Stores holds)
    (each : before.session.Each holds) (run : Ends (execute rule tuple) before result after) :
    after.session.Each holds := by
  unfold execute at run
  rw [← List.append_nil rule.consequence.actions] at run
  rcases ran_of_runActions _ run with ⟨stored, frame, mid, ran, rest⟩ | ⟨error, -, failed⟩
  · obtain ⟨-, rfl⟩ := (ends_pure _).mp rest
    exact ran.each (List.prefix_refl _) stores each
  · obtain ⟨done, action, stored, frame, mid, within, ran, run⟩ := failed
    have kept := ran.each ((List.prefix_append ..).trans within) stores each
    let execution : Execution := ⟨rule, tuple, frame, action, mid⟩
    have up : execution.After before := ⟨done, stored, within, ran⟩
    exact (stores rfl rfl up kept).each kept run

end SessionM

/-! ## Firing -/

/-- The action is run when the first waiting match fires. -/
def SessionRun.Executes (run : SessionRun) (execution : Execution) : Prop :=
  ∃ next agenda, run.session.agenda.pop? = some (next, agenda) ∧
    run.session.network.rule? next.rule = some execution.rule ∧
    execution.tuple = next.tuple ∧ execution.After (run.started agenda next execution.rule)

private theorem Fires.each {before after : SessionRun} {next : Activation} {rule : Rule}
    {outcome : Except Error Unit} (fires : Fires before next rule outcome after)
    (stores : ∀ {execution}, before.Executes execution → execution.run.session.Each holds →
      execution.Stores holds)
    (each : before.session.Each holds) : after.session.Each holds := by
  obtain ⟨agenda, last, popped, run, rfl⟩ := fires.runs
  have taken : (before.started agenda next rule).session.Each holds := ⟨each.live⟩
  have ran := SessionM.each_execute (fun {execution} isRule isTuple up => stores
    ⟨next, agenda, popped, isRule ▸ fires.isRule, isTuple, isRule ▸ up⟩) taken run
  exact ⟨ran.live⟩

private theorem Firings.each {start after : SessionRun} {count : Nat}
    (firings : Firings start count after)
    (stores : ∀ {earlier mid execution}, earlier < count → Firings start earlier mid →
      mid.session.halted = false → mid.Executes execution → execution.run.session.Each holds →
      execution.Stores holds)
    (each : start.session.Each holds) : after.session.Each holds := by
  induction firings with
  | none => exact each
  | more firings going fires ih =>
      have kept := ih fun earlier => stores (Nat.lt_succ_of_lt earlier)
      exact fires.each (stores (Nat.lt_succ_self _) firings going) kept

/-- The action is run while a request is carried out: after so many firings, the next match
fires. -/
inductive Request.Executes (before : SessionRun) : Request → Execution → Prop
  | fire {budget : Option Nat} {count : Nat} {mid : SessionRun} {execution : Execution}
      (alive : before.session.disposed = false) (firings : Firings before.unhalted count mid)
      (going : mid.session.halted = false) (within : count < budget.getD (Nat.pow 2 32))
      (allowed : ∀ limit ∈ before.session.config.maxActivations, count < limit)
      (executes : mid.Executes execution) : Executes before (.fire budget) execution

/-- The fact that the host gives with a request. -/
def Request.fact? : Request → Option Object
  | .insert fact | .update _ fact => some fact
  | .retract _ | .setGlobal .. | .fire _ | .dispose => none

private theorem Finished.each {start after : SessionRun} {bound : Nat} {result : Except Error Nat}
    (finished : Finished (some bound) start result after)
    (stores : ∀ {count mid execution}, Firings start count mid → mid.session.halted = false →
      count < bound → (∀ limit ∈ start.session.config.maxActivations, count < limit) →
      mid.Executes execution → execution.run.session.Each holds → execution.Stores holds)
    (each : start.session.Each holds) : after.session.Each holds := by
  cases finished with
  | stopped firings within allowed why =>
      refine firings.each (fun earlier before going => ?_) each
      exact stores before going (Nat.lt_of_lt_of_le earlier (within _ rfl)) fun limit member =>
        Nat.lt_of_lt_of_le earlier (allowed limit member)
  | limited firings isLimit within going first isRule =>
      refine firings.each (fun earlier before going => ?_) each
      refine stores before going (Nat.lt_trans earlier (within _ rfl)) fun limit member => ?_
      cases isLimit.symm.trans member
      exact earlier
  | failed firings going within allowed fires anew idle =>
      refine fires.each (stores firings going (within _ rfl) allowed) ?_
      refine firings.each (fun earlier before going => ?_) each
      exact stores before going (Nat.lt_trans earlier (within _ rfl)) fun limit member =>
        Nat.lt_trans earlier (allowed limit member)

/-- If the host gives no fact without the property, and actions store none, a request leaves
none. -/
theorem Session.Intact.each_perform {before after : SessionRun} (intact : before.session.Intact)
    {request : Request} {result : Except Error Answer}
    (gives : ∀ fact ∈ request.fact?, holds fact)
    (stores : ∀ {execution}, request.Executes before execution →
      execution.run.session.Each holds → execution.Stores holds)
    (each : before.session.Each holds)
    (run : Ends (SessionM.perform request) before result after) : after.session.Each holds := by
  cases request with
  | insert fact =>
      exact ((SessionM.storing_insert (gives fact rfl)).bind fun _ => .pure _).keeps run each
  | update handle fact =>
      have updates := SessionM.storing_updateFact (gives fact rfl) handle
      exact (updates.bind fun _ => .pure Answer.done).keeps run each
  | retract handle =>
      have retracts : SessionM.Storing holds (SessionM.retract handle) :=
        SessionM.storing_retract handle
      exact (retracts.bind fun _ => .pure _).keeps run each
  | setGlobal name value =>
      have sets : SessionM.Storing holds (SessionM.setGlobal name value) :=
        SessionM.storing_setGlobal ..
      exact (sets.bind fun _ => .pure Answer.done).keeps run each
  | fire budget =>
      have loop : ∀ {result last}, Ends (SessionM.fireRules budget) before result last →
          last.session.Each holds := by
        intro result last run
        cases alive : before.session.disposed with
        | true =>
            unfold SessionM.fireRules at run
            rw [SessionM.ends_ensureLive_bind, if_pos alive] at run
            exact run.2 ▸ each
        | false =>
            refine (intact.finished alive run).each ?_ ⟨each.live⟩
            exact fun firings going within allowed executes =>
              stores (.fire alive firings going within allowed executes)
      rcases ends_bind.mp run with ⟨count, mid, fired, rest⟩ | ⟨_, failed, -⟩
      · obtain ⟨-, rfl⟩ := (ends_pure _).mp rest
        exact loop fired
      · exact loop failed
  | dispose => exact (SessionM.storing_dispose.bind fun _ => .pure Answer.done).keeps run each

/-! ## Sessions -/

namespace KnowledgeBase

variable {base : KnowledgeBase} {config : SessionConfig} {session after : Session}

/-- A session of the knowledge base between requests. -/
structure Serving (base : KnowledgeBase) (session : Session) : Prop where
  intact : session.Intact
  admissible : session.Admissible
  idle : session.Idle
  retains : ∃ config, (base.unseededSession config).Retains session

namespace Serving

/-- A new session serves. -/
theorem new (sound : base.network.Sound) (made : base.newSession config = .ok session) :
    base.Serving session where
  intact := .new sound made
  admissible := .new made
  idle := .new made
  retains := by
    obtain ⟨matching, -, rfl⟩ := Session.follows_of_newSession made
    exact ⟨config, rfl, rfl, rfl, rfl⟩

variable (serving : base.Serving session)

include serving

/-- A serving session has the catalog of its knowledge base. -/
theorem catalog : session.catalog = base.catalog := by
  obtain ⟨config, retains⟩ := serving.retains
  exact retains.catalog

/-- A serving session has the network of its knowledge base. -/
theorem network : session.network = base.network := by
  obtain ⟨config, retains⟩ := serving.retains
  exact retains.network

private theorem globalTypes : session.globalTypes = base.globals := by
  obtain ⟨config, retains⟩ := serving.retains
  exact retains.globalTypes

/-- What the snapshot of the session is restored to has the same facts. -/
theorem restored {snapshot : Snapshot} (taken : session.snapshot = .ok snapshot)
    (restores : snapshot.restore base config = .ok after) :
    base.Serving after ∧ after.memory = session.memory := by
  obtain rfl := Session.eq_of_restore serving.intact serving.admissible serving.idle
    serving.catalog serving.network serving.globalTypes taken restores
  have intact := serving.intact.restored
  refine ⟨⟨⟨intact.sound, intact.matched, intact.below, intact.consistent⟩, ?_, serving.idle, ?_⟩,
    rfl⟩
  · exact ⟨serving.admissible.typed, serving.admissible.admits, serving.admissible.counted⟩
  · exact ⟨config, serving.catalog, serving.network, serving.globalTypes, rfl⟩

omit serving in
/-- Requests, also those that fail, lead from sessions between requests to such sessions. -/
theorem asked {before after : SessionRun} {request : Request} {result : Except Error Answer}
    (serving : base.Serving before.session)
    (run : Ends (SessionM.perform request) before result after) : base.Serving after.session := by
  have kept : Session.Kept fun session _ => session.Intact ∧ session.Admissible ∧
      ∃ config, (base.unseededSession config).Retains session :=
    ⟨fun ⟨intact, admissible, config, retains⟩ step =>
      ⟨intact.step step, admissible.step step, config, retains.trans step.retains⟩⟩
  obtain ⟨intact, admissible, retains⟩ := (SessionM.Kept.perform kept request).keeps run
    ⟨serving.intact, serving.admissible, serving.retains⟩
  exact ⟨intact, admissible, (SessionM.perform_resting request).keeps run serving.idle, retains⟩

end Serving

/-- The sessions of a knowledge base, when the host only gives facts of a kind and only actions of a
kind are run: new ones, what requests make of them, also those that fail, and what their snapshots
are restored to. -/
inductive ReachesWith (base : KnowledgeBase) (given : Object → Prop)
    (allowed : Execution → Prop) : Session → Prop
  | new {config : SessionConfig} {session : Session} (made : base.newSession config = .ok session) :
      ReachesWith base given allowed session
  | asked {before after : SessionRun} {request : Request} {result : Except Error Answer}
      (reaches : ReachesWith base given allowed before.session)
      (gives : ∀ fact ∈ request.fact?, given fact)
      (executes : ∀ {execution}, request.Executes before execution → allowed execution)
      (run : Ends (SessionM.perform request) before result after) :
      ReachesWith base given allowed after.session
  | restored {config : SessionConfig} {session after : Session} {snapshot : Snapshot}
      (reaches : ReachesWith base given allowed session)
      (taken : session.snapshot = .ok snapshot)
      (restores : snapshot.restore base config = .ok after) : ReachesWith base given allowed after

namespace ReachesWith

variable {allowed : Execution → Prop}

/-- Every session that is reached serves. -/
theorem serving {given : Object → Prop} (reaches : base.ReachesWith given allowed session)
    (sound : base.network.Sound) : base.Serving session := by
  induction reaches with
  | new made => exact .new sound made
  | asked _ _ _ run ih => exact ih.asked run
  | restored _ taken restores ih => exact (ih.restored taken restores).1

/-- What all facts have that the host gives and that actions store, all live facts have. -/
theorem each (reaches : base.ReachesWith holds allowed session) (sound : base.network.Sound)
    (stores : ∀ {execution : Execution} {id : RuleId},
      base.network.rule? id = some execution.rule →
      execution.action ∈ execution.rule.consequence.actions → allowed execution →
      execution.run.session.Each holds → execution.Stores holds) : session.Each holds := by
  induction reaches with
  | new made =>
      obtain ⟨matching, -, rfl⟩ := Session.follows_of_newSession made
      exact ⟨fun found => by cases found⟩
  | asked before gives executes run ih =>
      have serving := before.serving sound
      refine serving.intact.each_perform gives (fun {execution} isRun => ?_) ih run
      have isAllowed := executes isRun
      cases isRun with
      | fire alive firings going within allows isExecuted =>
          obtain ⟨next, agenda, popped, isRule, isTuple, done, stored, isPrefix, ran⟩ := isExecuted
          rw [firings.retains.network] at isRule
          refine stores (serving.network ▸ isRule) (isPrefix.subset ?_) isAllowed
          exact List.mem_append_right _ (List.mem_singleton_self _)
  | restored before taken restores ih =>
      have same := ((before.serving sound).restored taken restores).2
      exact ⟨fun found => ih.live (same ▸ found)⟩

end ReachesWith

end KnowledgeBase

end Rete
