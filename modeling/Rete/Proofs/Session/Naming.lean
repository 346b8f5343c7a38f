import Rete.Proofs.Compile.Denotation
import Rete.Proofs.Session.Containment

/-!
# Names in matches and consequences

The nodes of the conditions of a rule are offered the facts of a match that were matched by then
(`Structured.meets`), and when an action of a consequence is run, the statements before it have
stored the values of their variables in the frame in order (`SessionM.Ran.frame`). So a name denotes
what it was bound to last at every point of a rule, for every match
(`KnowledgeBase.Made.names_denote`).
-/

namespace Rete

open Matching

/-! ## The conditions of a match -/

namespace Session

/-- How a match meets a condition, behind the conditions before it: the node of the condition is
offered the facts that were matched before, and a fact that it adds stands on its right. -/
inductive Meets (session : Session) (functions : FunctionTable) (tuple : Tuple)
    (before : List Condition) : Condition → Prop
  | pattern {given : Pattern} {id right : NodeId} {left : Option NodeId} {own : FunctionTable}
      (realizes : session.network.Realizes functions left before)
      (alpha : session.network.CarriesTests functions given.type.fullName right given.alpha)
      (live : session.network.kind? id = some (.join left right given.beta given.negated own))
      (offered : (session.matched.leftTokens left).contains
        (tuple.take (Condition.positives before)) = true)
      (passed : (session.matched.tokensAt id).contains
        (tuple.take (Condition.positives (before ++ [.pattern given]))) = true)
      (fact : given.negated = false → ∃ handle, tuple[Condition.positives before]? = some handle ∧
        (session.matched.factsAt right).contains handle = true) :
      Meets session functions tuple before (.pattern given)
  | eval {test : Expr} {id : NodeId} {left : Option NodeId} {own : FunctionTable}
      (realizes : session.network.Realizes functions left before)
      (live : session.network.kind? id = some (.eval left test own))
      (offered : (session.matched.leftTokens left).contains
        (tuple.take (Condition.positives before)) = true)
      (passed : (session.matched.tokensAt id).contains
        (tuple.take (Condition.positives (before ++ [.eval test]))) = true) :
      Meets session functions tuple before (.eval test)

variable {session : Session}

/-- What a left input offers met all conditions that it stands for. -/
theorem Structured.meets (structured : session.Structured) {functions : FunctionTable}
    {left : Option NodeId} {conditions : List Condition}
    (realizes : session.network.Realizes functions left conditions) {tuple : Tuple}
    (enough : Condition.positives conditions ≤ tuple.length)
    (offered : (session.matched.leftTokens left).contains
      (tuple.take (Condition.positives conditions)) = true)
    {before : List Condition} {condition : Condition}
    (place : before ++ [condition] <+: conditions) :
    session.Meets functions tuple before condition := by
  -- The induction goes back from the last condition: what its node lets through it was offered.
  induction realizes with
  | root =>
      have same := List.prefix_nil.mp place
      cases List.append_ne_nil_of_right_ne_nil _ (List.cons_ne_nil _ _) same
  | @pattern id right left conditions given own earlier alpha live scope ih =>
      have passed := offered
      rw [Condition.positives_concat_pattern] at enough offered
      change (session.matched.tokensAt id).contains _ = true at offered
      obtain ⟨within, first, fact⟩ : Condition.positives conditions ≤ tuple.length ∧
          (session.matched.leftTokens left).contains
            (tuple.take (Condition.positives conditions)) = true ∧
          (given.negated = false → ∃ handle,
            tuple[Condition.positives conditions]? = some handle ∧
              (session.matched.factsAt right).contains handle = true) := by
        cases negated : given.negated with
        | true =>
            rw [negated] at live
            rw [negated, if_pos rfl] at enough offered
            exact ⟨enough, structured.negated live offered, nofun⟩
        | false =>
            rw [negated] at live
            simp only [negated, Bool.false_eq_true, ↓reduceIte] at enough offered
            obtain ⟨origin, handle, same, origins, stands⟩ := structured.joined live offered
            rw [List.take_succ_eq_append_getElem enough] at same
            obtain ⟨rfl, last⟩ := List.append_inj' same rfl
            obtain rfl := List.singleton_inj.mp last
            exact ⟨Nat.le_of_succ_le enough, origins,
              fun _ => ⟨_, List.getElem?_eq_getElem enough, stands⟩⟩
      rcases List.prefix_concat_iff.mp place with whole | inner
      · obtain ⟨rfl, last⟩ := List.append_inj' whole rfl
        obtain rfl := List.singleton_inj.mp last
        exact .pattern earlier alpha live first passed fact
      · exact ih within first inner
  | @eval id left conditions test own earlier live scope ih =>
      have passed := offered
      rw [Condition.positives_concat_eval] at enough offered
      change (session.matched.tokensAt id).contains _ = true at offered
      have first := structured.eval live offered
      rcases List.prefix_concat_iff.mp place with whole | inner
      · obtain ⟨rfl, last⟩ := List.append_inj' whole rfl
        obtain rfl := List.singleton_inj.mp last
        exact .eval earlier live first passed
      · exact ih enough first inner

/-- A match has as many facts as its rule matches, all live, and meets all conditions of the rule.
-/
theorem Intact.match_meets (intact : session.Intact) {id : RuleId} {rule : Rule} {tuple : Tuple}
    (isRule : session.network.rule? id = some rule)
    (known : session.agenda.knows ⟨id, tuple⟩ = true) :
    tuple.length = Condition.positives rule.conditions ∧
      (∀ handle ∈ tuple, session.memory.contains handle = true) ∧
      ∀ {before condition}, before ++ [condition] <+: rule.conditions →
        session.Meets rule.functions tuple before condition := by
  obtain ⟨entry, left, isEntry, -, realizes, offered⟩ := intact.offered known
  rw [Network.rule?, isEntry] at isRule
  obtain rfl : entry.rule = rule := Option.some.inj isRule
  have length := intact.matched.coherent.length realizes.arity offered
  have whole : tuple.take (Condition.positives entry.rule.conditions) = tuple :=
    List.take_of_length_le (Nat.le_of_eq length)
  refine ⟨length, fun handle => intact.live_of_knows known, fun {before condition} place => ?_⟩
  apply intact.structured.meets realizes (Nat.le_of_eq length.symm) _ place
  rw [whole]
  exact contains_leftTokens.mpr offered

end Session

/-! ## The actions of a consequence -/

namespace SessionM

/-- Actions have been run one after the other, from a frame. What they stored is listed in order. -/
inductive Ran (functions : FunctionTable) (tuple : Tuple) (start : List Value)
    (before : SessionRun) : List Action → List Value → List Value → SessionRun → Prop
  | none : Ran functions tuple start before [] [] start before
  | bind {actions : List Action} {stored frame : List Value} {mid after : SessionRun} {slot : Nat}
      {e : Expr} {value : Value} (ran : Ran functions tuple start before actions stored frame mid)
      (within : slot < frame.length)
      (evaluated : Ends (evaluate functions tuple frame e) mid (.ok value) after) :
      Ran functions tuple start before (actions ++ [.bind slot e]) (stored ++ [value])
        (frame.set slot value) after
  | other {actions : List Action} {stored frame : List Value} {mid after : SessionRun}
      {action : Action} (ran : Ran functions tuple start before actions stored frame mid)
      (storesNothing : action.slot? = .none)
      (run : Ends (runAction functions tuple frame action) mid (.ok frame) after) :
      Ran functions tuple start before (actions ++ [action]) stored frame after

section

variable {functions : FunctionTable} {tuple : Tuple} {start : List Value} {before : SessionRun}

/-- When no action has been run, nothing has happened. -/
theorem Ran.eq_of_nil {stored frame : List Value} {after : SessionRun}
    (ran : Ran functions tuple start before [] stored frame after) : after = before := by
  generalize none : [] = actions at ran
  cases ran with
  | none => rfl
  | bind | other => cases List.append_ne_nil_of_right_ne_nil _ (List.cons_ne_nil _ _) none.symm

/-- One of the actions fails, after those before it have been run. -/
def FailsAmong (functions : FunctionTable) (tuple : Tuple) (start : List Value)
    (before : SessionRun) (actions : List Action) (error : Error) (after : SessionRun) : Prop :=
  ∃ done action stored frame mid, done ++ [action] <+: actions ∧
    Ran functions tuple start before done stored frame mid ∧
    Ends (runAction functions tuple frame action) mid (.error error) after

/-- One more action. -/
theorem Ran.concat {actions : List Action} {stored frame next : List Value}
    {mid after : SessionRun} (ran : Ran functions tuple start before actions stored frame mid)
    {action : Action} (run : Ends (runAction functions tuple frame action) mid (.ok next) after) :
    ∃ more, Ran functions tuple start before (actions ++ [action]) more next after := by
  have same := frame_of_runAction run
  cases action with
  | bind slot e =>
      obtain ⟨value, evaluated, within, rfl⟩ := same
      exact ⟨stored ++ [value], ran.bind within evaluated⟩
  | eval | insert | modify | retract | setGlobal | halt =>
      have kept : next = frame := same
      rw [kept] at run ⊢
      exact ⟨stored, ran.other rfl run⟩

/-- Actions that come first have been run before the others are, unless one of them fails. -/
theorem ran_of_runActions (first : List Action) {rest : List Action} {result : Except Error Unit}
    {after : SessionRun}
    (run : Ends (runActions functions tuple start (first ++ rest)) before result after) :
    (∃ stored frame mid, Ran functions tuple start before first stored frame mid ∧
        Ends (runActions functions tuple frame rest) mid result after) ∨
      ∃ error, result = .error error ∧
        FailsAmong functions tuple start before first error after := by
  induction first using List.reverseRecOn generalizing rest with
  | nil => exact .inl ⟨[], start, before, .none, run⟩
  | append_singleton first last ih =>
      rw [List.append_assoc, List.singleton_append] at run
      rcases ih run with ⟨stored, frame, mid, ran, run⟩ | ⟨error, failed, earlier⟩
      · rcases ends_bind.mp run with ⟨next, later, one, others⟩ | ⟨error, one, failed⟩
        · obtain ⟨more, ran⟩ := ran.concat one
          exact .inl ⟨more, next, later, ran, others⟩
        · exact .inr ⟨error, failed, first, last, stored, frame, mid, List.prefix_refl _, ran, one⟩
      · obtain ⟨done, action, stored, frame, mid, place, ran, one⟩ := earlier
        exact .inr ⟨error, failed, done, action, stored, frame, mid,
          place.trans (List.prefix_append _ _), ran, one⟩

/-- What was stored comes first in the frame, where the slots are used in order. -/
theorem Ran.frame {actions : List Action} {stored frame : List Value} {after : SessionRun}
    (ran : Ran functions tuple start before actions stored frame after) {count : Nat}
    (slots : actions.filterMap Action.slot? = List.range count) :
    stored.length = count ∧ stored <+: frame := by
  induction ran generalizing count with
  | none =>
      have same := congrArg List.length slots
      rw [List.length_range] at same
      exact ⟨same, List.nil_prefix⟩
  | @bind actions stored frame _ _ slot _ value _ within _ ih =>
      rw [List.filterMap_append] at slots
      change _ ++ [slot] = _ at slots
      cases count with
      | zero => cases List.append_ne_nil_of_right_ne_nil _ (List.cons_ne_nil _ _) slots
      | succ count =>
          rw [List.range_succ] at slots
          obtain ⟨earlier, last⟩ := List.append_inj' slots rfl
          obtain rfl : slot = count := List.singleton_inj.mp last
          obtain ⟨rfl, rest, rfl⟩ := ih earlier
          cases rest with
          | nil => exact absurd within (by simp)
          | cons old rest =>
              refine ⟨List.length_append, rest, ?_⟩
              simp
  | @other actions stored frame _ _ action _ storesNothing _ ih =>
      rw [List.filterMap_append, List.filterMap_cons, storesNothing, List.filterMap_nil,
        List.append_nil] at slots
      exact ih slots

end

end SessionM

/-! ## Every match -/

/-- At the point of a consequence, names yield what they were bound to last: a fact of the match or
a field of it as they are stored by then, or one of the values stored for the variables so far. -/
def Point.Yields (point : Point) (table : SymbolTable) (functions : FunctionTable) (tuple : Tuple)
    (stored frame : List Value) (run : SessionRun) : Prop :=
  ∀ name origin, point.names.lookup name = some origin → origin.Stays none →
    (∀ index, origin = .stored index → index < stored.length) ∧
    ∃ e type, point.bindings.compile table (.name name) = .ok ⟨e, type⟩ ∧
      ∀ value, origin.Means run.session.memory.facts tuple none none stored value →
        Ends (SessionM.evaluate functions tuple frame e) run (.ok value) run

/-- An expression that leaves the globals alone leaves the session alone. -/
theorem SessionM.ends_evaluate {functions : FunctionTable} {tuple : Tuple} {frame : List Value}
    {e : Expr} {run : SessionRun} {value : Value}
    (each : ∀ evaluation : Evaluation, evaluation.facts = run.session.memory.facts →
      ∀ globals, Ends (evaluation.eval { tuple } frame e) globals (.ok value) globals) :
    Ends (evaluate functions tuple frame e) run (.ok value) run := by
  let evaluation : Evaluation :=
    { catalog := run.session.catalog, functions, callDepth := run.session.config.maxCallDepth
      facts := run.session.memory.facts, access := .readWrite }
  have one : ExceptT.run (evaluation.eval { tuple } frame e) run.session.memory.globals =
    (.ok value, run.session.memory.globals) := each evaluation rfl run.session.memory.globals
  let leaving (globals : Globals) : SessionRun :=
    { run with session := { run.session with memory := { run.session.memory with globals } } }
  unfold evaluate
  rw [ends_session_bind]
  refine (ends_lift _).mpr ⟨congrArg Prod.fst one.symm, ?_⟩
  exact congrArg (fun outcome => leaving outcome.2) one.symm

/-- At an action of a consequence that compiles, when the actions before it have been run. -/
theorem RuleDecl.yields_of_compile {declared : RuleDecl} {table : SymbolTable}
    {functions : FunctionTable} {rule : Rule}
    (compiled : declared.compile table functions = .ok rule) {index : Nat} {statement : Statement}
    {point : Point} (writes : declared.Writes table (.action index statement) point)
    {tuple : Tuple} (length : tuple.length = rule.arity) {start stored frame : List Value}
    {before mid : SessionRun} (ran : SessionM.Ran rule.functions tuple start before
      (rule.consequence.actions.take index) stored frame mid) :
    point.Yields table rule.functions tuple stored frame mid := by
  obtain ⟨action, -, -, facts⟩ := RuleDecl.holds_of_compile compiled writes
  obtain ⟨outside, count, slots, below⟩ := RuleDecl.slots_of_compile compiled writes
  obtain ⟨isCount, first⟩ := ran.frame slots
  intro name origin found stays
  obtain ⟨-, -, e, type, isExpr, evaluates⟩ :=
    RuleDecl.denotes_of_compile compiled writes name origin found (outside ▸ stays)
  refine ⟨?_, e, type, isExpr, fun value means => SessionM.ends_evaluate ?_⟩
  · rintro slot rfl
    exact isCount ▸ below name slot found
  · intro evaluation sameFacts globals
    have whole : tuple = tuple.take point.facts := by
      rw [facts, ← length, List.take_length]
    refine evaluates (fun _ => whole) first ?_ globals
    rw [sameFacts, outside]
    exact means

namespace KnowledgeBase

variable {base : KnowledgeBase}

/-- Names denote what they were bound to last, at every point of a rule that compiles: in a
condition, where the facts matched before it are those that its node is offered on the way to a
match, and in a consequence, where the statements before have stored the values of their variables.
-/
theorem Made.names_denote (made : base.Made) {declared : RuleDecl} {table : SymbolTable}
    {functions : FunctionTable} {rule : Rule}
    (compiled : declared.compile table functions = .ok rule) :
    (∀ {written point}, declared.Writes table written point →
      point.Denotes table ∧ rule.Holds table point written) ∧
    ∀ {config : SessionConfig} {session : Session}, base.Visits config session →
      ∀ {id : RuleId} {tuple : Tuple}, session.network.rule? id = some rule →
        session.agenda.knows ⟨id, tuple⟩ = true →
          tuple.length = rule.arity ∧
          (∀ handle ∈ tuple, session.memory.contains handle = true) ∧
          (∀ {before condition}, before ++ [condition] <+: rule.conditions →
            session.Meets rule.functions tuple before condition) ∧
          ∀ {before after : SessionRun} {result : Except Error Unit},
            Ends (SessionM.execute rule tuple) before result after →
            ∀ {index statement point}, declared.Writes table (.action index statement) point →
              let start := List.replicate rule.consequence.frameSize Value.nil
              let done := rule.consequence.actions.take index
              (∃ error, result = .error error ∧
                SessionM.FailsAmong rule.functions tuple start before done error after) ∨
              ∃ stored frame mid,
                SessionM.Ran rule.functions tuple start before done stored frame mid ∧
                Ends (SessionM.runActions rule.functions tuple frame
                  (rule.consequence.actions.drop index)) mid result after ∧
                point.Yields table rule.functions tuple stored frame mid := by
  refine ⟨fun {written point} writes => ⟨RuleDecl.denotes_of_compile compiled writes,
    RuleDecl.holds_of_compile compiled writes⟩, ?_⟩
  intro config session visits id tuple isRule known
  have intact := visits.intact made.proper.network.sound
  obtain ⟨count, live, meets⟩ := intact.match_meets isRule known
  have length : tuple.length = rule.arity := by
    have drafted := RuleDecl.drafted_of_compile compiled
    rw [count, drafted.arity, drafted.conditions]
    exact (RuleDraft.mirrors_of declared.conditions drafted.clean).arity.symm
  refine ⟨length, live, meets, ?_⟩
  intro before after result run index statement point writes
  have split := List.take_append_drop index rule.consequence.actions
  unfold SessionM.execute at run
  rw [← split] at run
  rcases SessionM.ran_of_runActions _ run with ⟨stored, frame, mid, ran, others⟩ | failed
  · exact .inr ⟨stored, frame, mid, ran, others,
      RuleDecl.yields_of_compile compiled writes length ran⟩
  · exact .inl failed

end KnowledgeBase

/-! ## A gauge whose level is inverted -/

namespace Gauges

/-- What the rule is compiled against. -/
def scope : PackageScope := (base.packages.find? "app").getD default

/-- The rule as it is written. -/
def inverted : RuleDecl := rules.headD default

/-- The rule. -/
def rule : Rule := (inverted.compile scope.table scope.functions).toOption.getD default

private theorem rule_eq : inverted.compile scope.table scope.functions = .ok rule :=
  eq_ok_getD (by decide +kernel :
    (inverted.compile scope.table scope.functions).toOption.isSome = true)

/-- A gauge at a level that has an inverse. -/
def matching : SessionRun :=
  ((SessionM.perform (.insert ⟨"app.Gauge", [("level", .int 8)]⟩)).run.run opened).2

/-- When the gauge is to be modified, the level is that of the gauge that was matched first, and the
inverse is what was stored for it. -/
theorem inverse_denotes : base.Made ∧ inverted.compile scope.table scope.functions = .ok rule ∧
    base.Visits {} matching.session ∧ matching.session.network.rule? 0 = some rule ∧
    matching.session.agenda.knows ⟨0, [1]⟩ = true ∧ ∃ after,
      Ends (SessionM.execute rule [1]) matching (.ok ()) after ∧
      ∃ statement point, inverted.Writes scope.table (.action 1 statement) point ∧
        point.names.lookup "$level" = some (.field 0 (some 0) "level") ∧
        point.names.lookup "$inverse" = some (.stored 0) ∧
        ∃ stored frame mid, SessionM.Ran rule.functions [1] [.nil] matching
            (rule.consequence.actions.take 1) stored frame mid ∧
          point.Yields scope.table rule.functions [1] stored frame mid := by
  have made : base.Made := .built built_eq
  have inserts : Ends (SessionM.perform (.insert ⟨"app.Gauge", [("level", .int 8)]⟩)) opened _
    matching := ends_run _ _
  have visits : base.Visits {} matching.session :=
    KnowledgeBase.Visits.perform (.new opened_eq) inserts
  have isRule : matching.session.network.rule? 0 = some rule := by decide +kernel
  have known : matching.session.agenda.knows ⟨0, [1]⟩ = true := by decide +kernel
  obtain ⟨result, after, run⟩ :
      ∃ result after, Ends (SessionM.execute rule [1]) matching result after :=
    ⟨_, _, ends_run _ _⟩
  have isOk : result.toOption.isSome = true := by
    rw [(run.unique (ends_run _ _)).1]
    decide +kernel
  cases result with
  | error => cases isOk
  | ok value =>
      have writes := @RuleDecl.Writes.action inverted scope.table
        [.bind "$inverse" (.method (.name "Gauge") "invert" [.name "$level"])] []
        (.modify "$g" [("level", .name "$inverse")]) rfl
      obtain ⟨-, each⟩ := KnowledgeBase.Made.names_denote made rule_eq
      obtain ⟨-, -, -, consequence⟩ := each visits isRule known
      rcases consequence run writes with ⟨error, failed, -⟩ | ⟨stored, frame, mid, ran, -, yields⟩
      · cases failed
      · exact ⟨made, rule_eq, visits, isRule, known, after, run, _, _, writes, rfl, rfl, stored,
          frame, mid, ran, yields⟩

end Gauges

end Rete
