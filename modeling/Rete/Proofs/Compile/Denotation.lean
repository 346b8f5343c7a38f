import Rete.Proofs.Compile.Names

/-!
# What names denote

Where an expression is written in a rule (`RuleDecl.Writes`), the names that are bound there
evaluate to what they were bound to last (`RuleDecl.denotes_of_compile`): to a fact of the match or
a field of it, as they are stored, or to the value that was stored for a variable. The compiled
expression has its place in the compiled rule (`RuleDecl.holds_of_compile`).
-/

namespace Rete

/-! ## Where expressions are written -/

/-- What is written at a place of a rule. -/
inductive Written where
  | test (place : Nat) (condition : Term)
  /-- A test in the pattern at a place. -/
  | constraint (place : Nat) (condition : Term)
  | action (index : Nat) (statement : Statement)

/-- What names mean at a place of a rule. -/
structure Point where
  /-- What the compiler knows of them. -/
  bindings : Bindings
  /-- What was bound up to there. -/
  names : Names
  /-- The number of facts matched up to there. -/
  facts : Nat
  /-- The place of the pattern that this is inside of. -/
  inside : Option Nat := none

/-- Something is written at a point of a rule. -/
inductive RuleDecl.Writes (declared : RuleDecl) (table : SymbolTable) : Written → Point → Prop
  | test {before after : List ConditionDecl} {condition : Term}
      (split : declared.conditions = before ++ .eval condition :: after) :
      Writes declared table (.test before.length condition)
        { bindings := (RuleDraft.of table before).bindings, names := (Named.of before).names
          facts := (Named.of before).facts }
  | constraint {before after : List ConditionDecl} {here : ConditionDecl} {pattern : PatternDecl}
      {negated : Bool} {type : TypeDef} {done rest : List Constraint} {condition : Term}
      (split : declared.conditions = before ++ here :: after)
      (isPattern : here.signed? = some (pattern, negated))
      (resolved : table.resolveType pattern.typeName = .ok type)
      (inner : pattern.constraints = done ++ .test condition :: rest) :
      Writes declared table (.constraint before.length condition)
        { bindings := ((RuleDraft.of table before).enter table type.toRecordType done).bindings
          names := Constraint.names before.length
            (if negated then none else some (Named.of before).facts) done ++ (Named.of before).names
          facts := (Named.of before).facts, inside := some before.length }
  | action {done rest : List Statement} {statement : Statement}
      (split : declared.consequence = done ++ statement :: rest) :
      Writes declared table (.action done.length statement)
        { bindings := Bindings.afterAll table
            { (RuleDraft.of table declared.conditions).bindings with mayUpdate := true } done
          names := Statement.names done ++ (Named.of declared.conditions).names
          facts := (Named.of declared.conditions).facts }

/-- A field that a negated pattern has bound is there inside the pattern only. -/
def Origin.Stays (inside : Option Nat) : Origin → Prop
  | .field place none _ => inside = some place
  | .fact _ | .field _ (some _) _ | .stored _ => True

/-- A fact that it was bound to is one of those matched so far. -/
def Origin.Reaches (inside : Option Nat) (facts : Nat) : Origin → Prop
  | .fact index => index < facts
  | .field place index _ => inside = some place ∨ ∀ i, index = some i → i < facts
  | .stored _ => True

/-- What a name that was bound so stands for: a fact of the match as it is stored, a field of it, or
the value that was stored for a variable. Inside its own pattern, a field is that of the fact under
test. -/
def Origin.Means (facts : Facts) (tuple : Tuple) (current : Option Object) (inside : Option Nat)
    (stored : List Value) : Origin → Value → Prop
  | .fact index, value => ∃ handle object, tuple[index]? = some handle ∧
      facts.find? handle = some object ∧ value = .ofObject object
  | .field place index name, value =>
      if inside = some place then ∃ object, current = some object ∧ value = object.fieldOrNil name
      else ∃ i handle object, index = some i ∧ tuple[i]? = some handle ∧
        facts.find? handle = some object ∧ value = object.fieldOrNil name
  | .stored index, value => stored[index]? = some value

/-- At the point, names are compiled to expressions that yield what they were bound to last. An
action on a fact takes the one that its name was bound to. -/
def Point.Denotes (point : Point) (table : SymbolTable) : Prop :=
  ∀ name origin, point.names.lookup name = some origin → origin.Stays point.inside →
    origin.Reaches point.inside point.facts ∧
    (∀ index, origin = .fact index → ∃ type, point.bindings.factOf name = .ok (index, type)) ∧
    ∃ e type, point.bindings.compile table (.name name) = .ok ⟨e, type⟩ ∧
      ∀ {evaluation : Evaluation} {tuple : Tuple} {scope : MatchScope} {frame stored : List Value}
        {value : Value}, (e.readsTuple = true → scope.tuple = tuple.take point.facts) →
        stored <+: frame →
        origin.Means evaluation.facts tuple scope.current point.inside stored value →
        ∀ globals, Ends (evaluation.eval scope frame e) globals (.ok value) globals

/-- What is written at a point has its place in the compiled rule. Tests that do not depend on the
facts matched before are told apart. -/
def Rule.Holds (rule : Rule) (table : SymbolTable) (point : Point) : Written → Prop
  | .test place condition => ∃ e, point.bindings.compileCondition table condition = .ok e ∧
      rule.conditions[place]? = some (.eval e) ∧
      point.facts = Condition.positives (rule.conditions.take place)
  | .constraint place condition => ∃ e pattern,
      point.bindings.compileCondition table condition = .ok e ∧
      rule.conditions[place]? = some (.pattern pattern) ∧
      (e ∈ pattern.alpha ∧ e.readsTuple = false ∨ e ∈ pattern.beta) ∧
      point.facts = Condition.positives (rule.conditions.take place)
  | .action index statement => ∃ action,
      point.bindings.compilePlain table statement = .ok action ∧
      rule.consequence.actions[index]? = some action ∧ point.facts = rule.arity

/-- The value of an expression that a name is compiled to. -/
theorem Origin.Means.evaluates {origin : Origin} {evaluation : Evaluation} {tuple : Tuple}
    {scope : MatchScope} {frame stored : List Value} {inside : Option Nat} {facts : Nat}
    {value : Value} {e : Expr} (isExpr : origin.expr? inside = some e)
    (reaches : origin.Reaches inside facts)
    (same : e.readsTuple = true → scope.tuple = tuple.take facts) (first : stored <+: frame)
    (means : origin.Means evaluation.facts tuple scope.current inside stored value)
    (globals : Globals) : Ends (evaluation.eval scope frame e) globals (.ok value) globals := by
  have fetched : ∀ {i handle object}, scope.tuple = tuple.take facts → i < facts →
      tuple[i]? = some handle → evaluation.facts.find? handle = some object →
      evaluation.tupleFact scope i = .ok object := by
    intro i handle object isTuple within isHandle isObject
    rw [Evaluation.tupleFact, isTuple, List.getElem?_take_of_lt within, isHandle]
    dsimp only
    rw [isObject]
  unfold Evaluation.eval
  cases origin with
  | fact i =>
      cases isExpr
      obtain ⟨handle, object, isHandle, isObject, rfl⟩ := means
      rw [Expr.evalWith, fetched (same rfl) reaches isHandle isObject]
      rfl
  | field place index name =>
      by_cases here : inside = some place
      · rw [Origin.expr?, if_pos here] at isExpr
        cases isExpr
        rw [Origin.Means, if_pos here] at means
        obtain ⟨object, isCurrent, rfl⟩ := means
        rw [Expr.evalWith, isCurrent]
        rfl
      · rw [Origin.expr?, if_neg here] at isExpr
        rw [Origin.Means, if_neg here] at means
        obtain ⟨i, handle, object, rfl, isHandle, isObject, rfl⟩ := means
        cases isExpr
        rw [Expr.evalWith, fetched (same rfl) ((reaches.resolve_left here) i rfl) isHandle isObject]
        rfl
  | stored i =>
      cases isExpr
      obtain ⟨rest, rfl⟩ := first
      have found : (stored ++ rest)[i]? = some value :=
        (List.getElem?_append_left (List.getElem?_eq_some_iff.mp means).1).trans means
      rw [Expr.evalWith, found]
      rfl

private theorem Origin.Stays.expr {origin : Origin} {inside : Option Nat}
    (stays : origin.Stays inside) :
    ∃ e, origin.expr? inside = some e := by
  cases origin with
  | fact i => exact ⟨_, rfl⟩
  | stored i => exact ⟨_, rfl⟩
  | field place index name =>
      by_cases here : inside = some place
      · exact ⟨_, if_pos here⟩
      · cases index with
        | none => exact absurd stays here
        | some i => exact ⟨_, if_neg here⟩

private theorem Origin.Below.reaches {origin : Origin} {place facts : Nat}
    (below : origin.Below place facts) (inside : Option Nat) :
    origin.Reaches inside facts := by
  cases origin with
  | fact => exact below
  | field => exact .inr below.2
  | stored => exact below.elim

/-- Names that stand for what they were bound to last evaluate to it. -/
theorem Point.denotes_of_stands {point : Point}
    (stands : point.bindings.Stands point.inside point.names)
    (reaches : ∀ entry ∈ point.names, entry.2.Reaches point.inside point.facts)
    (table : SymbolTable) : point.Denotes table := by
  intro name origin found stays
  have within := reaches _ (Names.mem_of_lookup found)
  obtain ⟨e, isExpr⟩ := stays.expr
  have same := stands name
  rw [found, Option.bind_some, isExpr] at same
  obtain ⟨meaning, isMeaning, rfl⟩ := Option.map_eq_some_iff.mp same
  obtain ⟨type, compiled⟩ := Bindings.compile_name isMeaning table
  refine ⟨within, ?_, meaning.expr, type, compiled, fun sameTuple first means =>
    means.evaluates isExpr within sameTuple first⟩
  rintro index rfl
  cases meaning <;> cases isExpr
  exact ⟨_, by rw [Bindings.factOf, isMeaning]⟩

namespace RuleDraft

variable {table : SymbolTable}

/-- A condition of a draft without problems adds none to the conditions before it. -/
theorem of_split {before after : List ConditionDecl} {here : ConditionDecl}
    (clean : (RuleDraft.of table (before ++ here :: after)).problems = []) :
    (RuleDraft.of table before).Mirrors before ∧
      ((RuleDraft.of table before).addCondition table here).problems = [] ∧
      ((RuleDraft.of table before).addCondition table here).conditions <+:
        (RuleDraft.of table (before ++ here :: after)).conditions := by
  rw [← List.singleton_append, ← List.append_assoc] at clean ⊢
  obtain ⟨noProblem, first⟩ := of_append clean
  rw [of_concat] at noProblem first
  exact ⟨mirrors_of before (of_append (of_append clean).1).1, noProblem, first⟩

/-- The condition that is next in the rule, behind those before it. -/
theorem Mirrors.next {draft : RuleDraft} {before : List ConditionDecl}
    (mirrors : draft.Mirrors before) {condition : Condition} {conditions : List Condition}
    (first : draft.conditions ++ [condition] <+: conditions) :
    conditions[before.length]? = some condition ∧
      (Named.of before).facts = Condition.positives (conditions.take before.length) := by
  obtain ⟨rest, rfl⟩ := first
  rw [← mirrors.length, List.append_assoc, List.take_left]
  exact ⟨by simp, mirrors.facts.trans mirrors.arity⟩

end RuleDraft

/-- Inside a pattern of a draft without problems. -/
theorem RuleDraft.Mirrors.inside {table : SymbolTable} {draft : RuleDraft}
    {before : List ConditionDecl} (mirrors : draft.Mirrors before) {pattern : PatternDecl}
    {negated : Bool} {type : TypeDef} {done rest : List Constraint} {condition : Term}
    (resolved : table.resolveType pattern.typeName = .ok type)
    (inner : pattern.constraints = done ++ .test condition :: rest)
    (clean : (draft.addPattern table pattern negated).problems = []) :
    (draft.enter table type.toRecordType done).problems = [] ∧ ∃ e compiled,
      (draft.enter table type.toRecordType done).bindings.compileCondition table condition = .ok e ∧
        (draft.addPattern table pattern negated).conditions =
          draft.conditions ++ [.pattern compiled] ∧
        (e ∈ compiled.alpha ∧ e.readsTuple = false ∨ e ∈ compiled.beta) := by
  obtain ⟨own, outside, isOwn, adds⟩ := addsPattern_of_clean clean
  obtain rfl : type = own := Except.ok.inj (resolved.symm.trans isOwn)
  obtain ⟨within, alpha, beta, -⟩ := leave_stands mirrors.tracks adds.isOutside adds.clean
  have rearranged : pattern.constraints = (done ++ [.test condition]) ++ rest := by
    rw [inner, List.append_assoc, List.singleton_append]
  rw [rearranged] at within alpha beta
  obtain ⟨throughTest, alphas, betas⟩ := enter_append within
  have next : draft.enter table type.toRecordType (done ++ [.test condition]) =
    (draft.enter table type.toRecordType done).addConstraint table (.test condition) :=
      List.foldl_concat ..
  rw [next] at throughTest alphas betas
  obtain ⟨before, -, -, -, e, compiled, member⟩ := PatternDraft.addConstraint_clean throughTest
  refine ⟨before, e, _, compiled, adds.conditions, member.imp (fun here => ⟨?_, here.2⟩) ?_⟩
  · exact alpha ▸ alphas here.1
  · exact fun here => beta ▸ betas here

section

variable {declared : RuleDecl} {table : SymbolTable} {functions : FunctionTable} {rule : Rule}
  {written : Written} {point : Point}

/-- At every point of a rule that compiles, a name evaluates to what it was bound to last. -/
theorem RuleDecl.denotes_of_compile (compiled : declared.compile table functions = .ok rule)
    (writes : declared.Writes table written point) : point.Denotes table := by
  have clean := (RuleDecl.drafted_of_compile compiled).clean
  cases writes with
  | test split =>
      rw [split] at clean
      have tracks := (RuleDraft.of_split clean).1.tracks
      refine Point.denotes_of_stands tracks.stands (fun entry member => ?_) table
      exact (tracks.below entry member).reaches none
  | @constraint before _ _ pattern negated type done _ _ split isPattern resolved inner =>
      rw [split] at clean
      obtain ⟨mirrors, noProblem, -⟩ := RuleDraft.of_split clean
      rw [RuleDraft.addCondition_of_signed isPattern] at noProblem
      have within := (mirrors.inside resolved inner noProblem).1
      have stands := (RuleDraft.enter_stands mirrors.tracks
        (if negated then none else some (Named.of before).facts) within).1
      rw [mirrors.place] at stands
      refine Point.denotes_of_stands ?_ (fun entry member => ?_) table
      · exact stands
      rcases List.mem_append.mp member with here | earlier
      · obtain ⟨name, isField⟩ := Constraint.eq_field_of_mem_names here
        rw [isField]
        exact .inl rfl
      · exact (mirrors.tracks.below entry earlier).reaches _
  | @action done _ _ split =>
      have tracks := (RuleDraft.mirrors_of declared.conditions clean).tracks
      have updating : Bindings.Stands
        { (RuleDraft.of table declared.conditions).bindings with mayUpdate := true } none
        (Named.of declared.conditions).names := tracks.stands
      refine Point.denotes_of_stands ?_ (fun entry member => ?_) table
      · exact updating.afterAll tracks.slots done
      rcases List.mem_append.mp member with here | earlier
      · obtain ⟨index, same, -⟩ := Statement.eq_stored_of_mem_names here
        rw [same]
        exact trivial
      · exact (tracks.below entry earlier).reaches none

/-- What is written at a point of a rule that compiles has its place in the compiled rule. -/
theorem RuleDecl.holds_of_compile (compiled : declared.compile table functions = .ok rule)
    (writes : declared.Writes table written point) : rule.Holds table point written := by
  have drafted := RuleDecl.drafted_of_compile compiled
  have clean := drafted.clean
  cases writes with
  | @test before _ condition split =>
      rw [split] at clean
      obtain ⟨mirrors, noProblem, first⟩ := RuleDraft.of_split clean
      obtain ⟨e, isTest, adds⟩ := RuleDraft.addCondition_eval noProblem
      rw [adds, ← split, ← drafted.conditions] at first
      exact ⟨e, isTest, mirrors.next first⟩
  | @constraint before _ _ pattern negated type done _ _ split isPattern resolved inner =>
      rw [split] at clean
      obtain ⟨mirrors, noProblem, first⟩ := RuleDraft.of_split clean
      rw [RuleDraft.addCondition_of_signed isPattern] at noProblem first
      obtain ⟨-, e, own, isTest, adds, member⟩ := mirrors.inside resolved inner noProblem
      rw [adds, ← split, ← drafted.conditions] at first
      obtain ⟨place, facts⟩ := mirrors.next first
      exact ⟨e, own, isTest, place, member, facts⟩
  | @action done rest statement split =>
      have mirrors := RuleDraft.mirrors_of declared.conditions clean
      obtain ⟨noProblem, actions⟩ := Bindings.actions_of_compileConsequence drafted.consequence
      rw [split] at noProblem actions
      obtain ⟨action, isAction, place⟩ := Bindings.action_of_split noProblem
      exact ⟨action, isAction, actions ▸ place, mirrors.facts.trans drafted.arity.symm⟩

/-- The actions of the statements before another store values in order, which are all that the names
refer to there. -/
theorem RuleDecl.slots_of_compile (compiled : declared.compile table functions = .ok rule)
    {index : Nat} {statement : Statement}
    (writes : declared.Writes table (.action index statement) point) :
    point.inside = none ∧
      ∃ count, (rule.consequence.actions.take index).filterMap Action.slot? = List.range count ∧
        ∀ name slot, point.names.lookup name = some (.stored slot) → slot < count := by
  have drafted := RuleDecl.drafted_of_compile compiled
  cases writes with
  | @action done rest _ split =>
      have tracks := (RuleDraft.mirrors_of declared.conditions drafted.clean).tracks
      obtain ⟨noProblem, actions⟩ := Bindings.actions_of_compileConsequence drafted.consequence
      rw [split] at noProblem actions
      obtain ⟨both, problems⟩ := Bindings.compileStatements_append table
        { (RuleDraft.of table declared.conditions).bindings with mayUpdate := true } done
        (statement :: rest)
      rw [problems, List.append_eq_nil_iff] at noProblem
      refine ⟨rfl, (Statement.names done).length, ?_, fun name slot found => ?_⟩
      · rw [actions, both, ← Bindings.length_compileStatements noProblem.1, List.take_left]
        have slots : Bindings.frameSize
          { (RuleDraft.of table declared.conditions).bindings with mayUpdate := true } = 0 :=
            tracks.slots
        exact Bindings.filterMap_slot? slots noProblem.1
      · rcases List.mem_append.mp (Names.mem_of_lookup found) with here | earlier
        · obtain ⟨index, same, within⟩ := Statement.eq_stored_of_mem_names here
          cases same
          exact within
        · exact (tracks.below _ earlier).elim

end

end Rete
