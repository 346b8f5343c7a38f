import Rete.Proofs.Compile.Rule

/-!
# Renaming variables

An expression is compiled to the same in two scopes in which the names that it mentions stand for
the same, even if variables have other names in one of them (`Bindings.compile_rename`). So
conditions and statements do not depend on variables that they do not mention
(`RuleDraft.Agrees.foldl`, `Bindings.Agrees.compileConsequence`).
-/

namespace Rete

/-! ## Names in expressions -/

mutual

/-- The names in an expression that may stand for variables. -/
def Term.mentioned : Term → List String
  | .literal _ => []
  | .name var => [var]
  | .field target _ => target.mentioned
  | .call _ args => Term.mentionedIn args
  | .method target _ args => target.mentioned ++ Term.mentionedIn args
  | .construct _ args => Term.mentionedIn args
  | .binary _ left right => left.mentioned ++ right.mentioned
  | .unary _ operand => operand.mentioned

/-- The names in arguments that may stand for variables. -/
def Term.mentionedIn : List Term → List String
  | [] => []
  | arg :: args => arg.mentioned ++ Term.mentionedIn args

end

mutual

/-- The expression with other names for variables. -/
def Term.rename (naming : String → String) : Term → Term
  | .literal value => .literal value
  | .name var => .name (naming var)
  | .field target fieldName => .field (target.rename naming) fieldName
  | .call function args => .call function (Term.renameAll naming args)
  | .method target own args => .method (target.rename naming) own (Term.renameAll naming args)
  | .construct typeName args => .construct typeName (Term.renameAll naming args)
  | .binary op left right => .binary op (left.rename naming) (right.rename naming)
  | .unary op operand => .unary op (operand.rename naming)

/-- The arguments with other names for variables. -/
def Term.renameAll (naming : String → String) : List Term → List Term
  | [] => []
  | arg :: args => arg.rename naming :: Term.renameAll naming args

end

mutual

private theorem Term.rename_id : (term : Term) → term.rename id = term
  | .literal _ => by rw [rename]
  | .name _ => by rw [rename, id_eq]
  | .field target _ => by rw [rename, rename_id target]
  | .call _ args => by rw [rename, renameAll_id args]
  | .method target _ args => by rw [rename, rename_id target, renameAll_id args]
  | .construct _ args => by rw [rename, renameAll_id args]
  | .binary _ left right => by rw [rename, rename_id left, rename_id right]
  | .unary _ operand => by rw [rename, rename_id operand]

private theorem Term.renameAll_id : (args : List Term) → Term.renameAll id args = args
  | [] => rfl
  | arg :: args => by rw [renameAll, rename_id arg, renameAll_id args]

end

/-- A name mentions itself. -/
theorem Term.mem_mentioned_name (var : String) : var ∈ (Term.name var).mentioned := by
  rw [mentioned]
  exact List.mem_singleton_self var

private theorem Term.length_renameAll (naming : String → String) (args : List Term) :
    (Term.renameAll naming args).length = args.length := by
  induction args with
  | nil => rfl
  | cons arg args ih => rw [renameAll, List.length_cons, List.length_cons, ih]

/-! ## Expressions -/

namespace Bindings

/-- Another name stands in another scope for what a name stands for. Only variables have other
names. -/
structure Renames (naming : String → String) (bindings others : Bindings) (name : String) :
    Prop where
  same : others.vars.find? (naming name) = bindings.vars.find? name
  kept : bindings.vars.find? name = none → naming name = name

variable {table : SymbolTable} {naming : String → String} {bindings others : Bindings}

/-- A name that stands for a variable is bound. -/
theorem isBound_of_find? {name : String} {meaning : Variable}
    (found : bindings.vars.find? name = some meaning) : bindings.isBound name = true :=
  SortedMap.contains_eq_true.mpr ⟨meaning, found⟩

section

variable {name : String} (renames : bindings.Renames naming others name)
include renames

private theorem Renames.isBound : others.isBound (naming name) = bindings.isBound name := by
  unfold Bindings.isBound SortedMap.contains
  rw [renames.same]

variable (current : others.current = bindings.current)
include current

private theorem Renames.compileName :
    others.compileName table (naming name) = bindings.compileName table name := by
  unfold Bindings.compileName
  rw [renames.same]
  cases found : bindings.vars.find? name with
  | some meaning => cases meaning <;> rfl
  | none =>
      unfold currentField?
      rw [renames.kept found, current]

private theorem Renames.isValueName :
    others.isValueName table (naming name) = bindings.isValueName table name := by
  unfold Bindings.isValueName
  rw [renames.isBound]
  cases found : bindings.vars.find? name with
  | some meaning =>
      rw [isBound_of_find? found]
      rfl
  | none =>
      unfold currentField?
      rw [renames.kept found, current]

end

/-- A written type path contains no variable. -/
theorem typePath?_rename (current : others.current = bindings.current) : (term : Term) →
    (∀ name ∈ term.mentioned, bindings.Renames naming others name) →
    others.typePath? table (term.rename naming) = bindings.typePath? table term
  | .name var, each => by
      have here := each var (Term.mem_mentioned_name var)
      rw [Term.rename, typePath?, typePath?, here.isValueName current]
      cases found : bindings.vars.find? var with
      | none => rw [here.kept found]
      | some meaning =>
          unfold Bindings.isValueName
          rw [isBound_of_find? found]
          rfl
  | .field target name, each => by
      rw [Term.mentioned] at each
      rw [Term.rename, typePath?, typePath?, typePath?_rename current target each]
  | .literal _, _ | .call .., _ | .method .., _ | .construct .., _ | .binary .., _
  | .unary .., _ => by
      rw [Term.rename]
      rfl

private theorem globalUpdate?_rename (target : Term) (method : String)
    (each : ∀ name ∈ target.mentioned, bindings.Renames naming others name) :
    others.globalUpdate? table (target.rename naming) method =
      bindings.globalUpdate? table target method := by
  cases target with
  | name var =>
      have here := each var (Term.mem_mentioned_name var)
      rw [Term.rename, globalUpdate?, globalUpdate?, here.isBound]
      cases found : bindings.vars.find? var with
      | none => rw [here.kept found]
      | some meaning =>
          rw [isBound_of_find? found]
          cases ListUpdate.lookup? method <;> rfl
  | literal | field | call | method | construct | binary | unary => rw [Term.rename]; rfl

mutual

/-- An expression whose names are changed is compiled to what it was, in a scope where the other
names stand for the same. -/
theorem compile_rename (current : others.current = bindings.current)
    (update : others.mayUpdate = bindings.mayUpdate) : (term : Term) →
    (∀ name ∈ term.mentioned, bindings.Renames naming others name) →
    others.compile table (term.rename naming) = bindings.compile table term
  | .literal value, _ => by rw [Term.rename]; rfl
  | .name var, each => by
      have here := each var (Term.mem_mentioned_name var)
      rw [Term.rename, compile, compile, here.compileName current]
  | .field target name, each => by
      rw [Term.mentioned] at each
      rw [Term.rename, compile, compile, typePath?_rename current target each,
        compile_rename current update target each]
  | .call name args, each => by
      rw [Term.mentioned] at each
      rw [Term.rename, compile, compile, compileArgs_rename current update args each]
  | .method target name args, each => by
      rw [Term.mentioned, List.forall_mem_append] at each
      have checked (global : String) (type : ValueType) (change : ListUpdate) :
          others.checkGlobalUpdate global type change =
            bindings.checkGlobalUpdate global type change := by
        unfold checkGlobalUpdate
        rw [update]
      rw [Term.rename, compile, compile, typePath?_rename current target each.1,
        globalUpdate?_rename target name each.1, compile_rename current update target each.1,
        compileArgs_rename current update args each.2, Term.length_renameAll]
      simp only [checked]
  | .construct typeName args, each => by
      rw [Term.mentioned] at each
      rw [Term.rename, compile, compile, compileArgs_rename current update args each,
        Term.length_renameAll]
  | .binary op left right, each => by
      rw [Term.mentioned, List.forall_mem_append] at each
      rw [Term.rename, compile, compile, compile_rename current update left each.1,
        compile_rename current update right each.2]
  | .unary op operand, each => by
      rw [Term.mentioned] at each
      rw [Term.rename, compile, compile, compile_rename current update operand each]

private theorem compileArgs_rename (current : others.current = bindings.current)
    (update : others.mayUpdate = bindings.mayUpdate) : (args : List Term) →
    (∀ name ∈ Term.mentionedIn args, bindings.Renames naming others name) →
    others.compileArgs table (Term.renameAll naming args) = bindings.compileArgs table args
  | [], _ => by rw [Term.renameAll]; rfl
  | arg :: args, each => by
      rw [Term.mentionedIn, List.forall_mem_append] at each
      rw [Term.renameAll, compileArgs, compileArgs, compile_rename current update arg each.1,
        compileArgs_rename current update args each.2]

end

/-- A test that is renamed compiles to the same expression where the names stand for the same. -/
theorem compileCondition_rename (current : others.current = bindings.current)
    (update : others.mayUpdate = bindings.mayUpdate) (condition : Term)
    (each : ∀ name ∈ condition.mentioned, bindings.Renames naming others name) :
    others.compileCondition table (condition.rename naming) =
      bindings.compileCondition table condition := by
  rw [compileCondition, compileCondition, compile_rename current update condition each]

/-! ## Scopes that agree -/

/-- What a field binding makes of a name, by the pattern under test. -/
def fieldVariable (current : Option RecordType) (name field : String) :
    Except Diagnostic Variable :=
  match current with
  | none => .error (.fieldBindingOutside name)
  | some type =>
    match type.field? field with
    | none => .error (.unknownField type.fullName field)
    | some declared => .ok (.currentField declared.name declared.type)

/-- A field binding adds one variable to the scope. -/
theorem bindField_eq (bindings : Bindings) (name field : String) :
    bindings.bindField name field = (fieldVariable bindings.current name field).map fun meaning =>
      { bindings with vars := bindings.vars.insert name meaning } := by
  unfold bindField fieldVariable
  cases current : bindings.current with
  | none => rfl
  | some type => cases found : type.field? field <;> simp only [found] <;> rfl

/-- Two scopes are the same but for variables with names that are not shared. -/
structure Agrees (shared : String → Prop) (bindings others : Bindings) : Prop where
  vars {name : String} : shared name → others.vars.find? name = bindings.vars.find? name
  current : others.current = bindings.current
  mayUpdate : others.mayUpdate = bindings.mayUpdate
  frameSize : others.frameSize = bindings.frameSize

namespace Agrees

variable {shared : String → Prop} (agrees : bindings.Agrees shared others)
include agrees

private theorem renames {name : String} (isShared : shared name) :
    bindings.Renames id others name where
  same := agrees.vars isShared
  kept _ := rfl

/-- Where all names of a term are shared, it compiles alike in both scopes. -/
theorem compile (term : Term) (each : ∀ name ∈ term.mentioned, shared name) :
    others.compile table term = bindings.compile table term := by
  have renamed : others.compile table (term.rename id) = bindings.compile table term :=
    compile_rename agrees.current agrees.mayUpdate term fun name member =>
      agrees.renames (each name member)
  rwa [Term.rename_id] at renamed

private theorem compileCondition (condition : Term)
    (each : ∀ name ∈ condition.mentioned, shared name) :
    others.compileCondition table condition = bindings.compileCondition table condition := by
  rw [Bindings.compileCondition, Bindings.compileCondition, agrees.compile condition each]

/-- Scopes that agree still do when both bind a name to the same variable. -/
theorem insert (name : String) (meaning : Variable) :
    Agrees shared { bindings with vars := bindings.vars.insert name meaning }
      { others with vars := others.vars.insert name meaning } where
  vars {other} isShared := by
    rw [SortedMap.find?_insert_eq, SortedMap.find?_insert_eq, agrees.vars isShared]
  current := agrees.current
  mayUpdate := agrees.mayUpdate
  frameSize := agrees.frameSize

private theorem bindFact (name : String) (index : Nat) (type : RecordType) :
    (bindings.bindFact name index type).Agrees shared (others.bindFact name index type) :=
  agrees.insert name _

private theorem bindSlot (name : String) (type : ValueType) :
    (bindings.bindSlot name type).2.Agrees shared (others.bindSlot name type).2 := by
  unfold Bindings.bindSlot
  rw [agrees.frameSize]
  exact { agrees.insert name (.slot bindings.frameSize type) with frameSize := rfl }

private theorem enterPattern (type : RecordType) :
    (bindings.enterPattern type).Agrees shared (others.enterPattern type) :=
  { agrees with current := rfl }

private theorem leavePattern (index : Option Nat) :
    (bindings.leavePattern index).Agrees shared (others.leavePattern index) where
  vars {name} isShared := by
    unfold Bindings.leavePattern
    rw [SortedMap.find?_filterMap, SortedMap.find?_filterMap, agrees.vars isShared]
  current := rfl
  mayUpdate := agrees.mayUpdate
  frameSize := agrees.frameSize

end Agrees

end Bindings

/-! ## Conditions -/

/-- The names in a constraint that may stand for variables bound before. -/
def Constraint.mentioned : Constraint → List String
  | .bind _ _ => []
  | .test condition => condition.mentioned

/-- The names in the tests of a pattern. -/
def PatternDecl.mentioned (pattern : PatternDecl) : List String :=
  pattern.constraints.flatMap Constraint.mentioned

/-- The names in the tests of a condition. -/
def ConditionDecl.mentioned : ConditionDecl → List String
  | .pattern given | .absent given => given.mentioned
  | .eval condition => condition.mentioned

namespace RuleDraft

variable {table : SymbolTable} {shared : String → Prop}

/-- Two patterns are compiled to the same in scopes that agree. -/
structure PatternDraft.Agrees (shared : String → Prop) (draft other : PatternDraft) : Prop where
  bindings : draft.bindings.Agrees shared other.bindings
  alpha : other.alpha = draft.alpha
  beta : other.beta = draft.beta
  problems : other.problems = draft.problems

private theorem PatternDraft.Agrees.addConstraint {draft other : PatternDraft}
    (agrees : draft.Agrees shared other) (constraint : Constraint)
    (each : ∀ name ∈ constraint.mentioned, shared name) :
    (draft.addConstraint table constraint).Agrees shared
      (other.addConstraint table constraint) := by
  cases constraint with
  | bind var field =>
      have same : Bindings.fieldVariable other.bindings.current var field =
          Bindings.fieldVariable draft.bindings.current var field := by
        rw [agrees.bindings.current]
      unfold PatternDraft.addConstraint
      dsimp only
      rw [Bindings.bindField_eq, Bindings.bindField_eq, same]
      cases Bindings.fieldVariable draft.bindings.current var field with
      | ok meaning =>
          exact ⟨agrees.bindings.insert var meaning, agrees.alpha, agrees.beta, agrees.problems⟩
      | error problem =>
          exact ⟨agrees.bindings, agrees.alpha, agrees.beta,
            congrArg (· ++ [problem]) agrees.problems⟩
  | test condition =>
      unfold PatternDraft.addConstraint
      dsimp only
      rw [agrees.bindings.compileCondition condition each]
      cases draft.bindings.compileCondition table condition with
      | ok test =>
          dsimp only
          split
          · exact ⟨agrees.bindings, agrees.alpha, congrArg (· ++ [test]) agrees.beta,
              agrees.problems⟩
          · exact ⟨agrees.bindings, congrArg (· ++ [test]) agrees.alpha, agrees.beta,
              agrees.problems⟩
      | error problem =>
          exact ⟨agrees.bindings, agrees.alpha, agrees.beta,
            congrArg (· ++ [problem]) agrees.problems⟩

private theorem PatternDraft.Agrees.foldl {draft other : PatternDraft}
    (agrees : draft.Agrees shared other) (constraints : List Constraint)
    (each : ∀ name ∈ constraints.flatMap Constraint.mentioned, shared name) :
    (constraints.foldl (PatternDraft.addConstraint table) draft).Agrees shared
      (constraints.foldl (PatternDraft.addConstraint table) other) := by
  induction constraints generalizing draft other with
  | nil => exact agrees
  | cons constraint rest ih =>
      rw [List.flatMap_cons, List.forall_mem_append] at each
      exact ih (agrees.addConstraint constraint each.1) each.2

private theorem PatternDraft.Agrees.leave {draft other : PatternDraft}
    (agrees : draft.Agrees shared other)
    (binding : Option String) (index : Option Nat) (type : RecordType) :
    (draft.leave binding index type).Agrees shared (other.leave binding index type) := by
  have left := agrees.bindings.leavePattern index
  cases binding with
  | none => exact ⟨left, agrees.alpha, agrees.beta, agrees.problems⟩
  | some var =>
      cases index with
      | none =>
          exact ⟨left, agrees.alpha, agrees.beta,
            congrArg (· ++ [Diagnostic.boundInNegation var]) agrees.problems⟩
      | some index =>
          exact ⟨left.bindFact var index type, agrees.alpha, agrees.beta, agrees.problems⟩

/-- A pattern of a known type adds its bindings, and then a condition or its problems. -/
theorem addPattern_resolved (draft : RuleDraft) {pattern : PatternDecl} (negated : Bool)
    {type : TypeDef} (resolved : table.resolveType pattern.typeName = .ok type) :
    draft.addPattern table pattern negated =
      let outside := (draft.enter table type.toRecordType pattern.constraints).leave
        pattern.binding (draft.nextIndex negated) type.toRecordType
      if outside.problems.isEmpty then
        { draft with
          bindings := outside.bindings
          arity := if negated then draft.arity else draft.arity + 1
          conditions := draft.conditions ++ [.pattern
            { type := type.toRecordType, alpha := outside.alpha, beta := outside.beta, negated
              index := draft.nextIndex negated, span := pattern.span }] }
      else
        { draft with
          bindings := outside.bindings
          problems := draft.problems ++ outside.problems.map (·.withSpan pattern.span) } := by
  unfold addPattern
  rw [resolved]
  rfl

/-- Two rules are compiled to the same in scopes that agree. -/
structure Agrees (shared : String → Prop) (draft other : RuleDraft) : Prop where
  bindings : draft.bindings.Agrees shared other.bindings
  arity : other.arity = draft.arity
  conditions : other.conditions = draft.conditions
  problems : other.problems = draft.problems

private theorem Agrees.addPattern {draft other : RuleDraft} (agrees : draft.Agrees shared other)
    (pattern : PatternDecl) (negated : Bool) (each : ∀ name ∈ pattern.mentioned, shared name) :
    (draft.addPattern table pattern negated).Agrees shared
      (other.addPattern table pattern negated) := by
  cases resolved : table.resolveType pattern.typeName with
  | error problem =>
      unfold RuleDraft.addPattern
      rw [resolved]
      exact ⟨agrees.bindings, agrees.arity, agrees.conditions,
        congrArg (· ++ [problem.withSpan pattern.span]) agrees.problems⟩
  | ok type =>
      have index : other.nextIndex negated = draft.nextIndex negated := by
        unfold nextIndex
        rw [agrees.arity]
      have start : PatternDraft.Agrees shared
          { bindings := draft.bindings.enterPattern type.toRecordType }
          { bindings := other.bindings.enterPattern type.toRecordType } :=
        ⟨agrees.bindings.enterPattern _, rfl, rfl, rfl⟩
      have inside : (draft.enter table type.toRecordType pattern.constraints).Agrees shared
          (other.enter table type.toRecordType pattern.constraints) :=
        start.foldl pattern.constraints each
      have outside :=
        inside.leave pattern.binding (draft.nextIndex negated) type.toRecordType
      rw [addPattern_resolved draft negated resolved, addPattern_resolved other negated resolved]
      dsimp only
      rw [index, outside.problems, outside.alpha, outside.beta, agrees.arity, agrees.conditions,
        agrees.problems]
      split
      · exact ⟨outside.bindings, rfl, rfl, rfl⟩
      · exact ⟨outside.bindings, rfl, rfl, rfl⟩

private theorem Agrees.addCondition {draft other : RuleDraft} (agrees : draft.Agrees shared other)
    (condition : ConditionDecl) (each : ∀ name ∈ condition.mentioned, shared name) :
    (draft.addCondition table condition).Agrees shared (other.addCondition table condition) := by
  cases condition with
  | pattern given => exact agrees.addPattern given false each
  | absent given => exact agrees.addPattern given true each
  | eval condition =>
      unfold RuleDraft.addCondition
      dsimp only
      rw [agrees.bindings.compileCondition condition each, agrees.conditions, agrees.problems]
      cases draft.bindings.compileCondition table condition with
      | ok test => exact ⟨agrees.bindings, agrees.arity, rfl, rfl⟩
      | error problem => exact ⟨agrees.bindings, agrees.arity, rfl, rfl⟩

/-- Conditions do not depend on variables that they do not mention. -/
theorem Agrees.foldl {draft other : RuleDraft} (agrees : draft.Agrees shared other)
    (table : SymbolTable) (conditions : List ConditionDecl)
    (each : ∀ name ∈ conditions.flatMap ConditionDecl.mentioned, shared name) :
    (conditions.foldl (RuleDraft.addCondition table) draft).Agrees shared
      (conditions.foldl (RuleDraft.addCondition table) other) := by
  induction conditions generalizing draft other with
  | nil => exact agrees
  | cons condition rest ih =>
      rw [List.flatMap_cons, List.forall_mem_append] at each
      exact ih (agrees.addCondition condition each.1) each.2

end RuleDraft

/-! ## Statements -/

/-- The names in a statement that may stand for variables bound before. -/
def Statement.mentioned : Statement → List String
  | .eval e | .insert e => e.mentioned
  | .bind _ value | .setGlobal _ value => value.mentioned
  | .modify var assignments => var :: assignments.flatMap fun assignment => assignment.2.mentioned
  | .retract var => [var]
  | .halt => []

namespace Bindings.Agrees

variable {table : SymbolTable} {shared : String → Prop} {bindings others : Bindings}

private theorem factOf (agrees : bindings.Agrees shared others) {var : String}
    (isShared : shared var) :
    others.factOf var = bindings.factOf var := by
  unfold Bindings.factOf
  rw [agrees.vars isShared]

private theorem compileAssignments (agrees : bindings.Agrees shared others) (type : RecordType)
    (assignments : List (String × Term))
    (each : ∀ name ∈ assignments.flatMap fun assignment => assignment.2.mentioned, shared name) :
    others.compileAssignments table type assignments =
      bindings.compileAssignments table type assignments := by
  induction assignments with
  | nil => rfl
  | cons assignment rest ih =>
      rw [List.flatMap_cons, List.forall_mem_append] at each
      rw [Bindings.compileAssignments, Bindings.compileAssignments,
        agrees.compile assignment.2 each.1, ih each.2]

private theorem compilePlain (agrees : bindings.Agrees shared others) (statement : Statement)
    (each : ∀ name ∈ statement.mentioned, shared name) :
    others.compilePlain table statement = bindings.compilePlain table statement := by
  cases statement with
  | eval e | insert e => rw [Bindings.compilePlain, Bindings.compilePlain, agrees.compile e each]
  | bind name value =>
      rw [Bindings.compilePlain, Bindings.compilePlain, agrees.compile value each, agrees.frameSize]
  | modify var assignments =>
      obtain ⟨here, rest⟩ := List.forall_mem_cons.mp each
      rw [Bindings.compilePlain, Bindings.compilePlain, agrees.factOf here]
      simp only [agrees.compileAssignments _ assignments rest]
  | retract var =>
      rw [Bindings.compilePlain, Bindings.compilePlain,
        agrees.factOf (each var (List.mem_singleton_self var))]
  | setGlobal name value =>
      rw [Bindings.compilePlain, Bindings.compilePlain, agrees.compile value each]
  | halt => rfl

private theorem afterStatement (agrees : bindings.Agrees shared others) (statement : Statement)
    (each : ∀ name ∈ statement.mentioned, shared name) :
    (bindings.afterStatement table statement).Agrees shared
      (others.afterStatement table statement) := by
  cases statement with
  | bind name value =>
      unfold Bindings.afterStatement
      dsimp only
      rw [agrees.compile value each]
      exact agrees.bindSlot name _
  | eval | insert | modify | retract | setGlobal | halt => exact agrees

private theorem compileStatements (agrees : bindings.Agrees shared others) (table : SymbolTable)
    (statements : List Statement)
    (each : ∀ name ∈ statements.flatMap Statement.mentioned, shared name) :
    (Bindings.compileStatements table others statements).1 =
        (Bindings.compileStatements table bindings statements).1 ∧
      (Bindings.compileStatements table others statements).2.1 =
        (Bindings.compileStatements table bindings statements).2.1 ∧
      (Bindings.compileStatements table bindings statements).2.2.Agrees shared
        (Bindings.compileStatements table others statements).2.2 := by
  induction statements generalizing bindings others with
  | nil => exact ⟨rfl, rfl, agrees⟩
  | cons statement rest ih =>
      rw [List.flatMap_cons, List.forall_mem_append] at each
      obtain ⟨actions, problems, final⟩ := ih (agrees.afterStatement statement each.1) each.2
      unfold Bindings.compileStatements Bindings.compileStatement
      dsimp only
      rw [agrees.compilePlain statement each.1, actions, problems]
      cases bindings.compilePlain table statement with
      | ok action => exact ⟨rfl, rfl, final⟩
      | error problem => exact ⟨rfl, rfl, final⟩

/-- A consequence does not depend on variables that it does not mention. -/
theorem compileConsequence (agrees : bindings.Agrees shared others) (statements : List Statement)
    (each : ∀ name ∈ statements.flatMap Statement.mentioned, shared name) :
    (others.compileConsequence table statements).1 =
      (bindings.compileConsequence table statements).1 := by
  have updating : Bindings.Agrees shared { bindings with mayUpdate := true }
    { others with mayUpdate := true } := { agrees with mayUpdate := rfl }
  obtain ⟨actions, problems, final⟩ := updating.compileStatements table statements each
  unfold Bindings.compileConsequence
  dsimp only
  rw [actions, problems, final.frameSize]

end Bindings.Agrees

end Rete
