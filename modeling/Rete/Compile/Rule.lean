import Rete.Compile.Statement
import Rete.Rule

/-!
# Compiling rules

The conditions of a rule are compiled in order, each in the scope of the variables bound before
it. A test that reads facts matched earlier joins; all others look at one fact. Every problem of
a rule is reported.
-/

namespace Rete

/-- A rule while its conditions are being compiled. -/
structure RuleDraft where
  bindings : Bindings := {}
  /-- The number of facts matched so far. -/
  arity : Nat := 0
  conditions : List Condition := []
  problems : List Diagnostic := []

namespace RuleDraft

/-- A pattern while its constraints are being compiled. -/
structure PatternDraft where
  bindings : Bindings
  alpha : List Expr := []
  beta : List Expr := []
  problems : List Diagnostic := []

/-- Compiles one constraint of a pattern. -/
def PatternDraft.addConstraint (table : SymbolTable) (draft : PatternDraft) :
    Constraint → PatternDraft
  | .bind var field =>
    match draft.bindings.bindField var field with
    | .ok bindings => { draft with bindings }
    | .error problem => { draft with problems := draft.problems ++ [problem] }
  | .test condition =>
    match draft.bindings.compileCondition table condition with
    | .ok test =>
      if test.readsTuple then { draft with beta := draft.beta ++ [test] }
      else { draft with alpha := draft.alpha ++ [test] }
    | .error problem => { draft with problems := draft.problems ++ [problem] }

/-- Binds the variable of a pattern to the matched fact. -/
def PatternDraft.bindMatch (draft : PatternDraft) (binding : Option String) (index : Option Nat)
    (type : RecordType) : PatternDraft :=
  match binding, index with
  | some var, some index => { draft with bindings := draft.bindings.bindFact var index type }
  | some var, none => { draft with problems := draft.problems ++ [.boundInNegation var] }
  | none, _ => draft

/-- Compiles a pattern. Its bindings stay even if one of its constraints does not compile, so
that later conditions are judged on their own. -/
def addPattern (table : SymbolTable) (draft : RuleDraft) (pattern : PatternDecl)
    (negated : Bool) : RuleDraft :=
  match table.resolveType pattern.typeName with
  | .error problem => { draft with problems := draft.problems ++ [problem.withSpan pattern.span] }
  | .ok type =>
    let index := if negated then none else some draft.arity
    let inside := pattern.constraints.foldl (PatternDraft.addConstraint table)
      { bindings := draft.bindings.enterPattern type.toRecordType }
    let outside := PatternDraft.bindMatch
      { inside with bindings := inside.bindings.leavePattern index } pattern.binding index
      type.toRecordType
    let draft := { draft with bindings := outside.bindings }
    if outside.problems.isEmpty then
      { draft with
        arity := if negated then draft.arity else draft.arity + 1
        conditions := draft.conditions ++ [.pattern
          { type := type.toRecordType, alpha := outside.alpha, beta := outside.beta, negated, index,
            span := pattern.span }] }
    else
      { draft with
        problems := draft.problems ++ outside.problems.map (·.withSpan pattern.span) }

/-- Compiles a condition. -/
def addCondition (table : SymbolTable) (draft : RuleDraft) : ConditionDecl → RuleDraft
  | .pattern pattern => draft.addPattern table pattern false
  | .absent pattern => draft.addPattern table pattern true
  | .eval condition =>
    match draft.bindings.compileCondition table condition with
    | .ok test => { draft with conditions := draft.conditions ++ [.eval test] }
    | .error problem => { draft with problems := draft.problems ++ [problem] }

end RuleDraft

/-- Compiles a rule against the names and functions of its package. -/
def RuleDecl.compile (rule : RuleDecl) (table : SymbolTable) (functions : FunctionTable) :
    Except (List Diagnostic) Rule :=
  let package := table.package.text
  let draft := rule.conditions.foldl (RuleDraft.addCondition table) {}
  let fail (problems : List Diagnostic) : Except (List Diagnostic) Rule :=
    .error (problems.map fun problem =>
      ((problem.withPackage package).withRule rule.name).withSpan rule.span)
  match (draft.bindings.compileConsequence table rule.consequence).1 with
  | .error problems => fail (draft.problems ++ problems)
  | .ok consequence =>
    if draft.problems.isEmpty then
      .ok
        { package
          name := rule.name
          salience := rule.salience
          noLoop := rule.noLoop
          enabled := rule.enabled
          conditions := draft.conditions
          consequence
          functions
          arity := draft.arity
          span := rule.span }
    else fail draft.problems

end Rete
