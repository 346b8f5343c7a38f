import Rete.Declaration
import Rete.Expr

/-!
# Compiled rules

A rule whose names are resolved: its conditions are split into tests of one fact and tests that
join a fact with the facts matched before it, and its consequence is a list of actions.
-/

namespace Rete

/-- The identity of a rule in a network. -/
abbrev RuleId : Type := Nat

/-- The name of the rule's number in outputs. -/
def RuleId.text (rule : RuleId) : String := "r" ++ toString rule

/-- The facts that a rule matched, in the order of its patterns. -/
abbrev Tuple : Type := List Handle

/-- A compiled pattern for facts of one type. -/
structure Pattern where
  type : RecordType
  /-- The tests that look only at the fact under test. -/
  alpha : List Expr := []
  /-- The tests that also read facts matched by earlier patterns. -/
  beta : List Expr := []
  /-- No fact may match. -/
  negated : Bool := false
  /-- The place of the matched fact in the tuple; a negated pattern has none. -/
  index : Option Nat := none
  span : Span := {}
  deriving DecidableEq, Inhabited

/-- A compiled condition. -/
inductive Condition where
  | pattern (pattern : Pattern)
  /-- A test of the facts matched so far. -/
  | eval (test : Expr)
  deriving DecidableEq, Inhabited

/-- A rule that can be added to a network. -/
structure Rule where
  package : String
  /-- The name, unique in its package. -/
  name : String
  /-- The priority; higher fires first. -/
  salience : Int
  noLoop : Bool
  enabled : Bool
  conditions : List Condition
  consequence : Consequence
  /-- The functions of the package. -/
  functions : FunctionTable
  /-- The number of facts in a complete match. -/
  arity : Nat
  span : Span
  deriving DecidableEq, Inhabited

namespace Rule

/-- The name of the rule with that of its package. -/
def qualifiedName (rule : Rule) : String := rule.package ++ "." ++ rule.name

/-- The patterns, in order. -/
def patterns (rule : Rule) : List Pattern :=
  rule.conditions.filterMap fun
    | .pattern pattern => some pattern
    | .eval _ => none

end Rule

end Rete
