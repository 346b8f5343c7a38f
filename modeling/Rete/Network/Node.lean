import Rete.Rule

/-!
# Nodes of the matching network

A compiled rule is a path through a graph of nodes:

* an object-type node is the entry of the facts of one type;
* an alpha node hangs below an object-type or alpha node and tests single facts;
* a join node extends tokens, the partial matches from its left input, by facts from the alpha
  level on its right; a negated one lets a token through only while no fact matches it;
* an eval node tests tokens;
* a terminal node, one per rule, reports complete matches.

The left input of a node that comes first in its rule is the root, which holds one empty token.
Nodes that do the same are shared between rules. What a node does is its key (`NodeKind.key?`);
two nodes may have different function tables and the same key if they call no function.
-/

namespace Rete

/-- The identity of a node in a network. -/
abbrev NodeId : Type := Nat

/-- The name of the node in traces and errors. -/
def NodeId.text (node : NodeId) : String := "n" ++ toString node

/-- What a terminal node reports about its rule. -/
structure Terminal where
  rule : RuleId
  salience : Int
  noLoop : Bool
  deriving DecidableEq, Inhabited

/-- What a node does. -/
inductive NodeKind where
  | objectType (typeName : String)
  | alpha (parent : NodeId) (test : Expr) (functions : FunctionTable)
  | join (left : Option NodeId) (right : NodeId) (tests : List Expr) (negated : Bool)
    (functions : FunctionTable)
  | eval (left : Option NodeId) (test : Expr) (functions : FunctionTable)
  | terminal (left : Option NodeId) (terminal : Terminal)
  deriving DecidableEq, Inhabited

/-- The identity by which nodes are shared. The scope is the package whose functions the tests
call, if they call any: the same call means another function in another package. -/
inductive NodeKey where
  | objectType (typeName : String)
  | alpha (parent : NodeId) (test : Expr) (scope : Option String)
  | join (left : Option NodeId) (right : NodeId) (tests : List Expr) (negated : Bool)
    (scope : Option String)
  | eval (left : Option NodeId) (test : Expr) (scope : Option String)
  deriving DecidableEq, Inhabited

/-- The package whose functions the tests call, if they call any. -/
def FunctionTable.scopeOf (functions : FunctionTable) (tests : List Expr) : Option String :=
  if tests.any Expr.callsLocal then some functions.package else none

namespace NodeKind

/-- The key of a node. Terminal nodes are never shared. -/
def key? : NodeKind → Option NodeKey
  | objectType typeName => some (.objectType typeName)
  | alpha parent test functions => some (.alpha parent test (functions.scopeOf [test]))
  | join left right tests negated functions =>
    some (.join left right tests negated (functions.scopeOf tests))
  | eval left test functions => some (.eval left test (functions.scopeOf [test]))
  | terminal _ _ => none

/-- The name of the kind. -/
def label : NodeKind → String
  | objectType _ => "object-type"
  | alpha .. => "alpha"
  | join _ _ _ false _ => "join"
  | join _ _ _ true _ => "not"
  | eval .. => "eval"
  | terminal .. => "terminal"

end NodeKind

/-- A node: what it does, how many rules use it and where its output goes. -/
structure Node where
  kind : NodeKind
  /-- The number of occurrences in the paths of rules; terminal nodes are not counted. -/
  refs : Nat := 0
  /-- The alpha nodes below an alpha-level node, or the nodes with this one as left input. -/
  children : List NodeId := []
  /-- The joins with this node as right input. -/
  rightChildren : List NodeId := []
  deriving DecidableEq, Inhabited

end Rete
