import Rete.Diagnostic
import Rete.Network.Node

/-!
# The matching network

The graph of shared nodes that the rules of a knowledge base are turned into. It holds no
facts; what the facts of a session have matched is in `Rete.NetworkMemory`.

A rule is added as a path of nodes, each of which is looked up by its key and made only if there
is none. A node counts its uses in paths; when the last rule that uses it is removed it is
unlinked, and its id is given out again.
-/

namespace Rete

/-- A rule of a network with the nodes that it uses. -/
structure RuleEntry where
  rule : Rule
  terminal : NodeId
  /-- The nodes in the order in which they were obtained; the last is the terminal. -/
  path : List NodeId
  deriving DecidableEq, Inhabited

/-- A graph of shared nodes. -/
structure Network where
  /-- The live nodes. -/
  nodes : SortedMap NodeId Node := ∅
  /-- The number of ids that were ever in use. -/
  slots : Nat := 0
  /-- The ids below `slots` that are not in use; the first one is used next. -/
  free : List NodeId := []
  /-- The live nodes by key. -/
  keys : List (NodeKey × NodeId) := []
  /-- The entry nodes by full type name. -/
  objectTypes : SortedMap String NodeId := ∅
  /-- The nodes whose left input is the root. -/
  rootChildren : List NodeId := []
  rules : SortedMap RuleId RuleEntry := ∅
  /-- The rules by package and name. -/
  names : List ((String × String) × RuleId) := []
  /-- The id that the next new rule gets. -/
  nextRule : RuleId := 0
  deriving DecidableEq

/-- The network without nodes. -/
instance : Inhabited Network := ⟨{}⟩

namespace Network

/-! ## Look-ups -/

/-- The live node of an id. -/
def node? (network : Network) (id : NodeId) : Option Node := network.nodes.find? id

/-- The entry node for facts of a type. -/
def objectType? (network : Network) (typeName : String) : Option NodeId :=
  network.objectTypes.find? typeName

/-- The rule of an id. -/
def rule? (network : Network) (id : RuleId) : Option Rule :=
  (network.rules.find? id).map RuleEntry.rule

/-- The id of the rule of a package and name. -/
def ruleId? (network : Network) (package name : String) : Option RuleId :=
  network.names.lookup (package, name)

/-- The number of rules in the network. -/
def ruleCount (network : Network) : Nat := network.rules.size

/-- The number of live nodes. -/
def nodeCount (network : Network) : Nat := network.slots - network.free.length

/-- The number of live nodes of each kind. -/
def summary (network : Network) : SortedMap String Nat :=
  network.nodes.values.foldl (fun counts node =>
    counts.insert node.kind.label ((counts.find? node.kind.label).getD 0 + 1)) ∅

/-! ## Links -/

/-- Changes a live node. -/
def modify (network : Network) (id : NodeId) (change : Node → Node) : Network :=
  match network.node? id with
  | some node => { network with nodes := network.nodes.insert id (change node) }
  | none => network

/-- Makes a node an output of its left input. -/
def linkLeft (network : Network) (left : Option NodeId) (child : NodeId) : Network :=
  match left with
  | some left =>
    network.modify left fun node => { node with children := node.children ++ [child] }
  | none => { network with rootChildren := network.rootChildren ++ [child] }

/-- Drops a node from the outputs of its left input. -/
def unlinkLeft (network : Network) (left : Option NodeId) (child : NodeId) : Network :=
  match left with
  | some left =>
    network.modify left fun node => { node with children := node.children.filter (· != child) }
  | none => { network with rootChildren := network.rootChildren.filter (· != child) }

/-- Makes a new node an output of its inputs. -/
def link (network : Network) (id : NodeId) : NodeKind → Network
  | .objectType typeName =>
    { network with objectTypes := network.objectTypes.insert typeName id }
  | .alpha parent _ _ => network.linkLeft (some parent) id
  | .join left right _ _ _ =>
    (network.linkLeft left id).modify right fun node =>
      { node with rightChildren := node.rightChildren ++ [id] }
  | .eval left _ _ | .terminal left _ => network.linkLeft left id

/-- Drops a node from the outputs of its inputs. -/
def unlink (network : Network) (id : NodeId) : NodeKind → Network
  | .objectType typeName => { network with objectTypes := network.objectTypes.erase typeName }
  | .alpha parent _ _ => network.unlinkLeft (some parent) id
  | .join left right _ _ _ =>
    (network.unlinkLeft left id).modify right fun node =>
      { node with rightChildren := node.rightChildren.filter (· != id) }
  | .eval left _ _ | .terminal left _ => network.unlinkLeft left id

/-! ## Adding rules -/

/-- Takes an id that is not in use. -/
def takeId (network : Network) : NodeId × Network :=
  match network.free with
  | id :: free => (id, { network with free })
  | [] => (network.slots, { network with slots := network.slots + 1 })

/-- Makes a node. -/
def create (network : Network) (kind : NodeKind) : NodeId × Network :=
  let (id, network) := network.takeId
  let keys := match kind.key? with
    | some key => (key, id) :: network.keys
    | none => network.keys
  (id, { network with nodes := network.nodes.insert id { kind }, keys }.link id kind)

/-- The node with the key of the given kind; it is made if there is none. -/
def obtain (network : Network) (kind : NodeKind) : NodeId × Network :=
  match kind.key?.bind (network.keys.lookup ·) with
  | some id => (id, network)
  | none => network.create kind

/-- Obtains a node for the path of a rule and counts the use. -/
def use (network : Network) (path : List NodeId) (kind : NodeKind) :
    NodeId × List NodeId × Network :=
  let (id, network) := network.obtain kind
  (id, path ++ [id], network.modify id fun node => { node with refs := node.refs + 1 })

/-- Obtains the alpha nodes of tests below a node. -/
def useAlphas (functions : FunctionTable) (network : Network) (path : List NodeId)
    (parent : NodeId) : List Expr → NodeId × List NodeId × Network
  | [] => (parent, path, network)
  | test :: tests =>
    let (id, path, network) := network.use path (.alpha parent test functions)
    network.useAlphas functions path id tests

/-- Obtains the nodes of a condition behind a left input. -/
def useCondition (functions : FunctionTable) (network : Network) (path : List NodeId)
    (left : Option NodeId) : Condition → NodeId × List NodeId × Network
  | .pattern pattern =>
    let (entry, path, network) := network.use path (.objectType pattern.type.fullName)
    let (right, path, network) := network.useAlphas functions path entry pattern.alpha
    network.use path (.join left right pattern.beta pattern.negated functions)
  | .eval test => network.use path (.eval left test functions)

/-- Obtains the nodes of conditions, each behind the one before it. -/
def useConditions (functions : FunctionTable) (network : Network) (path : List NodeId)
    (left : Option NodeId) : List Condition → Option NodeId × List NodeId × Network
  | [] => (left, path, network)
  | condition :: conditions =>
    let (id, path, network) := network.useCondition functions path left condition
    network.useConditions functions path (some id) conditions

/-- Adds a rule whose package and name are new. -/
def addRule (network : Network) (rule : Rule) : Except Diagnostic (RuleId × Network) :=
  if (network.ruleId? rule.package rule.name).isSome then
    .error (((Diagnostic.rulePresent rule.qualifiedName).withPackage rule.package).withRule
      rule.name)
  else
    let id := network.nextRule
    let (left, path, network) := network.useConditions rule.functions [] none rule.conditions
    let (terminal, network) := network.create (.terminal left ⟨id, rule.salience, rule.noLoop⟩)
    let entry := { rule, terminal, path := path ++ [terminal] }
    .ok (id, { network with
      rules := network.rules.insert id entry
      names := ((rule.package, rule.name), id) :: network.names
      nextRule := id + 1 })

/-! ## Removing rules -/

/-- Drops a node from the graph. -/
def drop (network : Network) (id : NodeId) (kind : NodeKind) : Network :=
  { network with
    nodes := network.nodes.erase id
    keys := network.keys.filter fun entry => some entry.1 != kind.key?
    free := id :: network.free }.unlink id kind

/-- Ends a use of a node, which is dropped if it was the last one. -/
def release (network : Network) (id : NodeId) : Network :=
  match network.node? id with
  | none => network
  | some node =>
    if 1 < node.refs then network.modify id fun node => { node with refs := node.refs - 1 }
    else network.drop id node.kind

/-- Removes a rule and the nodes that no other rule uses; also returns the rule. -/
def removeRule (network : Network) (id : RuleId) : Option (Rule × Network) :=
  (network.rules.find? id).map fun entry =>
    let network := { network with
      rules := network.rules.erase id
      names := network.names.filter fun name => name.1 != (entry.rule.package, entry.rule.name) }
    (entry.rule, entry.path.reverse.foldl release network)

end Network

end Rete
