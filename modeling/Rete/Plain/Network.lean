import Rete.Network.Memory
import Rete.Plain.Compiled

/-!
# Plain form of networks and their memories

Descriptions of the nodes of a network, and the persistent form of what it has matched.
-/

namespace Rete

/-- A node with its id. -/
def Node.toPlain (id : NodeId) (node : Node) : Plain :=
  let input (left : Option NodeId) : String × Plain := ("left", plain left)
  let package (functions : FunctionTable) : String × Plain := ("package", plain functions.package)
  .record
    ([("id", plain id.text), ("kind", plain node.kind.label), ("refs", plain node.refs),
        ("children", plain node.children), ("right", plain node.rightChildren)] ++
      match node.kind with
      | .objectType typeName => [("type", plain typeName)]
      | .alpha _ test functions => [("test", plain test), package functions]
      | .join left right tests _ functions =>
        [input left, ("input", plain right), ("tests", plain tests), package functions]
      | .eval left test functions => [input left, ("test", plain test), package functions]
      | .terminal left terminal =>
        [input left, ("rule", plain terminal.rule.text), ("salience", plain terminal.salience),
          ("no_loop", plain terminal.noLoop)])

/-- A network is written with its nodes, counts and rules. -/
instance : ToPlain Network where
  plain network := .record
    [("nodes", .list (network.nodes.entries.map fun (id, node) => node.toPlain id)),
      ("root", plain network.rootChildren), ("rule_count", plain network.ruleCount),
      ("node_count", plain network.nodeCount),
      ("summary", .record (network.summary.entries.map fun (label, n) => (label, plain n))),
      ("rules", plain (network.rules.entries.map fun (id, entry) =>
        (id, entry.rule.qualifiedName)))]

/-- A record of memories is written table by table. -/
instance : ToPlain MemoryRecord where
  plain memory := .record
    [("seeded", plain memory.seeded), ("alpha", plain memory.alpha), ("beta", plain memory.beta),
      ("blockers", plain memory.blockers)]

/-- A record of memories is read table by table. -/
instance : OfPlain MemoryRecord where
  ofPlain? data := do
    return { seeded := ← data.get? "seeded", alpha := ← data.get? "alpha",
             beta := ← data.get? "beta", blockers := ← data.get? "blockers" }

end Rete
