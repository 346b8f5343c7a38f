import Rete.Network.Basic
import Rete.WorkingMemory

/-!
# What a network has matched

The memories of one session for the nodes of a network: the facts that passed the alpha level,
the tokens that joins and evals let through, and for every negated join the facts that block a
token. `MemoryRecord` is their persistent form; reading one tests no condition, it only has to
fit the network and the live facts.
-/

namespace Rete

/-- A set of tokens. -/
abbrev Tokens : Type := SortedSet Tuple

/-- The tokens that a negated join holds back, each with the facts that match it. -/
abbrev Blocked : Type := SortedMap Tuple (SortedSet Handle)

/-- The memories of the nodes of a network. -/
structure NetworkMemory where
  /-- Whether the root has passed on its empty token. -/
  seeded : Bool := false
  /-- The facts that passed an object-type or alpha node. -/
  alpha : SortedMap NodeId (SortedSet Handle) := ∅
  /-- The tokens that a join or eval node let through. -/
  beta : SortedMap NodeId Tokens := ∅
  /-- The tokens that a negated join holds back. -/
  blockers : SortedMap NodeId Blocked := ∅
  deriving DecidableEq

/-- Nothing remembered at any node. -/
instance : Inhabited NetworkMemory := ⟨{}⟩

namespace NetworkMemory

/-- The facts that passed a node of the alpha level. -/
def factsAt (memory : NetworkMemory) (node : NodeId) : SortedSet Handle :=
  (memory.alpha.find? node).getD ∅

/-- The tokens that a node let through. -/
def tokensAt (memory : NetworkMemory) (node : NodeId) : Tokens :=
  (memory.beta.find? node).getD ∅

/-- The tokens that a negated join holds back. -/
def blockedAt (memory : NetworkMemory) (node : NodeId) : Blocked :=
  (memory.blockers.find? node).getD ∅

/-- The tokens that a left input offers; the root offers the empty one. -/
def leftTokens (memory : NetworkMemory) : Option NodeId → Tokens
  | none => if memory.seeded then .ofList [[]] else ∅
  | some node => memory.tokensAt node

/-- The number of stored tokens. -/
def tokenCount (memory : NetworkMemory) : Nat :=
  memory.beta.values.foldl (fun count tokens => count + tokens.size) 0

/-! ## Changes -/

/-- Remembers a fact at an alpha node. -/
def addFact (memory : NetworkMemory) (node : NodeId) (fact : Handle) : NetworkMemory :=
  { memory with alpha := memory.alpha.insert node ((memory.factsAt node).add fact) }

/-- Forgets a fact at an alpha node. -/
def removeFact (memory : NetworkMemory) (node : NodeId) (fact : Handle) : NetworkMemory :=
  { memory with alpha := memory.alpha.insert node ((memory.factsAt node).erase fact) }

/-- Remembers a tuple at a beta node. -/
def addToken (memory : NetworkMemory) (node : NodeId) (token : Tuple) : NetworkMemory :=
  { memory with beta := memory.beta.insert node ((memory.tokensAt node).add token) }

/-- Replaces what a negated node holds back. -/
def setBlocked (memory : NetworkMemory) (node : NodeId) (blocked : Blocked) : NetworkMemory :=
  { memory with blockers := memory.blockers.insert node blocked }

/-- Cuts the entries whose tuple starts with a stem out of a map; returns the others as well. -/
def cutStem {ν : Type} (stem : Tuple) (map : SortedMap Tuple ν) :
    List (Tuple × ν) × SortedMap Tuple ν :=
  map.cutRange stem fun tuple => stem.isPrefixOf tuple

/-- Drops the tokens of a node that start with a stem; also returns whether there were any. -/
def dropTokens (memory : NetworkMemory) (node : NodeId) (stem : Tuple) : Bool × NetworkMemory :=
  match memory.beta.find? node with
  | none => (false, memory)
  | some tokens =>
    let (dropped, kept) := cutStem stem tokens
    (!dropped.isEmpty, { memory with beta := memory.beta.insert node kept })

/-- Drops the held-back tokens of a node that start with a stem. -/
def dropBlocked (memory : NetworkMemory) (node : NodeId) (stem : Tuple) : NetworkMemory :=
  match memory.blockers.find? node with
  | none => memory
  | some blocked => memory.setBlocked node (cutStem stem blocked).2

end NetworkMemory

/-! ## The persistent form -/

/-- Memories as lists. -/
structure MemoryRecord where
  seeded : Bool := false
  alpha : List (NodeId × List Handle) := []
  beta : List (NodeId × List Tuple) := []
  blockers : List (NodeId × List (Tuple × List Handle)) := []
  deriving DecidableEq, Inhabited

namespace NetworkMemory

/-- The persistent form, in which empty memories are left out. -/
def toRecord (memory : NetworkMemory) : MemoryRecord where
  seeded := memory.seeded
  alpha := (memory.alpha.filter fun _ facts => !facts.isEmpty).entries.map fun (node, facts) =>
    (node, facts.keys)
  beta := (memory.beta.filter fun _ tokens => !tokens.isEmpty).entries.map fun (node, tokens) =>
    (node, tokens.keys)
  blockers := (memory.blockers.filter fun _ blocked => !blocked.isEmpty).entries.map
    fun (node, blocked) => (node, blocked.entries.map fun (token, facts) => (token, facts.keys))

end NetworkMemory

namespace MemoryRecord

/-- A record that does not fit. -/
private def misfit {α : Type} (message : String) : Except Error α :=
  .error (Cause.snapshotMismatch message : Error)

/-- A node of one of the expected kinds. -/
def expectNode (network : Network) (id : NodeId) (labels : List String) : Except Error Unit :=
  match network.node? id with
  | none => misfit ("node " ++ id.text ++ " is not in the network")
  | some node =>
    if labels.contains node.kind.label then .ok ()
    else
      misfit ("node " ++ id.text ++ " is a " ++ node.kind.label ++ " node, expected one of " ++
        Value.enclose "[" "]" (labels.map Text.quote))

/-- Facts that are all live. -/
def expectLive (facts : Facts) (handles : List Handle) : Except Error Unit :=
  match handles.find? fun handle => !facts.contains handle with
  | some missing => misfit ("fact " ++ missing.text ++ " is matched but not stored")
  | none => .ok ()

/-- Reads the facts of alpha-level nodes. -/
def readAlpha (network : Network) (facts : Facts) :
    List (NodeId × List Handle) → Except Error (SortedMap NodeId (SortedSet Handle)) :=
  List.foldlM (fun alpha (node, handles) => do
    expectNode network node ["object-type", "alpha"]
    expectLive facts handles
    return alpha.insert node (.ofList handles)) ∅

/-- Reads the tokens of nodes behind the alpha level. -/
def readBeta (network : Network) (facts : Facts) :
    List (NodeId × List Tuple) → Except Error (SortedMap NodeId Tokens) :=
  List.foldlM (fun beta (node, tokens) => do
    expectNode network node ["join", "not", "eval"]
    tokens.forM (expectLive facts)
    return beta.insert node (.ofList tokens)) ∅

/-- Reads the held-back tokens of one node; each needs a fact that blocks it. -/
def readBlocked (facts : Facts) (node : NodeId) :
    List (Tuple × List Handle) → Except Error Blocked :=
  List.foldlM (fun blocked (token, handles) => do
    expectLive facts token
    expectLive facts handles
    if handles.isEmpty then
      misfit ("node " ++ node.text ++ " records an unblocked token as blocked")
    else return blocked.insert token (.ofList handles)) ∅

/-- Reads the held-back tokens of negated joins. -/
def readBlockers (network : Network) (facts : Facts) :
    List (NodeId × List (Tuple × List Handle)) → Except Error (SortedMap NodeId Blocked) :=
  List.foldlM (fun blockers (node, blocked) => do
    expectNode network node ["not"]
    return blockers.insert node (← readBlocked facts node blocked)) ∅

/-- Reads memories; the record has to fit the network and the live facts. -/
def toMemory (record : MemoryRecord) (network : Network) (facts : Facts) :
    Except Error NetworkMemory := do
  let alpha ← readAlpha network facts record.alpha
  let beta ← readBeta network facts record.beta
  let blockers ← readBlockers network facts record.blockers
  return { seeded := record.seeded, alpha, beta, blockers }

end MemoryRecord

end Rete
