import Rete.Evaluation
import Rete.Network.Memory

/-!
# Propagation of facts

How the memories of a network follow the facts. A fact that is asserted goes down the alpha
level, then joins with the tokens on the left of every join it reaches; a fact that is retracted
takes with it the tokens it took part in and frees the tokens that only it had blocked. Tokens
travel depth first, and only those that are new travel on, so that a fact that reaches a join
from both sides yields each match once.

A condition that fails to evaluate ends the propagation. What happened before stays, so the
memories and the changes of matches are the outcome in every case (`MatchM`).

The outputs of a node never lead back to it, so a walk along outputs is shorter than the number
of nodes (`Network.depth`), which bounds the recursions here.
-/

namespace Rete

/-- A change of the set of complete matches. -/
inductive MatchChange where
  | found (terminal : Terminal) (tuple : Tuple)
  /-- The matches of a rule that start with a stem are gone. -/
  | lost (rule : RuleId) (stem : Tuple)
  deriving DecidableEq, Inhabited

/-- What propagation changes: the memories, and so the complete matches. -/
structure Matching where
  memory : NetworkMemory := {}
  /-- The changes of the set of complete matches, in order. -/
  changes : List MatchChange := []
  deriving DecidableEq

/-- An empty memory without effects. -/
instance : Inhabited Matching := ⟨{}⟩

/-- A propagation step, which may end with an error. -/
abbrev MatchM : Type → Type := ExceptT Error (StateM Matching)

/-- What conditions are tested against. -/
structure FactView where
  catalog : Catalog
  facts : Facts := ∅
  globals : Globals := ∅
  callDepth : Nat := defaultCallDepth

namespace FactView

/-- Whether a test holds. -/
def holds (view : FactView) (functions : FunctionTable) (scope : MatchScope) (test : Expr) :
    Except Error Bool :=
  { catalog := view.catalog, functions, callDepth := view.callDepth, facts := view.facts :
    Evaluation }.test view.globals scope test

/-- Whether all tests hold, which are tried in order up to the first that does not. -/
def allHold (view : FactView) (functions : FunctionTable) (scope : MatchScope) :
    List Expr → Except Error Bool
  | [] => .ok true
  | test :: tests => do
    if ← view.holds functions scope test then view.allHold functions scope tests
    else return false

/-- The live fact of a handle. -/
def fact (view : FactView) (handle : Handle) : Except Error Object :=
  match view.facts.find? handle with
  | some fact => .ok fact
  | none => .error (Cause.unknownFact handle : Error)

end FactView

/-- A bound on walks along the outputs of nodes. -/
def Network.depth (network : Network) : Nat := network.nodes.size

namespace Matching

variable (network : Network)

/-! ## Withdrawing tokens -/

/-- Notes a change of the complete matches. -/
def note (change : MatchChange) (state : Matching) : Matching :=
  { state with changes := state.changes ++ [change] }

/-- Drops the tokens with a stem that a node let through, and calls `below` for each node behind
it if there were any. -/
def retractOutputWith (below : Matching → NodeId → Matching) (stem : Tuple) (state : Matching)
    (id : NodeId) : Matching :=
  match network.node? id with
  | none => state
  | some node =>
    let (dropped, memory) := state.memory.dropTokens id stem
    let state := { state with memory }
    if dropped then node.children.foldl below state else state

/-- Takes back the tokens with a stem that a node was offered, and all that came of them. -/
def withdraw : (depth : Nat) → (stem : Tuple) → Matching → NodeId → Matching
  | 0, _, state, _ => state
  | depth + 1, stem, state, id =>
    match (network.node? id).map Node.kind with
    | none => state
    | some (.terminal _ terminal) => state.note (.lost terminal.rule stem)
    | some _ =>
      retractOutputWith network (withdraw depth stem) stem
        { state with memory := state.memory.dropBlocked id stem } id

/-- Drops the tokens with a stem that a node let through, and all that came of them. -/
def retractOutput (stem : Tuple) : Matching → NodeId → Matching :=
  retractOutputWith network (withdraw network network.depth stem) stem

/-- Adds a fact to those that block a token of a negated join; the first one stops the token. -/
def block (join : NodeId) (token : Tuple) (fact : Handle) (state : Matching) : Matching :=
  let blocked := state.memory.blockedAt join
  let blocking := (blocked.find? token).getD ∅
  let memory := state.memory.setBlocked join (blocked.insert token (blocking.add fact))
  let state := { state with memory }
  if blocking.isEmpty then retractOutput network token state join else state

end Matching

namespace MatchM

variable (network : Network) (view : FactView)

/-- A result that does not depend on the memories. -/
def liftResult {α : Type} (result : Except Error α) : MatchM α := ExceptT.mk (pure result)

/-- A change of the state. -/
def change (f : Matching → Matching) : MatchM Unit := modify f

/-- The end of a walk that is longer than the network is deep. -/
def tooDeep {α : Type} (id : NodeId) : MatchM α :=
  throw (Cause.internal ("outputs of node " ++ id.text ++ " lead back to it") : Error)

/-! ## The alpha level -/

/-- Sends a fact down the alpha level from a node; returns the nodes that it passed, depth
first. -/
def alphaPass (handle : Handle) (fact : Object) : (depth : Nat) → NodeId → MatchM (List NodeId)
  | 0, id => tooDeep id
  | depth + 1, id =>
    match network.node? id with
    | none => return []
    | some node => do
      let passes ← match node.kind with
        | .alpha _ test functions => liftResult (view.holds functions { current := fact } test)
        | _ => pure true
      if !passes then return []
      change fun state => { state with memory := state.memory.addFact id handle }
      let below ← node.children.mapM (alphaPass handle fact depth)
      return id :: below.flatten

/-- Takes a fact out of the memories of a node and of those below; returns the nodes that held
it, depth first. -/
def alphaHolders (handle : Handle) : (depth : Nat) → NodeId → MatchM (List NodeId)
  | 0, id => tooDeep id
  | depth + 1, id => do
    let held := (((← get).memory.alpha.find? id).map (·.contains handle)).getD false
    if !held then return []
    change fun state => { state with memory := state.memory.removeFact id handle }
    match network.node? id with
    | none => return [id]
    | some node =>
      let below ← node.children.mapM (alphaHolders handle depth)
      return id :: below.flatten

/-! ## Joins and evals -/

/-- Lets a token through a node; if it is new it is offered to the nodes behind. -/
def emitWith (offer : Tuple → NodeId → MatchM Unit) (id : NodeId) (token : Tuple) :
    MatchM Unit := do
  let known := (← get).memory.tokensAt id |>.contains token
  if known then return
  change fun state => { state with memory := state.memory.addToken id token }
  match network.node? id with
  | none => return
  | some node => node.children.forM (offer token)

/-- Joins a token with facts; every fact that matches is added to it, and the result let
through. -/
def joinFacts (emit : Tuple → MatchM Unit) (functions : FunctionTable) (tests : List Expr)
    (token : Tuple) (facts : List Handle) : MatchM Unit :=
  facts.forM fun handle => do
    let fact ← liftResult (view.fact handle)
    if ← liftResult (view.allHold functions ⟨token, some fact⟩ tests) then emit (token ++ [handle])

/-- The facts that match a token. -/
def matching (functions : FunctionTable) (tests : List Expr) (token : Tuple) :
    List Handle → MatchM (List Handle)
  | [] => return []
  | handle :: rest => do
    let fact ← liftResult (view.fact handle)
    let blocks ← liftResult (view.allHold functions ⟨token, some fact⟩ tests)
    let others ← matching functions tests token rest
    return if blocks then handle :: others else others

/-- Offers a token to a node from the left. -/
def leftActivate : (depth : Nat) → Tuple → NodeId → MatchM Unit
  | 0, _, id => tooDeep id
  | depth + 1, token, id =>
    let emit := emitWith network (leftActivate depth) id
    match (network.node? id).map Node.kind with
    | none => return
    | some (.join _ right tests false functions) => do
      joinFacts view emit functions tests token ((← get).memory.factsAt right).keys
    | some (.join _ right tests true functions) => do
      let blocking ← matching view functions tests token ((← get).memory.factsAt right).keys
      if blocking.isEmpty then emit token
      else
        change fun state =>
          let blocked := (state.memory.blockedAt id).insert token (.ofList blocking)
          { state with memory := state.memory.setBlocked id blocked }
    | some (.eval _ test functions) => do
      if ← liftResult (view.holds functions { tuple := token } test) then emit token
    | some (.terminal _ terminal) => change (Matching.note (.found terminal token))
    | some (.objectType _) | some (.alpha ..) =>
      throw (Cause.internal ("alpha node " ++ id.text ++ " used as a left input") : Error)

/-- Lets a token through a node. -/
def emit (id : NodeId) (token : Tuple) : MatchM Unit :=
  emitWith network (leftActivate network view network.depth) id token

/-- Offers a fact to a join from the right. -/
def rightActivateJoin (handle : Handle) (fact : Object) (id : NodeId) : MatchM Unit :=
  match (network.node? id).map Node.kind with
  | some (.join left _ tests negated functions) => do
    ((← get).memory.leftTokens left).keys.forM fun token => do
      if ← liftResult (view.allHold functions ⟨token, some fact⟩ tests) then
        if negated then change (Matching.block network id token handle)
        else emit network view id (token ++ [handle])
  | _ => return

/-- Offers a fact that passed a node of the alpha level to the joins behind it. -/
def rightActivate (handle : Handle) (fact : Object) (id : NodeId) : MatchM Unit :=
  match network.node? id with
  | none => return
  | some node => node.rightChildren.forM (rightActivateJoin network view handle fact)

/-- Takes back what a fact has contributed to a join from the right; returns the tokens of a
negated join that nothing blocks any more. -/
def rightRetractJoin (handle : Handle) (id : NodeId) : MatchM (List (NodeId × Tuple)) :=
  match (network.node? id).map Node.kind with
  | some (.join _ _ _ true _) => do
    match (← get).memory.blockers.find? id with
    | none => return []
    | some blocked =>
      let freed (facts : SortedSet Handle) : Bool :=
        facts.contains handle && (facts.erase handle).isEmpty
      change fun state =>
        let rest := blocked.filterMap fun _ facts =>
          if freed facts then none else some (facts.erase handle)
        { state with memory := state.memory.setBlocked id rest }
      return (blocked.filter fun _ facts => freed facts).keys.map fun token => (id, token)
  | some (.join _ _ _ false _) => do
    let doomed := ((← get).memory.tokensAt id).keys.filter fun token =>
      token.getLast? == some handle
    change fun state =>
      doomed.foldl (fun state token => Matching.retractOutput network token state id) state
    return []
  | _ => return []

/-- Takes back what a fact has contributed behind a node of the alpha level. -/
def rightRetract (handle : Handle) (id : NodeId) : MatchM (List (NodeId × Tuple)) :=
  match network.node? id with
  | none => return []
  | some node => do return (← node.rightChildren.mapM (rightRetractJoin network handle)).flatten

/-- Lets a token through a negated join that does not block it any more, if it is still
offered. -/
def unblock (id : NodeId) (token : Tuple) : MatchM Unit :=
  match (network.node? id).map Node.kind with
  | some (.join left _ _ _ _) => do
    let memory := (← get).memory
    let blocked := !(((memory.blockedAt id).find? token).getD ∅).isEmpty
    if (memory.leftTokens left).contains token && !blocked then emit network view id token
  | _ => return

/-! ## Facts -/

/-- Passes on the empty token of the root, which starts the rules and conditions that need no
fact. Only the first time has an effect. -/
def seed : MatchM Unit := do
  if (← get).memory.seeded then return
  change fun state => { state with memory := { state.memory with seeded := true } }
  network.rootChildren.forM (leftActivate network view network.depth [])

/-- Follows a fact that has come into the view, or back with other fields. -/
def assert (handle : Handle) : MatchM Unit := do
  let fact ← liftResult (view.fact handle)
  match network.objectType? fact.typeName with
  | none => return
  | some entry =>
    let passed ← alphaPass network view handle fact network.depth entry
    passed.forM (rightActivate network view handle fact)

/-- Follows a fact that is about to leave the view. -/
def retract (handle : Handle) : MatchM Unit := do
  let fact ← liftResult (view.fact handle)
  match network.objectType? fact.typeName with
  | none => return
  | some entry =>
    let holders ← alphaHolders network handle network.depth entry
    let freed ← holders.mapM (rightRetract network handle)
    freed.flatten.forM fun (id, token) => unblock network view id token

end MatchM

end Rete
