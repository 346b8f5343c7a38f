import Rete.Knowledge

/-!
# Snapshots of sessions

A snapshot is the state of a session as plain records: facts under their handles, what the
network has matched, the waiting and the settled matches by the names of their rules, globals and
counters. It can be restored against a knowledge base whose network has the same shape. Nothing is
tested when a snapshot is restored, so matches come back as they were even if they have read globals
that have changed since.
-/

namespace Rete

/-- The version of the format that is written. -/
def snapshotVersion : Nat := 2

/-- A node of the network at which the snapshot was taken. -/
structure NodeRecord where
  node : NodeId
  /-- The kind of the node. -/
  label : String
  deriving DecidableEq, Inhabited

/-- A fact with its handle and the name of its type. -/
structure FactRecord where
  handle : Handle
  typeName : String
  object : Object
  deriving DecidableEq, Inhabited

/-- A waiting match. -/
structure ActivationRecord where
  package : String
  rule : String
  tuple : Tuple
  salience : Int
  sequence : Nat
  deriving DecidableEq, Inhabited

/-- A match that does not wait. -/
structure MatchRecord where
  package : String
  rule : String
  tuple : Tuple
  state : Settled
  deriving DecidableEq, Inhabited

/-- The state of a session. -/
structure Snapshot where
  version : Nat := snapshotVersion
  /-- The shape of the network. -/
  nodes : List NodeRecord := []
  facts : List FactRecord := []
  memory : MemoryRecord := {}
  /-- The waiting matches in the order in which they fire. -/
  activations : List ActivationRecord := []
  settled : List MatchRecord := []
  globals : List (String × Value) := []
  nextHandle : Handle
  nextSequence : Nat
  deriving DecidableEq, Inhabited

/-- The ids and kinds of the nodes, in the order of their ids. -/
def Network.shape (network : Network) : List NodeRecord :=
  network.nodes.entries.map fun (node, found) => ⟨node, found.kind.label⟩

namespace Session

/-- The package and name of the rule of a match. -/
def ruleName (session : Session) (id : RuleId) : Except Error (String × String) :=
  match session.network.rule? id with
  | some rule => .ok (rule.package, rule.name)
  | none => .error (Cause.internal ("match of unknown rule " ++ id.text) : Error)

/-- Records a waiting match. -/
def recordActivation (session : Session) (activation : Activation) :
    Except Error ActivationRecord := do
  let (package, rule) ← session.ruleName activation.rule
  return ⟨package, rule, activation.tuple, activation.salience, activation.sequence⟩

/-- Records a settled match. -/
def recordSettled (session : Session) (settled : Match × Settled) : Except Error MatchRecord := do
  let (package, rule) ← session.ruleName settled.1.rule
  return ⟨package, rule, settled.1.tuple, settled.2⟩

/-- Takes a snapshot. A session that was given up has none. -/
def snapshot (session : Session) : Except Error Snapshot := do
  if session.disposed then throw (Cause.sessionDisposed : Error)
  let activations ← session.agenda.pending.mapM session.recordActivation
  let settled ← session.agenda.settled.mapM session.recordSettled
  return {
    nodes := session.network.shape
    facts := session.memory.facts.entries.map fun (handle, object) =>
      ⟨handle, object.typeName, object⟩
    memory := session.matched.toRecord
    activations
    settled
    globals := session.memory.globals.entries
    nextHandle := session.memory.nextHandle
    nextSequence := session.agenda.nextSequence }

end Session

namespace Snapshot

/-- A snapshot that does not fit. -/
def misfit {α : Type} (message : String) : Except Error α :=
  .error (Cause.snapshotMismatch message : Error)

/-- A network with the shape that was recorded. -/
def checkShape (network : Network) (recorded : List NodeRecord) : Except Error Unit :=
  let live := network.shape
  if live = recorded then .ok ()
  else
    match (live.zip recorded).find? fun (found, wanted) => found != wanted with
    | some (found, wanted) =>
      misfit ("snapshot expects " ++ wanted.label ++ " node " ++ wanted.node.text ++
        ", the network has " ++ found.label ++ " node " ++ found.node.text)
    | none =>
      misfit ("snapshot expects " ++ toString recorded.length ++ " nodes, the network has " ++
        toString live.length)

/-- Puts back a fact. -/
def restoreFact (catalog : Catalog) (memory : WorkingMemory) (fact : FactRecord) :
    Except Error WorkingMemory :=
  if fact.typeName ≠ fact.object.typeName then
    misfit ("fact " ++ fact.handle.text ++ " is tagged " ++ fact.typeName ++ " but holds a " ++
      fact.object.typeName)
  else if catalog.contains fact.object.typeName then .ok (memory.put fact.handle fact.object)
  else .error (Cause.unknownType fact.object.typeName : Error)

/-- Puts back a global. -/
def restoreGlobal (types : GlobalTypes) (memory : WorkingMemory) (global : String × Value) :
    Except Error WorkingMemory :=
  match types.find? global.1 with
  | none => .error (Cause.unknownGlobal global.1 : Error)
  | some declared =>
    if declared.accepts global.2.type then .ok (memory.setGlobal global.1 global.2)
    else .error (Cause.typeMismatch declared global.2.type : Error)

/-- The recorded match of a rule, whose facts have to be live. -/
def findMatch (base : KnowledgeBase) (facts : Facts) (package rule : String) (tuple : Tuple) :
    Except Error Match :=
  match base.network.ruleId? package rule with
  | none => misfit ("rule " ++ package ++ "." ++ rule ++ " is not in the knowledge base")
  | some id => do
    MemoryRecord.expectLive facts tuple
    return ⟨id, tuple⟩

/-- Tracks a match unless it was recorded before. -/
def once (package rule : String) (tuple : Tuple) (agenda? : Option Agenda) : Except Error Agenda :=
  match agenda? with
  | some agenda => .ok agenda
  | none =>
    let handles := tuple.map fun handle => "FactHandle(" ++ toString handle ++ ")"
    misfit ("rule " ++ package ++ "." ++ rule ++ " records " ++ Value.enclose "[" "]" handles ++
      " twice")

/-- Puts back a waiting match. -/
def restoreActivation (base : KnowledgeBase) (facts : Facts) (agenda : Agenda)
    (activation : ActivationRecord) : Except Error Agenda := do
  let { package, rule, tuple, salience, sequence } := activation
  let found ← findMatch base facts package rule tuple
  once package rule tuple (agenda.restorePending? ⟨found, ⟨salience, sequence⟩⟩)

/-- Puts back a settled match. -/
def restoreSettled (base : KnowledgeBase) (facts : Facts) (agenda : Agenda)
    (settled : MatchRecord) : Except Error Agenda := do
  let { package, rule, tuple, state } := settled
  let found ← findMatch base facts package rule tuple
  once package rule tuple (agenda.restoreSettled? found state)

/-- Makes a session from a snapshot. Of several misfits, the first in this order is reported: the
shape of the network, globals, facts, memories, waiting matches, settled matches. -/
def restore (snapshot : Snapshot) (base : KnowledgeBase) (config : SessionConfig) :
    Except Error Session := do
  checkShape base.network snapshot.nodes
  let memory ← snapshot.globals.foldlM (restoreGlobal base.globals) {}
  let memory ← snapshot.facts.foldlM (restoreFact base.catalog) memory
  let matched ← snapshot.memory.toMemory base.network memory.facts
  let agenda ← snapshot.activations.foldlM (restoreActivation base memory.facts) {}
  let agenda ← snapshot.settled.foldlM (restoreSettled base memory.facts) agenda
  return { base.unseededSession config with
    memory := memory.reserve snapshot.nextHandle
    matched
    agenda := agenda.reserve snapshot.nextSequence }

end Snapshot

end Rete
