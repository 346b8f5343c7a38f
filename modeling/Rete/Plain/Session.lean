import Rete.Plain.Network
import Rete.Snapshot.Encoding
import Rete.Trace.Tracer

/-!
# Plain form of sessions

Configurations, snapshots and trace records.
-/

namespace Rete

/-- A configuration is read with the default call depth where none is given. -/
instance : OfPlain SessionConfig where
  ofPlain? data := do
    return { maxActivations := ← data.get? "max_activations"
             maxCallDepth := ((← data.get? "max_call_depth") : Option Nat).getD defaultCallDepth }

/-- A tracer's configuration is read with the default capacity where none is given. -/
instance : OfPlain TracerConfig where
  ofPlain? data := do
    let capacity : Option Nat ← data.get? "buffer_size"
    return { enabled := ← data.get? "enabled", filter := ← data.get? "filter",
             capacity := capacity.getD ({} : TracerConfig).capacity }

/-! ## Snapshots -/

/-- A settled state is written by its name. -/
instance : ToPlain Settled := ⟨fun settled => plain settled.name⟩

/-- What is not fired is suppressed. -/
instance : OfPlain Settled where
  ofPlain? data := do return if (← ofPlain? data) = "Fired" then .fired else .suppressed

/-- A node is written with its label. -/
instance : ToPlain NodeRecord := ⟨fun node => plain (node.node, node.label)⟩

/-- A node is read with its label. -/
instance : OfPlain NodeRecord := ⟨fun data => do return ⟨← data.at? 0, ← data.at? 1⟩⟩

/-- A fact is written with its handle and type. -/
instance : ToPlain FactRecord := ⟨fun fact => plain (fact.handle, fact.typeName, fact.object)⟩

/-- A fact is read with its handle and type. -/
instance : OfPlain FactRecord := ⟨fun data => do return ⟨← data.at? 0, ← data.at? 1, ← data.at? 2⟩⟩

/-- An activation is written with its rule, tuple and place in the queue. -/
instance : ToPlain ActivationRecord where
  plain activation := plain
    (activation.package, activation.rule, activation.tuple, activation.salience,
      activation.sequence)

/-- An activation is read with its rule, tuple and place in the queue. -/
instance : OfPlain ActivationRecord where
  ofPlain? data := do
    return ⟨← data.at? 0, ← data.at? 1, ← data.at? 2, ← data.at? 3, ← data.at? 4⟩

/-- A match is written with its rule, tuple and state. -/
instance : ToPlain MatchRecord :=
  ⟨fun found => plain (found.package, found.rule, found.tuple, found.state)⟩

/-- A match is read with its rule, tuple and state. -/
instance : OfPlain MatchRecord where
  ofPlain? data := do return ⟨← data.at? 0, ← data.at? 1, ← data.at? 2, ← data.at? 3⟩

/-- A snapshot is written part by part. -/
instance : ToPlain Snapshot where
  plain snapshot := .record
    [("version", plain snapshot.version), ("nodes", plain snapshot.nodes),
      ("facts", plain snapshot.facts), ("memory", plain snapshot.memory),
      ("activations", plain snapshot.activations), ("settled", plain snapshot.settled),
      ("globals", plain snapshot.globals), ("next_handle", plain snapshot.nextHandle),
      ("next_sequence", plain snapshot.nextSequence)]

/-- A snapshot is read part by part. -/
instance : OfPlain Snapshot where
  ofPlain? data := do
    return { version := ← data.get? "version", nodes := ← data.get? "nodes",
             facts := ← data.get? "facts", memory := ← data.get? "memory",
             activations := ← data.get? "activations", settled := ← data.get? "settled",
             globals := ← data.get? "globals", nextHandle := ← data.get? "next_handle",
             nextSequence := ← data.get? "next_sequence" }

/-! ## Traces -/

/-- A trace record is written with its classes and its line. -/
instance : ToPlain TraceRecord where
  plain record := .list
    [plain record.id, plain record.firing, plain record.event.kindName,
      plain record.event.isFactEvent, plain record.event.isRuleEvent,
      plain (({ ids := true } : TraceFormat).line record)]

/-- A trace buffer is written with its counts and its last record. -/
instance : ToPlain TraceBuffer where
  plain buffer := .record
    [("count", plain buffer.size), ("max", plain buffer.capacity),
      ("evicted", plain buffer.evicted),
      ("events", .record (buffer.counts.entries.map fun (kind, n) => (kind, plain n))),
      ("len", plain buffer.size), ("empty", plain buffer.records.isEmpty),
      ("last", plain buffer.last?)]

end Rete
