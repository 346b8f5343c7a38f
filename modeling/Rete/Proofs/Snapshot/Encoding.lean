import Rete.Proofs.Snapshot.Items

/-!
# Snapshots survive being stored

A snapshot of the current version is read back from its bytes as it was
(`Snapshot.ofBytes_toBytes`), whatever it holds, as long as its counters have the bits that they are
read with and its lengths have up to four bytes (`Snapshot.Storable`). Each record is kept because
its fields are (`MessagePack.Item.FieldNames.keeps`), so that a field more or less concerns the
lemma of its own record.
-/

namespace Rete

open MessagePack (Item)
open MessagePack.Item

/-! ## What can be stored -/

/-- Whether a handle has up to eight bytes. -/
def Handle.Storable (handle : Handle) : Prop := handle < 2 ^ 64

/-- Whether the number of facts of a tuple can be written, and each of its handles. -/
def Tuple.Storable (tuple : Tuple) : Prop := Listable Handle.Storable tuple

/-- Whether an object can be stored as a value. -/
def Object.Storable (o : Object) : Prop := (Value.ofObject o).Storable

/-- Whether the number and the label of a node can be written. -/
structure NodeRecord.Storable (node : NodeRecord) : Prop where
  id : node.node < 2 ^ 32
  label : Short node.label

/-- Whether a fact can be stored with its handle and type. -/
structure FactRecord.Storable (fact : FactRecord) : Prop where
  handle : fact.handle.Storable
  typeName : Short fact.typeName
  object : fact.object.Storable

/-- What belongs to a node can be stored, and so can the id of the node. -/
def MemoryRecord.OnNode {α : Type} (storable : α → Prop) (entry : NodeId × α) : Prop :=
  entry.1 < 2 ^ 32 ∧ storable entry.2

/-- Whether the tables of the memories can be written, and all that they hold. -/
structure MemoryRecord.Storable (memory : MemoryRecord) : Prop where
  alpha : Listable (OnNode Tuple.Storable) memory.alpha
  beta : Listable (OnNode (Listable Tuple.Storable)) memory.beta
  blockers : Listable (OnNode (Listable fun (token, facts) =>
    Tuple.Storable token ∧ Tuple.Storable facts)) memory.blockers

/-- Whether an activation can be stored with its rule, tuple and numbers. -/
structure ActivationRecord.Storable (activation : ActivationRecord) : Prop where
  package : Short activation.package
  rule : Short activation.rule
  tuple : Tuple.Storable activation.tuple
  salience : -2 ^ 31 ≤ activation.salience ∧ activation.salience < 2 ^ 31
  sequence : activation.sequence < 2 ^ 64

/-- Whether a match can be stored with its rule and tuple. -/
structure MatchRecord.Storable (found : MatchRecord) : Prop where
  package : Short found.package
  rule : Short found.rule
  tuple : Tuple.Storable found.tuple

/-- Whether a snapshot can be stored: counters have the bits that they are read with, lengths have
up to four bytes, and the fields of objects are in ascending order. -/
structure Snapshot.Storable (snapshot : Snapshot) : Prop where
  nodes : Listable NodeRecord.Storable snapshot.nodes
  facts : Listable FactRecord.Storable snapshot.facts
  memory : snapshot.memory.Storable
  activations : Listable ActivationRecord.Storable snapshot.activations
  settled : Listable MatchRecord.Storable snapshot.settled
  globals : Listable (fun (name, value) => Short name ∧ value.Storable) snapshot.globals
  nextHandle : snapshot.nextHandle.Storable
  nextSequence : snapshot.nextSequence < 2 ^ 64

/-! ## Parts of snapshots -/

/-- A handle that can be stored is read back. -/
theorem Handle.keeps {handle : Handle} (storable : handle.Storable) : Keeps toItem ofItem? handle :=
  keeps_nat (Nat.le_refl 64) storable

/-- A tuple that can be stored is read back. -/
theorem Tuple.keeps {tuple : Tuple} (storable : Tuple.Storable tuple) :
    Keeps toItem ofItem? tuple :=
  keeps_list (storable.imp Handle.keeps)

private theorem Object.keeps {o : Object} (storable : o.Storable) : Keeps toItem ofItem? o := by
  rw [Object.Storable, Value.Storable] at storable
  obtain ⟨short, ascending, few, each⟩ := storable
  obtain ⟨fit, back⟩ := Value.keep_entries o.fields each
  refine ⟨Value.fits_object short few fit, ?_⟩
  have read := Value.names_objectFields.fields?_ofFields
    [.ofString o.typeName, .map (Value.toEntries o.fields)] rfl
  change (toItem o).fields? _ = _ at read
  simp only [ofItem?, read, string?_ofString, back, Object.ofFields_fields ascending,
    Option.bind_eq_bind, Option.bind_some, Option.pure_def]

private theorem NodeRecord.keeps {node : NodeRecord} (storable : node.Storable) :
    Keeps toItem ofItem? node := by
  have names : FieldNames ["node", "label"] := by constructor <;> decide
  have id : Keeps ofNat (nat? 32) node.node := keeps_nat (by decide) storable.id
  have label := keeps_string storable.label
  refine names.keeps [ofNat node.node, ofString node.label] rfl rfl ?_ fun read => ?_
  · simp only [List.forall_mem_cons]
    exact ⟨id.fits, label.fits, List.forall_mem_nil _⟩
  · rw [ofItem?, read, Option.bind_eq_bind, Option.bind_some]
    simp only [id.back, label.back, Option.bind_eq_bind, Option.bind_some,
      Option.pure_def]

private theorem FactRecord.keeps {fact : FactRecord} (storable : fact.Storable) :
    Keeps toItem ofItem? fact := by
  have names : FieldNames ["handle", "type_name", "object"] := by constructor <;> decide
  have handle := Handle.keeps storable.handle
  have typeName := keeps_string storable.typeName
  have object := Object.keeps storable.object
  refine names.keeps [fact.handle.toItem, ofString fact.typeName, fact.object.toItem] rfl rfl ?_
    fun read => ?_
  · simp only [List.forall_mem_cons]
    exact ⟨handle.fits, typeName.fits, object.fits, List.forall_mem_nil _⟩
  · rw [ofItem?, read, Option.bind_eq_bind, Option.bind_some]
    simp only [handle.back, typeName.back, object.back, Option.bind_eq_bind,
      Option.bind_some, Option.pure_def]

private theorem MemoryRecord.keeps_perNode {α : Type} {write : α → Item} {read : Item → Option α}
    {nodes : List (NodeId × α)} (listable : Listable (OnNode (Keeps write read)) nodes) :
    Keeps (perNode write) (perNode? read) nodes :=
  keeps_list (listable.imp fun {entry} storable =>
    keeps_pair (keeps_nat (by decide) storable.1) storable.2)

private theorem MemoryRecord.keeps {memory : MemoryRecord} (storable : memory.Storable) :
    Keeps toItem ofItem? memory := by
  have names : FieldNames ["seeded", "alpha", "beta", "blockers"] := by constructor <;> decide
  have alpha := keeps_perNode (storable.alpha.imp (And.imp_right Tuple.keeps))
  have beta := keeps_perNode (storable.beta.imp (And.imp_right fun tokens =>
    keeps_list (tokens.imp Tuple.keeps)))
  have blockers := keeps_perNode (storable.blockers.imp (And.imp_right fun blocked =>
    keeps_list (blocked.imp fun {entry} storable =>
      keeps_pair (Tuple.keeps storable.1) (Tuple.keeps storable.2))))
  refine names.keeps [.bool memory.seeded, _, _, _] rfl rfl ?_ fun read => ?_
  · simp only [List.forall_mem_cons]
    exact ⟨by simp only [Fits], alpha.fits, beta.fits, blockers.fits, List.forall_mem_nil _⟩
  · rw [ofItem?, read, Option.bind_eq_bind, Option.bind_some]
    simp only [bool?, alpha.back, beta.back, blockers.back, Option.bind_eq_bind,
      Option.bind_some, Option.pure_def]

private theorem ActivationRecord.keeps {activation : ActivationRecord}
    (storable : activation.Storable) :
    Keeps toItem ofItem? activation := by
  have names : FieldNames ["package", "rule", "tuple", "salience", "sequence"] := by
    constructor <;> decide
  have package := keeps_string storable.package
  have rule := keeps_string storable.rule
  have tuple := Tuple.keeps storable.tuple
  have salience : Keeps .int (signed? 32) activation.salience :=
    keeps_signed (by decide) storable.salience.1 storable.salience.2
  have sequence : Keeps ofNat (nat? 64) activation.sequence :=
    keeps_nat (Nat.le_refl 64) storable.sequence
  refine names.keeps [ofString activation.package, ofString activation.rule,
    Tuple.toItem activation.tuple, .int activation.salience, ofNat activation.sequence] rfl rfl ?_
    fun read => ?_
  · simp only [List.forall_mem_cons]
    exact ⟨package.fits, rule.fits, tuple.fits, salience.fits, sequence.fits,
      List.forall_mem_nil _⟩
  · rw [ofItem?, read, Option.bind_eq_bind, Option.bind_some]
    simp only [package.back, rule.back, tuple.back, salience.back, sequence.back,
      Option.bind_eq_bind, Option.bind_some, Option.pure_def]

private theorem Settled.keeps (state : Settled) :
    Keeps (fun state => ofString (name state)) ofItem? state := by
  have names : FieldNames kinds := by constructor <;> decide
  have short : Short state.name := by cases state <;> decide
  refine ⟨fits_ofString.mpr short, ?_⟩
  cases state
  case fired => exact congrArg ofPosition? (names.position?_ofString 0 rfl)
  case suppressed => exact congrArg ofPosition? (names.position?_ofString 1 rfl)

private theorem MatchRecord.keeps {found : MatchRecord} (storable : found.Storable) :
    Keeps toItem ofItem? found := by
  have names : FieldNames ["package", "rule", "tuple", "state"] := by constructor <;> decide
  have package := keeps_string storable.package
  have rule := keeps_string storable.rule
  have tuple := Tuple.keeps storable.tuple
  have state := found.state.keeps
  refine names.keeps [ofString found.package, ofString found.rule, Tuple.toItem found.tuple,
    ofString found.state.name] rfl rfl ?_ fun read => ?_
  · simp only [List.forall_mem_cons]
    exact ⟨package.fits, rule.fits, tuple.fits, state.fits, List.forall_mem_nil _⟩
  · rw [ofItem?, read, Option.bind_eq_bind, Option.bind_some]
    simp only [package.back, rule.back, tuple.back, state.back,
      Option.bind_eq_bind, Option.bind_some, Option.pure_def]

/-! ## Snapshots -/

namespace Snapshot

private theorem keeps {snapshot : Snapshot} (small : snapshot.version < 2 ^ 32)
    (storable : snapshot.Storable) : Keeps toItem ofItem? snapshot := by
  have names : FieldNames fieldNames := by constructor <;> decide
  have version : Keeps ofNat (nat? 32) snapshot.version := keeps_nat (by decide) small
  have nodes := keeps_list (storable.nodes.imp NodeRecord.keeps)
  have facts := keeps_list (storable.facts.imp FactRecord.keeps)
  have memory := MemoryRecord.keeps storable.memory
  have activations := keeps_list (storable.activations.imp ActivationRecord.keeps)
  have settled := keeps_list (storable.settled.imp MatchRecord.keeps)
  have globals := keeps_list (storable.globals.imp fun {entry} storable =>
    keeps_pair (keeps_string storable.1) (entry.2.keeps storable.2))
  have nextHandle := Handle.keeps storable.nextHandle
  have nextSequence : Keeps ofNat (nat? 64) snapshot.nextSequence :=
    keeps_nat (Nat.le_refl 64) storable.nextSequence
  refine names.keeps [ofNat snapshot.version, _, _, snapshot.memory.toItem, _, _, _,
    snapshot.nextHandle.toItem, ofNat snapshot.nextSequence] rfl rfl ?_ fun read => ?_
  · simp only [List.forall_mem_cons]
    exact ⟨version.fits, nodes.fits, facts.fits, memory.fits, activations.fits, settled.fits,
      globals.fits, nextHandle.fits, nextSequence.fits, List.forall_mem_nil _⟩
  · rw [ofItem?, read, Option.bind_eq_bind, Option.bind_some]
    simp only [version.back, nodes.back, facts.back, memory.back, activations.back,
      settled.back, globals.back, nextHandle.back, nextSequence.back, Option.bind_eq_bind,
      Option.bind_some, Option.pure_def]

/-- Bytes are read as the snapshot of the item that they start with. -/
theorem ofBytes_of_read {bytes rest : MessagePack.Bytes} {item : Item} {snapshot : Snapshot}
    (read : MessagePack.decode bytes = some (item, rest)) (back : ofItem? item = some snapshot)
    (current : snapshot.version = snapshotVersion) : ofBytes bytes = .ok snapshot := by
  simp only [ofBytes, read, Option.bind_some, back]
  exact if_pos current

/-- A snapshot of the current version is read back from its bytes as it was. -/
theorem ofBytes_toBytes {snapshot : Snapshot} (current : snapshot.version = snapshotVersion)
    (storable : snapshot.Storable) : ofBytes snapshot.toBytes = .ok snapshot := by
  have small : snapshot.version < 2 ^ 32 := by
    rw [current]
    decide
  have kept := keeps small storable
  have read := MessagePack.decode_encode kept.fits []
  rw [List.append_nil] at read
  exact ofBytes_of_read read kept.back current

/-! ## A snapshot with everything in it -/

/-- A value with all kinds of values in it. -/
def Stored.cart : Value :=
  .object "shop.Cart"
    [("lines", .list [.object "shop.Line" [("price", .float ⟨0x7ff8000000000001⟩)], .list []]),
      ("open", .bool true), ("owner", .nil), ("title", .string "Körbchen"),
      ("total", .int Int64.minValue)]

/-- A snapshot with something in each of its fields. -/
def Stored.full : Snapshot where
  nodes := [⟨0, "object-type"⟩, ⟨1, "not"⟩, ⟨2, "terminal"⟩]
  facts := [⟨1, "shop.Stock", ⟨"shop.Stock", [("count", .int 70000)]⟩⟩]
  memory := {
    seeded := true
    alpha := [(0, [1])]
    beta := [(1, [[]])]
    blockers := [(1, [([], [1])])] }
  activations := [⟨"shop", "restock", [1], -5, 7⟩]
  settled := [⟨"shop", "close", [1], .fired⟩, ⟨"shop", "open", [], .suppressed⟩]
  globals := [("cart", cart)]
  nextHandle := 2 ^ 64 - 1
  nextSequence := 8

private theorem Stored.cart_storable : cart.Storable := by
  simp only [cart, Value.Storable, Value.FieldsStorable, Value.AllStorable]
  unfold Ascending
  decide

private theorem Stored.full_storable : full.Storable where
  nodes := by
    simp only [full, Listable, List.forall_mem_cons]
    exact ⟨by decide, ⟨by decide, by decide⟩, ⟨by decide, by decide⟩, ⟨by decide, by decide⟩,
      List.forall_mem_nil _⟩
  facts := by
    have object : (⟨"shop.Stock", [("count", .int 70000)]⟩ : Object).Storable := by
      simp only [Object.Storable, Value.Storable, Value.FieldsStorable]
      unfold Ascending
      decide
    simp only [full, Listable, List.forall_mem_cons]
    exact ⟨by decide, ⟨by unfold Handle.Storable; decide, by decide, object⟩, List.forall_mem_nil _⟩
  memory := by
    constructor
    all_goals
      simp only [full, Listable, MemoryRecord.OnNode, Tuple.Storable, Handle.Storable,
        List.forall_mem_cons, List.not_mem_nil, false_implies, implies_true, and_true]
      decide
  activations := by
    simp only [full, Listable, List.forall_mem_cons]
    refine ⟨by decide, ⟨by decide, by decide, ?_, by decide, by decide⟩, List.forall_mem_nil _⟩
    unfold Tuple.Storable Listable Handle.Storable
    decide
  settled := by
    simp only [full, Listable, List.forall_mem_cons]
    refine ⟨by decide, ⟨by decide, by decide, ?_⟩, ⟨by decide, by decide, ?_⟩,
      List.forall_mem_nil _⟩
    all_goals
      unfold Tuple.Storable Listable Handle.Storable
      decide
  globals := by
    simp only [full, Listable, List.forall_mem_cons]
    exact ⟨by decide, ⟨by decide, cart_storable⟩, List.forall_mem_nil _⟩
  nextHandle := by simp only [full, Handle.Storable]; decide
  nextSequence := by decide

/-- A snapshot in which no table is empty is read back from its bytes. -/
theorem Stored.full_readsBack : full.version = snapshotVersion ∧ full.Storable ∧
    ofBytes full.toBytes = .ok full :=
  ⟨rfl, full_storable, ofBytes_toBytes rfl full_storable⟩

end Snapshot

end Rete
