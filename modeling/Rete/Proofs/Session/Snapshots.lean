import Rete.Proofs.Session.Admission
import Rete.Proofs.Session.Likeness
import Rete.Proofs.Session.Structure

/-!
# Restored sessions

Whatever was asked of a session, the snapshot taken of it between requests can be restored against
its knowledge base, and yields the session without its empty stores (`Session.restore_record`). So
the restored session has the same snapshot and answers every request like the old one
(`KnowledgeBase.Made.restored_serves`).
-/

namespace Rete

/-! ## Memories -/

/-- The memories without the empty stores. -/
def NetworkMemory.pruned (memory : NetworkMemory) : NetworkMemory where
  seeded := memory.seeded
  alpha := memory.alpha.filter fun _ facts => !facts.isEmpty
  beta := memory.beta.filter fun _ tokens => !tokens.isEmpty
  blockers := memory.blockers.filter fun _ blocked => !blocked.isEmpty

private theorem NetworkMemory.getD_filter_nonempty {κ ν : Type} [Ord κ]
    (stores : SortedMap NodeId (SortedMap κ ν)) (id : NodeId) :
    ((stores.filter fun _ store => !store.isEmpty).find? id).getD ∅ =
      (stores.find? id).getD ∅ := by
  rw [find?_filter_nonempty]
  cases empty : ((stores.find? id).getD ∅).isEmpty with
  | false => rfl
  | true => exact SortedMap.ext (List.isEmpty_iff.mp empty).symm

private theorem NetworkMemory.alike_pruned (memory : NetworkMemory) :
    memory.pruned.Alike memory where
  seeded := rfl
  factsAt := getD_filter_nonempty memory.alpha
  tokensAt := getD_filter_nonempty memory.beta
  blockedAt := getD_filter_nonempty memory.blockers

/-- Memories that hold the same are intact as well. -/
theorem Matching.Intact.of_alike {network : Network} {agenda : Agenda} {facts : Facts}
    {one other : Matching} (intact : Intact network agenda facts other) (alike : one.Alike other) :
    Intact network agenda facts one where
  coherent := by
    refine intact.coherent.transfer alike.memory.seeded (fun id tuple => ?_) (fun id tuple => ?_)
      (fun {found} known => ?_) fun {id fact} ⟨input, isRight, held⟩ => ?_
    · exact congrArg (SortedMap.contains · tuple) (alike.memory.tokensAt id)
    · exact congrArg (SortedMap.find? · tuple) (alike.memory.blockedAt id)
    · unfold Matching.agenda at known ⊢
      exact alike.changes ▸ known
    · exact ⟨input, isRight, alike.memory.factsAt input ▸ held⟩
  layered := intact.layered.of_factsAt alike.memory.factsAt

/-- Reading the entries of a map one by one gives the map. -/
theorem SortedMap.foldlM_entries {κ ν ι : Type} [Ord κ] [Std.TransOrd κ] [Std.LawfulEqOrd κ]
    [DecidableEq κ] (map : SortedMap κ ν) (record : κ × ν → ι)
    {step : SortedMap κ ν → ι → Except Error (SortedMap κ ν)}
    (each : ∀ read key value, map.find? key = some value →
      step read (record (key, value)) = .ok (read.insert key value)) :
    (map.entries.map record).foldlM step ∅ = .ok map := by
  rw [List.foldlM_map]
  have run : ∃ last, map.entries.foldlM (fun read entry => step read (record entry)) ∅ = .ok last ∧
      last = .ofList map.entries := by
    refine exists_foldlM (fun done read => read = SortedMap.ofList done) rfl
      fun done entry rest read split same => ?_
    have member : entry ∈ map.entries := split ▸ List.mem_append_right _ List.mem_cons_self
    refine ⟨_, each read entry.1 entry.2 ((mem_entries ..).mp member), ?_⟩
    rw [same, ofList, ofList, List.foldl_append]
    rfl
  obtain ⟨last, isLast, whole⟩ := run
  rw [isLast, whole, ofList_entries]

namespace MemoryRecord

/-- All facts that are to be live are. -/
theorem expectLive_eq_ok {facts : Facts} {handles : List Handle}
    (live : ∀ handle ∈ handles, facts.contains handle = true) :
    expectLive facts handles = .ok () := by
  have none : handles.find? (fun handle => !facts.contains handle) = none :=
    List.find?_eq_none.mpr fun handle member => by rw [live handle member]; decide
  rw [expectLive, none]

/-- A node of one of the expected kinds is there. -/
theorem expectNode_eq_ok {network : Network} {id : NodeId} {kind : NodeKind} {labels : List String}
    (live : network.kind? id = some kind) (expected : labels.contains kind.label = true) :
    expectNode network id labels = .ok () := by
  obtain ⟨node, isNode, rfl⟩ := Network.kind?_eq_some.mp live
  simp only [expectNode, isNode, expected, ↓reduceIte]

end MemoryRecord

/-! ## The stores of a session -/

namespace Session

open Matching

variable {session : Session}

/-- The store of a node that is recorded has a member. -/
theorem member_of_recorded {κ ν : Type} [Ord κ] [Std.LawfulEqOrd κ]
    {stores : SortedMap NodeId (SortedMap κ ν)} {id : NodeId} {store : SortedMap κ ν}
    (recorded : (stores.filter fun _ store => !store.isEmpty).find? id = some store) :
    stores.find? id = some store ∧ ∃ key value, store.find? key = some value := by
  rw [SortedMap.find?_filter, Option.filter_eq_some_iff, Bool.not_eq_true'] at recorded
  obtain ⟨key, member⟩ := SortedMap.isEmpty_eq_false_iff.mp recorded.2
  exact ⟨recorded.1, key, SortedMap.contains_eq_true.mp member⟩

namespace Intact

variable (intact : session.Intact)

include intact

private theorem readAlpha_record :
    MemoryRecord.readAlpha session.network session.memory.facts session.matched.toRecord.alpha =
      .ok session.matched.pruned.alpha := by
  refine SortedMap.foldlM_entries session.matched.pruned.alpha
    (fun entry => (entry.1, entry.2.keys)) fun read id facts recorded => ?_
  obtain ⟨found, handle, value, member⟩ := member_of_recorded recorded
  have held : ∀ {handle}, facts.contains handle = true →
      (session.matched.factsAt id).contains handle = true := by
    simp only [NetworkMemory.factsAt, found, Option.getD_some, imp_self, implies_true]
  obtain ⟨kind, live, alpha⟩ :=
    intact.matched.layered.alphaLevel (held (SortedMap.contains_eq_true.mpr ⟨value, member⟩))
  have expected : ["object-type", "alpha"].contains kind.label = true := by
    cases kind <;> simp_all [NodeKind.isAlphaLevel, NodeKind.label]
  have alive : ∀ handle ∈ facts.keys, session.memory.facts.contains handle = true :=
    fun handle within => intact.live ⟨id, held (SortedMap.mem_keys.mp within)⟩
  simp only [MemoryRecord.expectNode_eq_ok live expected, MemoryRecord.expectLive_eq_ok alive,
    SortedSet.ofList_keys]
  rfl

private theorem readBeta_record :
    MemoryRecord.readBeta session.network session.memory.facts session.matched.toRecord.beta =
      .ok session.matched.pruned.beta := by
  refine SortedMap.foldlM_entries session.matched.pruned.beta
    (fun entry => (entry.1, entry.2.keys)) fun read id tokens recorded => ?_
  obtain ⟨found, tuple, value, member⟩ := member_of_recorded recorded
  have token : ∀ {tuple}, tokens.contains tuple = true →
      (session.matched.tokensAt id).contains tuple = true := by
    simp only [NetworkMemory.tokensAt, found, Option.getD_some, imp_self, implies_true]
  obtain ⟨kind, live, beta⟩ := intact.matched.coherent.tidy.token
    (token (SortedMap.contains_eq_true.mpr ⟨value, member⟩))
  have expected : ["join", "not", "eval"].contains kind.label = true := by
    cases kind with
    | join left right tests negated functions => cases negated <;> rfl
    | eval => rfl
    | objectType | alpha | terminal => cases beta
  have alive : ∀ tuple ∈ tokens.keys,
      MemoryRecord.expectLive session.memory.facts tuple = .ok () := fun tuple within =>
    MemoryRecord.expectLive_eq_ok fun handle inside =>
      intact.live_of_mentions (.token (token (SortedMap.mem_keys.mp within)) inside)
  have each : tokens.keys.forM (MemoryRecord.expectLive session.memory.facts) = .ok () :=
    forM_eq_ok alive
  simp only [MemoryRecord.expectNode_eq_ok live expected, each, SortedSet.ofList_keys]
  rfl

private theorem readBlocked_record {id : NodeId} {blocked : Blocked}
    (found : session.matched.blockers.find? id = some blocked) :
    MemoryRecord.readBlocked session.memory.facts id
        (blocked.entries.map fun entry => (entry.1, entry.2.keys)) = .ok blocked := by
  refine SortedMap.foldlM_entries blocked (fun entry => (entry.1, entry.2.keys))
    fun read tuple facts held => ?_
  have blocks : (session.matched.blockedAt id).find? tuple = some facts := by
    simpa only [NetworkMemory.blockedAt, found, Option.getD_some] using held
  have nonempty : facts.keys.isEmpty = false := by
    obtain ⟨left, right, tests, functions, -, -, -, nonempty, -⟩ :=
      intact.structured.blocked blocks
    rw [SortedMap.keys, List.isEmpty_map]
    exact nonempty
  have alive : MemoryRecord.expectLive session.memory.facts tuple = .ok () :=
    MemoryRecord.expectLive_eq_ok fun handle inside =>
      intact.live_of_mentions (.blocked blocks inside)
  have blockers : MemoryRecord.expectLive session.memory.facts facts.keys = .ok () :=
    MemoryRecord.expectLive_eq_ok fun handle inside =>
      intact.live_of_mentions (.blocker blocks (SortedMap.mem_keys.mp inside))
  simp only [alive, blockers, nonempty, SortedSet.ofList_keys, Bool.false_eq_true, ↓reduceIte]
  rfl

private theorem readBlockers_record :
    MemoryRecord.readBlockers session.network session.memory.facts
      session.matched.toRecord.blockers = .ok session.matched.pruned.blockers := by
  refine SortedMap.foldlM_entries session.matched.pruned.blockers
    (fun entry => (entry.1, entry.2.entries.map fun held => (held.1, held.2.keys)))
    fun read id blocked recorded => ?_
  obtain ⟨found, tuple, facts, member⟩ := member_of_recorded recorded
  have blocks : (session.matched.blockedAt id).find? tuple = some facts := by
    simpa only [NetworkMemory.blockedAt, found, Option.getD_some] using member
  obtain ⟨left, right, tests, functions, live, -⟩ := intact.structured.blocked blocks
  have expected : ["not"].contains (NodeKind.join left right tests true functions).label = true :=
    rfl
  simp only [MemoryRecord.expectNode_eq_ok live expected, intact.readBlocked_record found]
  rfl

/-- The memories that are read back are the recorded ones without the empty stores. -/
theorem toMemory_toRecord :
    session.matched.toRecord.toMemory session.network session.memory.facts =
      .ok session.matched.pruned := by
  simp only [MemoryRecord.toMemory, intact.readAlpha_record, intact.readBeta_record,
    intact.readBlockers_record]
  rfl

/-! ## The agenda -/

/-- The rule of a tracked match can be recorded by its name, and is found by it. -/
theorem ruleName_eq {found : Match} (known : session.agenda.knows found = true) :
    ∃ rule, session.network.rule? found.rule = some rule ∧
      session.network.ruleId? rule.package rule.name = some found.rule := by
  obtain ⟨entry, left, isRule, -⟩ := intact.structured.tracked known
  refine ⟨entry.rule, ?_, intact.sound.names.mpr ⟨entry, isRule, rfl⟩⟩
  simp only [Network.rule?, isRule, Option.map_some]

end Intact

end Session

/-- The package and name of the rule of an id. -/
def Network.nameOf (network : Network) (id : RuleId) : String × String :=
  ((network.rule? id).map fun rule => (rule.package, rule.name)).getD ("", "")

/-- What is recorded of a waiting match. -/
def Activation.record (network : Network) (activation : Activation) : ActivationRecord where
  package := (network.nameOf activation.rule).1
  rule := (network.nameOf activation.rule).2
  tuple := activation.tuple
  salience := activation.salience
  sequence := activation.sequence

/-- What is recorded of a match that does not wait. -/
def Settled.record (network : Network) (settled : Match × Settled) : MatchRecord where
  package := (network.nameOf settled.1.rule).1
  rule := (network.nameOf settled.1.rule).2
  tuple := settled.1.tuple
  state := settled.2

namespace Session

open Matching

variable {session : Session}

/-- What is recorded of a session. -/
def record (session : Session) : Snapshot where
  nodes := session.network.shape
  facts := session.memory.facts.entries.map fun (handle, object) =>
    ⟨handle, object.typeName, object⟩
  memory := session.matched.toRecord
  activations := session.agenda.pending.map (·.record session.network)
  settled := session.agenda.settled.map (Settled.record session.network)
  globals := session.memory.globals.entries
  nextHandle := session.memory.nextHandle
  nextSequence := session.agenda.nextSequence

namespace Intact

variable (intact : session.Intact)

include intact

private theorem ruleName_eq_ok {found : Match} (known : session.agenda.knows found = true) :
    session.ruleName found.rule = .ok (session.network.nameOf found.rule) := by
  obtain ⟨rule, isRule, -⟩ := intact.ruleName_eq known
  simp only [ruleName, Network.nameOf, isRule, Option.map_some, Option.getD_some]

/-- A session that was not given up has a snapshot. -/
theorem snapshot_eq (alive : session.disposed = false) : session.snapshot = .ok session.record := by
  have activations : session.agenda.pending.mapM session.recordActivation =
      .ok (session.agenda.pending.map (·.record session.network)) :=
    mapM_eq_ok fun activation waits => by
      simp only [recordActivation, intact.ruleName_eq_ok (intact.knows_pending waits)]
      rfl
  have settled : session.agenda.settled.mapM session.recordSettled =
      .ok (session.agenda.settled.map (Settled.record session.network)) :=
    mapM_eq_ok fun entry member => by
      simp only [recordSettled, intact.ruleName_eq_ok (Agenda.knows_of_mem_settled member)]
      rfl
  simp only [snapshot, alive, activations, settled]
  rfl

/-- A tracked match is found again by the name of its rule. -/
theorem findMatch_eq {base : KnowledgeBase} (network : session.network = base.network)
    {found : Match} (known : session.agenda.knows found = true) :
    Snapshot.findMatch base session.memory.facts (session.network.nameOf found.rule).1
      (session.network.nameOf found.rule).2 found.tuple = .ok found := by
  obtain ⟨rule, isRule, isFound⟩ := intact.ruleName_eq known
  rw [network] at isFound
  have alive : MemoryRecord.expectLive session.memory.facts found.tuple = .ok () :=
    MemoryRecord.expectLive_eq_ok fun handle within => intact.live_of_knows known within
  simp only [Snapshot.findMatch, Network.nameOf, isRule, Option.map_some, Option.getD_some,
    isFound, alive]
  rfl

/-- The waiting matches are put back one by one. -/
theorem restoreActivations {base : KnowledgeBase} (network : session.network = base.network) :
    ∃ part, (session.agenda.pending.map (·.record session.network)).foldlM
        (Snapshot.restoreActivation base session.memory.facts) {} = .ok part ∧
      session.agenda.Part session.agenda.queue.entries [] part := by
  rw [Agenda.pending, List.map_map, List.foldlM_map]
  refine exists_foldlM (fun done part => session.agenda.Part done [] part) (.empty _)
    fun done entry rest part split isPart => ?_
  obtain ⟨more, restored, next⟩ := isPart.restorePending? intact.consistent split
  refine ⟨more, ?_, next⟩
  have member : entry ∈ session.agenda.queue.entries :=
    split ▸ List.mem_append_right _ List.mem_cons_self
  have known : session.agenda.knows entry.2 = true := SortedMap.contains_eq_true.mpr
    ⟨_, intact.consistent.queued.mp ((SortedMap.mem_entries ..).mp member)⟩
  have isFound := intact.findMatch_eq network known
  simp only [Function.comp, Activation.record, Snapshot.restoreActivation, isFound]
  exact congrArg (Snapshot.once _ _ _) restored

/-- Then those that do not wait. -/
theorem restoreSettled {base : KnowledgeBase} (network : session.network = base.network)
    {part : Agenda} (isPart : session.agenda.Part session.agenda.queue.entries [] part) :
    ∃ all, (session.agenda.settled.map (Settled.record session.network)).foldlM
        (Snapshot.restoreSettled base session.memory.facts) part = .ok all ∧
      session.agenda.Part session.agenda.queue.entries session.agenda.settled all := by
  rw [List.foldlM_map]
  refine exists_foldlM
    (fun done part => session.agenda.Part session.agenda.queue.entries done part) isPart
    fun done entry rest part split isPart => ?_
  obtain ⟨more, restored, next⟩ := isPart.restoreSettled? intact.consistent split
  refine ⟨more, ?_, next⟩
  have member : entry ∈ session.agenda.settled :=
    split ▸ List.mem_append_right _ List.mem_cons_self
  have isFound := intact.findMatch_eq network (Agenda.knows_of_mem_settled member)
  simp only [Settled.record, Snapshot.restoreSettled, isFound]
  exact congrArg (Snapshot.once _ _ _) restored

end Intact

/-! ## Facts and globals -/

namespace Admissible

variable (admissible : session.Admissible)

include admissible

private theorem restoreGlobals :
    session.memory.globals.entries.foldlM (Snapshot.restoreGlobal session.globalTypes) {} =
      .ok { globals := session.memory.globals } := by
  have run : ∃ last, session.memory.globals.entries.foldlM
      (Snapshot.restoreGlobal session.globalTypes) {} = .ok last ∧
      last = { globals := .ofList session.memory.globals.entries } := by
    refine exists_foldlM
      (fun done (memory : WorkingMemory) => memory = { globals := .ofList done }) rfl
      fun done entry rest memory split same => ?_
    have member : entry ∈ session.memory.globals.entries :=
      split ▸ List.mem_append_right _ List.mem_cons_self
    obtain ⟨declared, isDeclared, accepts⟩ :=
      admissible.admits _ _ ((SortedMap.mem_entries ..).mp member)
    refine ⟨memory.setGlobal entry.1 entry.2, ?_, ?_⟩
    · simp only [Snapshot.restoreGlobal, isDeclared, accepts, ↓reduceIte]
    · rw [same, WorkingMemory.setGlobal, SortedMap.ofList, SortedMap.ofList, List.foldl_append]
      rfl
  obtain ⟨last, restored, same⟩ := run
  rw [restored, same, SortedMap.ofList_entries]

/-- The facts are put back under their handles, which are below the next one. -/
theorem restoreFacts (intact : session.Intact) :
    ∃ next ≤ session.memory.nextHandle,
      (session.memory.facts.entries.map fun (handle, object) =>
          (⟨handle, object.typeName, object⟩ : FactRecord)).foldlM
        (Snapshot.restoreFact session.catalog) { globals := session.memory.globals } =
      .ok { facts := session.memory.facts, globals := session.memory.globals,
            nextHandle := next } := by
  rw [List.foldlM_map]
  have run : ∃ last, session.memory.facts.entries.foldlM (fun memory (entry : Handle × Object) =>
        Snapshot.restoreFact session.catalog memory ⟨entry.1, entry.2.typeName, entry.2⟩)
      { globals := session.memory.globals } = .ok last ∧
      ∃ next ≤ session.memory.nextHandle, last =
        ⟨.ofList session.memory.facts.entries, session.memory.globals, next⟩ := by
    refine exists_foldlM (fun done (memory : WorkingMemory) =>
      ∃ next ≤ session.memory.nextHandle, memory =
      ⟨.ofList done, session.memory.globals, next⟩) ⟨1, admissible.counted, rfl⟩
      fun done entry rest memory split restored => ?_
    obtain ⟨next, below, rfl⟩ := restored
    have member : entry ∈ session.memory.facts.entries :=
      split ▸ List.mem_append_right _ List.mem_cons_self
    have stored := (SortedMap.mem_entries ..).mp member
    have live : session.memory.contains entry.1 = true :=
      SortedMap.contains_eq_true.mpr ⟨_, stored⟩
    refine ⟨_, ?_, max next (entry.1 + 1), Nat.max_le.mpr ⟨below, intact.below live⟩, rfl⟩
    simp only [Snapshot.restoreFact, ne_eq, not_true_eq_false, admissible.typed stored,
      ↓reduceIte, WorkingMemory.put, SortedMap.ofList, List.foldl_append]
    rfl
  obtain ⟨last, restored, next, below, same⟩ := run
  exact ⟨next, below, by rw [restored, same, SortedMap.ofList_entries]⟩

end Admissible

/-! ## Restoring -/

/-- The session that a snapshot is restored to. -/
def restored (session : Session) : Session :=
  { session with matched := session.matched.pruned, halted := false }

/-- The restored session differs from the old one in nothing that matters. -/
theorem alike_restored (session : Session) : session.restored.Alike false session where
  catalog := rfl
  network := rfl
  globalTypes := rfl
  config := rfl
  memory := rfl
  matched := session.matched.alike_pruned
  agenda := rfl
  disposed := rfl
  halted never := by cases never

/-- The restored session is intact as well. -/
theorem Intact.restored (intact : session.Intact) : session.restored.Intact where
  sound := intact.sound
  matched := intact.matched.of_alike ⟨session.matched.alike_pruned, rfl⟩
  below := intact.below
  consistent := intact.consistent

/-- What is recorded of a session while no rule is firing can be restored against the knowledge base
of the session, with any settings. -/
theorem restore_record_with (intact : session.Intact) (admissible : session.Admissible)
    (idle : session.Idle) (alive : session.disposed = false) {base : KnowledgeBase}
    (catalog : session.catalog = base.catalog) (network : session.network = base.network)
    (globals : session.globalTypes = base.globals) (config : SessionConfig) :
    session.record.restore base config = .ok { session.restored with config } := by
  obtain ⟨next, below, facts⟩ := admissible.restoreFacts intact
  obtain ⟨part, activations, isPart⟩ := intact.restoreActivations network
  obtain ⟨all, settled, isAll⟩ := intact.restoreSettled network isPart
  have shape : Snapshot.checkShape base.network session.record.nodes = .ok () := by
    simp only [Snapshot.checkShape, record, network, ↓reduceIte]
  have globalsRead := admissible.restoreGlobals
  have memories := intact.toMemory_toRecord
  rw [catalog] at facts
  rw [globals] at globalsRead
  rw [network] at memories
  have agenda : all.reserve session.agenda.nextSequence = session.agenda :=
    isAll.eq_of_all intact.consistent idle
  have memory : WorkingMemory.reserve ⟨session.memory.facts, session.memory.globals, next⟩
      session.memory.nextHandle = session.memory := by
    simp only [WorkingMemory.reserve, Nat.max_eq_right below]
  simp only [Snapshot.restore, shape]
  simp only [record, globalsRead, facts, memories, activations, settled, agenda, memory, bind,
    Except.bind, pure, Except.pure, KnowledgeBase.unseededSession]
  simp only [restored, ← catalog, ← network, ← globals, ← alive]

/-- The snapshot of a session, taken while no rule is firing, can be restored against the knowledge
base of the session. -/
theorem restore_record (intact : session.Intact) (admissible : session.Admissible)
    (idle : session.Idle) (alive : session.disposed = false) {base : KnowledgeBase}
    (catalog : session.catalog = base.catalog) (network : session.network = base.network)
    (globals : session.globalTypes = base.globals) :
    session.record.restore base session.config = .ok session.restored :=
  restore_record_with intact admissible idle alive catalog network globals session.config

/-- What the snapshot of a session is restored to, if it was taken while no rule was firing. -/
theorem eq_of_restore (intact : session.Intact) (admissible : session.Admissible)
    (idle : session.Idle) {base : KnowledgeBase} (catalog : session.catalog = base.catalog)
    (network : session.network = base.network) (globals : session.globalTypes = base.globals)
    {snapshot : Snapshot} (taken : session.snapshot = .ok snapshot) {config : SessionConfig}
    {after : Session} (restores : snapshot.restore base config = .ok after) :
    after = { session.restored with config } := by
  cases alive : session.disposed with
  | true =>
      rw [Session.snapshot, if_pos alive] at taken
      cases taken
  | false =>
      cases taken.symm.trans (intact.snapshot_eq alive)
      have restored :=
        restore_record_with intact admissible idle alive catalog network globals config
      exact Except.ok.inj (restores.symm.trans restored)

end Session

namespace KnowledgeBase

variable {base : KnowledgeBase} {config : SessionConfig}

/-- The sessions of a knowledge base that requests lead to, also those that fail. -/
inductive Reaches (base : KnowledgeBase) (config : SessionConfig) : Session → Prop
  | new {session : Session} (made : base.newSession config = .ok session) :
      Reaches base config session
  | asked {before after : SessionRun} {request : Request} {result : Except Error Answer}
      (reaches : Reaches base config before.session)
      (run : Ends (SessionM.perform request) before result after) :
      Reaches base config after.session

namespace Reaches

variable {session : Session}

/-- Every request consists of steps. -/
theorem induct {holds : Session → Prop} (reaches : base.Reaches config session)
    (new : ∀ {session}, base.newSession config = .ok session → holds session)
    (step : ∀ {session after failures}, holds session → session.Step failures after →
      holds after) : holds session := by
  induction reaches with
  | new made => exact new made
  | asked _ run ih =>
      have kept : Session.Kept fun session _ => holds session := ⟨step⟩
      exact (SessionM.Kept.perform kept _).keeps run ih

private theorem intact (reaches : base.Reaches config session) (sound : base.network.Sound) :
    session.Intact :=
  reaches.induct (.new sound) fun intact step => intact.step step

private theorem admissible (reaches : base.Reaches config session) : session.Admissible :=
  reaches.induct .new fun admissible step => admissible.step step

private theorem retains (reaches : base.Reaches config session) :
    (base.unseededSession config).Retains session := by
  refine reaches.induct (fun {session} made => ?_) fun {session after failures} retains step => ?_
  · obtain ⟨matching, -, rfl⟩ := Session.follows_of_newSession made
    exact ⟨rfl, rfl, rfl, rfl⟩
  · exact retains.trans step.retains

/-- Between requests no rule is firing. -/
theorem idle (reaches : base.Reaches config session) : session.Idle := by
  induction reaches with
  | new made => exact .new made
  | asked _ run ih => exact (SessionM.perform_resting _).keeps run ih

end Reaches

/-- Every session that was not given up has a snapshot, which can be restored. The restored session
has the same snapshot and answers all requests that follow like the old one: the results, the
events, the facts, the globals and the agenda are the same, and so are later snapshots. -/
theorem Made.restored_serves (made : base.Made) {session : Session}
    (reaches : base.Reaches config session) (alive : session.disposed = false) :
    ∃ snapshot restored, session.snapshot = .ok snapshot ∧
      snapshot.restore base config = .ok restored ∧ restored.snapshot = .ok snapshot ∧
      ∀ requests, (restored.serve requests).1 = (session.serve requests).1 ∧
        (restored.serve requests).2.memory = (session.serve requests).2.memory ∧
        (restored.serve requests).2.agenda = (session.serve requests).2.agenda ∧
        (restored.serve requests).2.snapshot = (session.serve requests).2.snapshot := by
  have intact := reaches.intact made.proper.network.sound
  have retains := reaches.retains
  have taken := intact.snapshot_eq alive
  have restored := Session.restore_record intact reaches.admissible reaches.idle alive
    retains.catalog retains.network retains.globalTypes
  rw [retains.config] at restored
  have alike := session.alike_restored
  refine ⟨session.record, session.restored, taken, restored, alike.snapshot.trans taken,
    fun requests => ?_⟩
  obtain ⟨answers, last⟩ := alike.serve requests
  exact ⟨answers, last.memory, last.agenda, last.snapshot⟩

end KnowledgeBase

namespace Sensors

private theorem asking_reaches {request : Request} {before : SessionRun}
    (reaches : base.Reaches {} before.session) : base.Reaches {} (asking request before).session :=
  reaches.asked (ends_run (SessionM.perform request) before)

private theorem failed_reaches : base.Reaches {} failed.session :=
  asking_reaches <| asking_reaches <| asking_reaches <| .new opened_eq

/-- The session in which a reading was taken back can be restored, and goes on like before. -/
theorem failed_restored_serves : base.Made ∧ base.Reaches {} failed.session ∧
    failed.session.disposed = false ∧
    ∃ snapshot restored, failed.session.snapshot = .ok snapshot ∧
      snapshot.restore base {} = .ok restored ∧ restored.snapshot = .ok snapshot ∧
      ∀ requests, (restored.serve requests).1 = (failed.session.serve requests).1 ∧
        (restored.serve requests).2.memory = (failed.session.serve requests).2.memory ∧
        (restored.serve requests).2.agenda = (failed.session.serve requests).2.agenda ∧
        (restored.serve requests).2.snapshot = (failed.session.serve requests).2.snapshot := by
  have alive : failed.session.disposed = false := by decide +kernel
  exact ⟨made, failed_reaches, alive, KnowledgeBase.Made.restored_serves made failed_reaches alive⟩

end Sensors

end Rete
