import Rete.Proofs.Session.Structure
import Rete.Snapshot.Basic

/-!
# What is restored

A snapshot that can be restored is put back record by record: every match is tracked in the state
that was recorded, and a waiting one gets the recorded place in the queue. A record is refused when
its match was recorded before, but not when its place is taken: the later of two records with one
place pushes the earlier one out of the queue. So all recorded matches wait to fire exactly if no
two of them have the same place (`KnowledgeBase.Made.recorded_of_restore`).
-/

namespace Rete

/-! ## Maps of entries -/

namespace SortedMap

variable {κ ν : Type} [Ord κ] [Std.TransOrd κ] [Std.LawfulEqOrd κ] [DecidableEq κ]

omit [DecidableEq κ] in
/-- The last entry of a list is inserted last. -/
theorem ofList_concat (entries : List (κ × ν)) (key : κ) (value : ν) :
    ofList (entries ++ [(key, value)]) = (ofList entries).insert key value :=
  List.foldl_concat ..

/-- Of entries with the same key, the last one counts. -/
theorem find?_ofList_eq_some {entries : List (κ × ν)} {key : κ} {value : ν} :
    (ofList entries).find? key = some value ↔
      ∃ earlier later, entries = earlier ++ (key, value) :: later ∧
        ∀ entry ∈ later, entry.1 ≠ key := by
  induction entries using List.reverseRecOn with
  | nil =>
      refine iff_of_false (fun found => by cases found) ?_
      rintro ⟨earlier, later, split, -⟩
      exact List.append_ne_nil_of_right_ne_nil _ (List.cons_ne_nil _ _) split.symm
  | append_singleton entries last ih =>
      obtain ⟨lastKey, lastValue⟩ := last
      rw [ofList_concat, find?_insert_eq]
      by_cases same : key = lastKey
      · subst same
        rw [if_pos rfl]
        constructor
        · intro isValue
          cases isValue
          exact ⟨entries, [], rfl, fun _ none => absurd none List.not_mem_nil⟩
        · rintro ⟨earlier, later, split, absent⟩
          rcases List.eq_nil_or_concat later with rfl | ⟨later, entry, rfl⟩
          · cases (List.append_inj' split rfl).2
            rfl
          · rw [List.concat_eq_append, ← List.cons_append, ← List.append_assoc] at split
            cases (List.append_inj' split rfl).2
            rw [List.concat_eq_append] at absent
            exact absurd rfl (absent _ (List.mem_append_right _ List.mem_cons_self))
      · rw [if_neg same, ih]
        constructor
        · rintro ⟨earlier, later, rfl, absent⟩
          refine ⟨earlier, later ++ [(lastKey, lastValue)], by rw [List.append_assoc]; rfl, ?_⟩
          exact List.forall_mem_append.mpr ⟨absent, List.forall_mem_singleton.mpr (Ne.symm same)⟩
        · rintro ⟨earlier, later, split, absent⟩
          rcases List.eq_nil_or_concat later with rfl | ⟨later, entry, rfl⟩
          · cases (List.append_inj' split rfl).2
            exact absurd rfl same
          · rw [List.concat_eq_append, ← List.cons_append, ← List.append_assoc] at split
            rw [List.concat_eq_append] at absent
            refine ⟨earlier, later, (List.append_inj' split rfl).1, ?_⟩
            exact fun entry member => absent entry (List.mem_append_left _ member)

end SortedMap

/-! ## Putting back matches -/

namespace Agenda

variable {agenda after : Agenda} {waiting : List Activation} {settled : List (Match × Settled)}

/-- The agenda holds what has been put back: waiting matches, and then others. -/
structure Collects (agenda : Agenda) (waiting : List Activation)
    (settled : List (Match × Settled)) : Prop where
  queue : agenda.queue = .ofList (waiting.map fun next => (next.toQueueKey, next.toMatch))
  states : agenda.states = .ofList (waiting.map (fun next =>
    (next.toMatch, .pending next.toQueueKey))
    ++ settled.map fun entry => (entry.1, .settled entry.2))
  distinct : (waiting.map Activation.toMatch ++ settled.map Prod.fst).Nodup
  below : ∀ next ∈ waiting, next.sequence < agenda.nextSequence

namespace Collects

private theorem empty : Collects {} [] [] :=
  ⟨rfl, rfl, .nil, fun _ none => absurd none List.not_mem_nil⟩

variable (collects : agenda.Collects waiting settled)

include collects

/-- The states of a restored agenda are those of the records. -/
theorem find?_states {found : Match} {state : MatchState} :
    agenda.states.find? found = some state ↔
      (∃ key, { found, key with } ∈ waiting ∧ state = .pending key) ∨
        ∃ how, (found, how) ∈ settled ∧ state = .settled how := by
  have keys : (waiting.map (fun next => (next.toMatch, MatchState.pending next.toQueueKey)) ++
      settled.map fun entry => (entry.1, MatchState.settled entry.2)).map Prod.fst =
        waiting.map Activation.toMatch ++ settled.map Prod.fst := by
    simp only [List.map_append, List.map_map, Function.comp_def]
  rw [collects.states, SortedMap.find?_ofList (keys ▸ collects.distinct), List.mem_append,
    List.mem_map, List.mem_map]
  refine or_congr ⟨?_, ?_⟩ ⟨?_, ?_⟩
  · rintro ⟨next, member, same⟩
    cases same
    exact ⟨next.toQueueKey, member, rfl⟩
  · rintro ⟨key, member, rfl⟩
    exact ⟨_, member, rfl⟩
  · rintro ⟨entry, member, same⟩
    cases same
    exact ⟨entry.2, member, rfl⟩
  · rintro ⟨how, member, rfl⟩
    exact ⟨_, member, rfl⟩

private theorem fresh {found : Match} (unknown : agenda.knows found = false) :
    found ∉ waiting.map Activation.toMatch ++ settled.map Prod.fst := by
  have none := knows_eq_false.mp unknown
  intro member
  rcases List.mem_append.mp member with waits | rests
  · obtain ⟨next, listed, rfl⟩ := List.mem_map.mp waits
    cases none.symm.trans (collects.find?_states.mpr (.inl ⟨_, listed, rfl⟩))
  · obtain ⟨entry, listed, rfl⟩ := List.mem_map.mp rests
    cases none.symm.trans (collects.find?_states.mpr (.inr ⟨_, listed, rfl⟩))

omit collects in
private theorem restorePending? (collects : agenda.Collects waiting []) {next : Activation}
    (restored : agenda.restorePending? next = some after) :
    after.Collects (waiting ++ [next]) [] := by
  unfold Agenda.restorePending? at restored
  split at restored
  · cases restored
  · next unknown =>
      cases restored
      have fresh := collects.fresh (Bool.eq_false_iff.mpr unknown)
      rw [List.map_nil, List.append_nil] at fresh
      refine ⟨?_, ?_, ?_, List.forall_mem_append.mpr
        ⟨fun other member => ?_, List.forall_mem_singleton.mpr ?_⟩⟩
      · rw [List.map_append, List.map_singleton, SortedMap.ofList_concat, ← collects.queue]
        rfl
      · have states := collects.states
        rw [List.map_nil, List.append_nil] at states ⊢
        rw [List.map_append, List.map_singleton, SortedMap.ofList_concat, ← states]
        rfl
      · have distinct := collects.distinct
        rw [List.map_nil, List.append_nil] at distinct ⊢
        rw [List.map_append, List.map_singleton]
        exact distinct.append (List.nodup_singleton _) (List.disjoint_singleton.mpr fresh)
      · exact Nat.lt_of_lt_of_le (collects.below other member) (Nat.le_max_left ..)
      · exact Nat.lt_of_lt_of_le (Nat.lt_succ_self _) (Nat.le_max_right ..)

private theorem restoreSettled? {found : Match} {how : Settled}
    (restored : agenda.restoreSettled? found how = some after) :
    after.Collects waiting (settled ++ [(found, how)]) := by
  unfold Agenda.restoreSettled? at restored
  split at restored
  · cases restored
  · next unknown =>
      cases restored
      have fresh := collects.fresh (Bool.eq_false_iff.mpr unknown)
      refine ⟨collects.queue, ?_, ?_, collects.below⟩
      · rw [List.map_append, List.map_singleton, ← List.append_assoc, SortedMap.ofList_concat,
          ← collects.states]
      · rw [List.map_append, List.map_singleton, ← List.append_assoc]
        exact collects.distinct.append (List.nodup_singleton _)
          (List.disjoint_singleton.mpr fresh)

private theorem reserve (next : Nat) : (agenda.reserve next).Collects waiting settled :=
  ⟨collects.queue, collects.states, collects.distinct, fun other member =>
    Nat.lt_of_lt_of_le (collects.below other member) (Nat.le_max_left ..)⟩

/-! ### What is put back -/

/-- A match waits to fire if its record was not pushed out by a later one. -/
theorem mem_pending {next : Activation} :
    next ∈ agenda.pending ↔ ∃ earlier later, waiting = earlier ++ next :: later ∧
      ∀ other ∈ later, other.toQueueKey ≠ next.toQueueKey := by
  rw [mem_pending_iff, collects.queue, SortedMap.find?_ofList_eq_some]
  constructor
  · rintro ⟨earlier, later, split, absent⟩
    obtain ⟨earlier, rest, rfl, rfl, isRest⟩ := List.map_eq_append_iff.mp split
    obtain ⟨own, later, rfl, same, rfl⟩ := List.map_eq_cons_iff.mp isRest
    obtain ⟨sameKey, sameMatch⟩ := Prod.mk.inj same
    have isOwn : own = next := congrArg₂ Activation.mk sameMatch sameKey
    exact ⟨earlier, later, by rw [isOwn], fun other member =>
      absent _ (List.mem_map_of_mem member)⟩
  · rintro ⟨earlier, later, rfl, absent⟩
    refine ⟨_, _, List.map_append, fun entry member => ?_⟩
    obtain ⟨other, listed, rfl⟩ := List.mem_map.mp member
    exact absent other listed

/-- All recorded matches wait to fire exactly if they have different places. -/
theorem perm_pending_iff :
    agenda.pending.Perm waiting ↔ (waiting.map Activation.toQueueKey).Nodup := by
  constructor
  · exact fun perm => (perm.map _).nodup_iff.mp agenda.nodup_keys_pending
  · intro distinct
    have places :
        ((waiting.map fun next => (next.toQueueKey, next.toMatch)).map Prod.fst).Nodup := by
      rw [List.map_map]
      exact distinct
    refine (List.perm_ext_iff_of_nodup agenda.nodup_keys_pending.of_map distinct.of_map).mpr
      fun next => ?_
    rw [mem_pending_iff, collects.queue, SortedMap.find?_ofList places, List.mem_map]
    constructor
    · rintro ⟨own, member, same⟩
      obtain ⟨sameKey, sameMatch⟩ := Prod.mk.inj same
      have isOwn : own = next := congrArg₂ Activation.mk sameMatch sameKey
      exact isOwn ▸ member
    · exact fun member => ⟨next, member, rfl⟩

private theorem perm_settled : agenda.settled.Perm settled := by
  have distinct : settled.Nodup := (List.nodup_append.mp collects.distinct).2.1.of_map
  refine (List.perm_ext_iff_of_nodup agenda.nodup_settled distinct).mpr fun (found, how) => ?_
  rw [mem_settled, collects.find?_states]
  constructor
  · rintro (⟨key, -, none⟩ | ⟨own, member, same⟩)
    · cases none
    · cases same
      exact member
  · exact fun member => .inr ⟨how, member, rfl⟩

/-- A match is tracked as waiting exactly if it was recorded so. -/
theorem find?_pending {next : Activation} :
    agenda.states.find? next.toMatch = some (.pending next.toQueueKey) ↔ next ∈ waiting := by
  rw [collects.find?_states]
  constructor
  · rintro (⟨key, member, same⟩ | ⟨how, -, none⟩)
    · cases same
      exact member
    · cases none
  · exact fun member => .inl ⟨_, member, rfl⟩

/-- Every match that is tracked as waiting has its place in the queue exactly if the places are
different. -/
theorem queued_iff :
    (∀ {next : Activation},
      agenda.states.find? next.toMatch = some (.pending next.toQueueKey) → next ∈ agenda.pending) ↔
        (waiting.map Activation.toQueueKey).Nodup := by
  constructor
  · intro queued
    have distinct : waiting.Nodup := (List.nodup_append.mp collects.distinct).1.of_map
    refine distinct.map_on fun one first other second same => ?_
    have isOne := mem_pending_iff.mp (queued (collects.find?_pending.mpr first))
    have isOther := mem_pending_iff.mp (queued (collects.find?_pending.mpr second))
    rw [same] at isOne
    exact congrArg₂ Activation.mk (Option.some.inj (isOne.symm.trans isOther)) same
  · intro distinct next tracked
    exact (collects.perm_pending_iff.mpr distinct).mem_iff.mpr (collects.find?_pending.mp tracked)

end Collects

end Agenda

/-! ## Restoring -/

namespace Snapshot

variable {base : KnowledgeBase} {facts : Facts} {agenda after : Agenda}

private theorem findMatch_eq_ok {package rule : String} {tuple : Tuple} {found : Match}
    (isFound : findMatch base facts package rule tuple = .ok found) :
    base.network.ruleId? package rule = some found.rule ∧ found.tuple = tuple := by
  unfold findMatch at isFound
  split at isFound
  · cases isFound
  · next id isId =>
      obtain ⟨_, -, same⟩ := exists_of_bind_eq_ok isFound
      cases same
      exact ⟨isId, rfl⟩

private theorem once_eq_ok {package rule : String} {tuple : Tuple} {agenda? : Option Agenda}
    (isOnce : once package rule tuple agenda? = .ok after) : agenda? = some after := by
  unfold once at isOnce
  split at isOnce
  · cases isOnce
    rfl
  · cases isOnce

/-- A rule that is found by a name has this name. -/
theorem ruleName_of_ruleId? (sound : base.network.Sound) {package name : String} {id : RuleId}
    (named : base.network.ruleId? package name = some id) {session : Session}
    (network : session.network = base.network) : session.ruleName id = .ok (package, name) := by
  obtain ⟨entry, isEntry, same⟩ := sound.names.mp named
  rw [Session.ruleName, network, Network.rule?, isEntry]
  exact congrArg Except.ok same

/-- The match that is put back is the one that the record is of. -/
theorem restoreActivation_eq_ok (sound : base.network.Sound) {record : ActivationRecord}
    (restored : restoreActivation base facts agenda record = .ok after) :
    ∃ next, agenda.restorePending? next = some after ∧
      ∀ session : Session, session.network = base.network →
        session.recordActivation next = .ok record := by
  obtain ⟨⟨id, tuple⟩, isFound, isOnce⟩ := exists_of_bind_eq_ok restored
  obtain ⟨isRule, rfl⟩ := findMatch_eq_ok isFound
  refine ⟨_, once_eq_ok isOnce, fun session network => ?_⟩
  rw [Session.recordActivation, ruleName_of_ruleId? sound isRule network]
  rfl

private theorem restoreSettled_eq_ok (sound : base.network.Sound) {record : MatchRecord}
    (restored : restoreSettled base facts agenda record = .ok after) :
    ∃ entry : Match × Settled, agenda.restoreSettled? entry.1 entry.2 = some after ∧
      ∀ session : Session, session.network = base.network →
        session.recordSettled entry = .ok record := by
  obtain ⟨⟨id, tuple⟩, isFound, isOnce⟩ := exists_of_bind_eq_ok restored
  obtain ⟨isRule, rfl⟩ := findMatch_eq_ok isFound
  refine ⟨(_, _), once_eq_ok isOnce, fun session network => ?_⟩
  rw [Session.recordSettled, ruleName_of_ruleId? sound isRule network]
  rfl

/-- A global that is restored is declared with a type that accepts its value. -/
theorem restoreGlobal_eq_ok {types : GlobalTypes} {memory after : WorkingMemory}
    {global : String × Value} (restored : restoreGlobal types memory global = .ok after) :
    ∃ declared, types.find? global.1 = some declared ∧ declared.accepts global.2.type = true ∧
      after = memory.setGlobal global.1 global.2 := by
  unfold restoreGlobal at restored
  split at restored
  · cases restored
  · next declared isDeclared =>
      split at restored
      · next accepts =>
          cases restored
          exact ⟨declared, isDeclared, accepts, rfl⟩
      · cases restored

/-- A fact that is restored is of a type of the catalog. -/
theorem restoreFact_eq_ok {catalog : Catalog} {memory after : WorkingMemory} {record : FactRecord}
    (restored : restoreFact catalog memory record = .ok after) :
    catalog.contains record.object.typeName = true ∧
      after = memory.put record.handle record.object := by
  unfold restoreFact at restored
  split at restored
  · cases restored
  · split at restored
    · next typed =>
        cases restored
        exact ⟨typed, rfl⟩
    · cases restored

/-- The recorded facts are put back one by one. -/
theorem facts_of_restoreFacts {catalog : Catalog} {memory after : WorkingMemory}
    {records : List FactRecord}
    (restored : records.foldlM (restoreFact catalog) memory = .ok after) :
    after.facts = (records.map fun record => (record.handle, record.object)).foldl
      (fun facts entry => facts.insert entry.1 entry.2) memory.facts := by
  induction records generalizing memory with
  | nil =>
      cases restored
      rfl
  | cons record rest ih =>
      rw [List.foldlM_cons] at restored
      obtain ⟨next, isNext, restored⟩ := exists_of_bind_eq_ok restored
      rw [ih restored, (restoreFact_eq_ok isNext).2]
      rfl

/-- What a session that was made from a snapshot consists of. -/
theorem restore_eq_ok {snapshot : Snapshot} {config : SessionConfig} {session : Session}
    (restored : snapshot.restore base config = .ok session) :
    ∃ named memory matched waiting agenda,
      snapshot.globals.foldlM (restoreGlobal base.globals) {} = .ok named ∧
      snapshot.facts.foldlM (restoreFact base.catalog) named = .ok memory ∧
      snapshot.activations.foldlM (restoreActivation base memory.facts) {} = .ok waiting ∧
      snapshot.settled.foldlM (restoreSettled base memory.facts) waiting = .ok agenda ∧
      session = { base.unseededSession config with
        memory := memory.reserve snapshot.nextHandle
        matched
        agenda := agenda.reserve snapshot.nextSequence } := by
  obtain ⟨_, -, restored⟩ := exists_of_bind_eq_ok restored
  obtain ⟨named, isNamed, restored⟩ := exists_of_bind_eq_ok restored
  obtain ⟨memory, isMemory, restored⟩ := exists_of_bind_eq_ok restored
  obtain ⟨matched, -, restored⟩ := exists_of_bind_eq_ok restored
  obtain ⟨waiting, isWaiting, restored⟩ := exists_of_bind_eq_ok restored
  obtain ⟨agenda, isAgenda, restored⟩ := exists_of_bind_eq_ok restored
  cases restored
  exact ⟨named, memory, matched, waiting, agenda, isNamed, isMemory, isWaiting, isAgenda, rfl⟩

/-- Whatever a session is restored from, it holds the recorded facts, their handles are below the
next one, and the next one is not below that of the record. -/
theorem memory_of_restore {snapshot : Snapshot} {config : SessionConfig} {session : Session}
    (restored : snapshot.restore base config = .ok session) :
    session.memory.facts =
        .ofList (snapshot.facts.map fun record => (record.handle, record.object)) ∧
      session.memory.Numbered ∧ snapshot.nextHandle ≤ session.memory.nextHandle ∧
      session.disposed = false := by
  obtain ⟨named, memory, _, _, _, globals, facts, -, -, rfl⟩ := restore_eq_ok restored
  have empty : named.facts = ∅ :=
    holds_of_foldlM (fun memory : WorkingMemory => memory.facts = ∅) globals rfl
      fun empty isNext => by
        obtain ⟨_, -, -, rfl⟩ := restoreGlobal_eq_ok isNext
        exact empty
  have numbered : memory.Numbered :=
    holds_of_foldlM WorkingMemory.Numbered facts (.of_empty empty)
      fun numbered isNext => (restoreFact_eq_ok isNext).2.symm ▸ numbered.put _ _
  refine ⟨?_, numbered.of_facts rfl (Nat.le_max_left ..), Nat.le_max_right .., rfl⟩
  exact (facts_of_restoreFacts facts).trans (empty ▸ rfl)

end Snapshot

/-- The place in the queue that was recorded. -/
def ActivationRecord.key (record : ActivationRecord) : QueueKey :=
  ⟨record.salience, record.sequence⟩

private theorem Session.key_of_recordActivation {session : Session} {next : Activation}
    {record : ActivationRecord} (records : session.recordActivation next = .ok record) :
    next.toQueueKey = record.key := by
  obtain ⟨name, -, same⟩ := exists_of_bind_eq_ok records
  cases same
  rfl

private theorem Session.keys_of_records {session : Session} {records : List ActivationRecord}
    {waiting : List Activation}
    (each : List.Forall₂ (fun record next => session.recordActivation next = .ok record)
      records waiting) :
    waiting.map Activation.toQueueKey = records.map ActivationRecord.key := by
  induction each with
  | nil => rfl
  | cons records _ ih => exact congrArg₂ List.cons (key_of_recordActivation records) ih

/-- What a session that was made from a snapshot has of its records, which are those of the given
waiting matches and others. -/
structure Session.Recorded (session : Session) (snapshot : Snapshot) (waiting : List Activation)
    (settled : List (Match × Settled)) : Prop where
  /-- The records are those of the matches. -/
  ofWaiting : List.Forall₂ (fun record next => session.recordActivation next = .ok record)
    snapshot.activations waiting
  ofSettled : List.Forall₂ (fun record entry => session.recordSettled entry = .ok record)
    snapshot.settled settled
  /-- No match has two records. -/
  distinct : (waiting.map Activation.toMatch ++ settled.map Prod.fst).Nodup
  /-- What was recorded as waiting is tracked so, with its place, and nothing else. -/
  tracked : ∀ {next : Activation},
    session.agenda.states.find? next.toMatch = some (.pending next.toQueueKey) ↔ next ∈ waiting
  /-- The matches that do not wait are the recorded ones. -/
  rests : session.agenda.settled.Perm settled
  /-- New matches get other numbers. -/
  below : ∀ next ∈ waiting, next.sequence < session.agenda.nextSequence
  /-- What waits to fire are the recorded matches that no later record takes the place of. -/
  waits : ∀ {next}, next ∈ session.agenda.pending ↔
    ∃ earlier later, waiting = earlier ++ next :: later ∧
      ∀ other ∈ later, other.toQueueKey ≠ next.toQueueKey
  /-- These are all of them exactly if the recorded places are different. -/
  whole : session.agenda.pending.Perm waiting ↔
    (snapshot.activations.map ActivationRecord.key).Nodup
  /-- What is tracked as waiting is in the queue, under the same condition. -/
  queued : (∀ {next : Activation}, session.agenda.states.find? next.toMatch =
      some (.pending next.toQueueKey) → next ∈ session.agenda.pending) ↔
    (snapshot.activations.map ActivationRecord.key).Nodup

/-- **What restoring keeps of the records.** Whatever snapshot a session was made from: the matches
that it tracks are the recorded ones, in the recorded states, and the next number is above those of
the waiting ones. All that were recorded as waiting are in the queue if their places are different;
if two have the same place, the earlier one is tracked as waiting, but will never fire. -/
theorem KnowledgeBase.Made.recorded_of_restore {base : KnowledgeBase} (made : base.Made)
    {snapshot : Snapshot} {config : SessionConfig} {session : Session}
    (restored : snapshot.restore base config = .ok session) :
    ∃ waiting settled, session.Recorded snapshot waiting settled := by
  have sound := made.proper.network.sound
  obtain ⟨_, memory, _, _, agenda, -, -, activations, others, isSession⟩ :=
    Snapshot.restore_eq_ok restored
  have network : session.network = base.network := by
    rw [isSession]
    rfl
  obtain ⟨waiting, ofWaiting, collected⟩ := exists_forall₂_of_foldlM
    (fun record next => session.recordActivation next = .ok record)
    (fun waiting agenda => agenda.Collects waiting []) activations .empty
    fun collects step => by
      obtain ⟨next, puts, records⟩ := Snapshot.restoreActivation_eq_ok sound step
      exact ⟨next, records session network, collects.restorePending? puts⟩
  obtain ⟨settled, ofSettled, collected⟩ := exists_forall₂_of_foldlM
    (fun record entry => session.recordSettled entry = .ok record)
    (fun settled agenda => agenda.Collects waiting settled) others collected
    fun collects step => by
      obtain ⟨entry, puts, records⟩ := Snapshot.restoreSettled_eq_ok sound step
      exact ⟨entry, records session network, collects.restoreSettled? puts⟩
  have collects : session.agenda.Collects waiting settled := by
    rw [isSession]
    exact collected.reserve _
  have places := Session.keys_of_records ofWaiting
  refine ⟨waiting, settled, ofWaiting, ofSettled, collects.distinct, collects.find?_pending,
    collects.perm_settled, collects.below, collects.mem_pending, ?_, ?_⟩
  · rw [← places]
    exact collects.perm_pending_iff
  · rw [← places]
    exact collects.queued_iff

/-! ## A snapshot in which two matches have one place -/

namespace Sensors

/-- A waiting match of the first fact. -/
def waitingAt (rule : String) (sequence : Nat) : ActivationRecord :=
  ⟨"app", rule, [1], 0, sequence⟩

/-- One reading, with the matches that wait. -/
def edited (activations : List ActivationRecord) : Snapshot :=
  { nodes := base.network.shape
    facts := [⟨1, "app.Sensor", reading 5⟩]
    activations
    nextHandle := 2
    nextSequence := 0 }

/-- The session that is made from it. -/
def revived (activations : List ActivationRecord) : Session :=
  ((edited activations).restore base {}).toOption.getD default

/-- Of matches with different places, all wait to fire. -/
theorem both_recorded :
    base.Made ∧
    (edited [waitingAt "high" 3, waitingAt "ratio" 4]).restore base {} =
      .ok (revived [waitingAt "high" 3, waitingAt "ratio" 4]) ∧
    ∃ waiting settled, (revived [waitingAt "high" 3, waitingAt "ratio" 4]).Recorded
        (edited [waitingAt "high" 3, waitingAt "ratio" 4]) waiting settled ∧
      (revived [waitingAt "high" 3, waitingAt "ratio" 4]).agenda.pending.Perm waiting := by
  have restored : (edited [waitingAt "high" 3, waitingAt "ratio" 4]).restore base {} =
      .ok (revived [waitingAt "high" 3, waitingAt "ratio" 4]) :=
    eq_ok_getD (by decide +kernel)
  obtain ⟨waiting, settled, recorded⟩ := made.recorded_of_restore restored
  exact ⟨made, restored, waiting, settled, recorded, recorded.whole.mpr (by decide)⟩

/-- Of two matches with the same place, only the later one waits to fire, though both are tracked as
waiting. -/
theorem high_pushed_out :
    (edited [waitingAt "high" 3, waitingAt "ratio" 3]).restore base {} =
      .ok (revived [waitingAt "high" 3, waitingAt "ratio" 3]) ∧
    ((revived [waitingAt "high" 3, waitingAt "ratio" 3]).agenda.pending.mapM
      (revived [waitingAt "high" 3, waitingAt "ratio" 3]).recordActivation) =
        .ok [waitingAt "ratio" 3] ∧
    ∃ found, (revived [waitingAt "high" 3, waitingAt "ratio" 3]).agenda.states.find? found =
        some (.pending (waitingAt "high" 3).key) ∧
      (revived [waitingAt "high" 3, waitingAt "ratio" 3]).ruleName found.rule =
        .ok ("app", "high") :=
  ⟨eq_ok_getD (by decide +kernel), eq_ok_of_toOption (by decide +kernel), ⟨1, [1]⟩,
    by decide +kernel, eq_ok_of_toOption (by decide +kernel)⟩

end Sensors

end Rete
