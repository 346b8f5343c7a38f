import Rete.Proofs.Computation
import Rete.Proofs.Matching.Cells

/-!
# Memories that hold the same

Memories are alike if every node holds the same in both (`NetworkMemory.Alike`): an empty store and
one that is missing make no difference. Propagation runs in lockstep on memories that are alike
(`assert_lockstep`, `retract_lockstep`, `seed_lockstep`), and they have one persistent form
(`NetworkMemory.Alike.toRecord`).
-/

namespace Rete

/-- Every node holds the same in two memories. -/
structure NetworkMemory.Alike (one other : NetworkMemory) : Prop where
  seeded : one.seeded = other.seeded
  factsAt : ∀ id, one.factsAt id = other.factsAt id
  tokensAt : ∀ id, one.tokensAt id = other.tokensAt id
  blockedAt : ∀ id, one.blockedAt id = other.blockedAt id

namespace NetworkMemory.Alike

variable {one other last : NetworkMemory} (alike : one.Alike other) (id : NodeId)

/-- Memories are like themselves. -/
theorem refl (memory : NetworkMemory) : memory.Alike memory :=
  ⟨rfl, fun _ => rfl, fun _ => rfl, fun _ => rfl⟩

include alike

/-- Likeness does not depend on the side. -/
theorem symm : other.Alike one :=
  ⟨alike.seeded.symm, fun id => (alike.factsAt id).symm, fun id => (alike.tokensAt id).symm,
    fun id => (alike.blockedAt id).symm⟩

/-- Likeness passes on. -/
theorem trans (next : other.Alike last) : one.Alike last :=
  ⟨alike.seeded.trans next.seeded, fun id => (alike.factsAt id).trans (next.factsAt id),
    fun id => (alike.tokensAt id).trans (next.tokensAt id),
    fun id => (alike.blockedAt id).trans (next.blockedAt id)⟩

private theorem leftTokens (left : Option NodeId) :
    one.leftTokens left = other.leftTokens left := by
  cases left with
  | none => simp only [NetworkMemory.leftTokens, alike.seeded]
  | some id => exact alike.tokensAt id

private theorem addFact (handle : Handle) : (one.addFact id handle).Alike
    (other.addFact id handle) where
  seeded := alike.seeded
  factsAt node := by simp only [factsAt_addFact, alike.factsAt]
  tokensAt := alike.tokensAt
  blockedAt := alike.blockedAt

private theorem removeFact (handle : Handle) :
    (one.removeFact id handle).Alike (other.removeFact id handle) where
  seeded := alike.seeded
  factsAt node := by simp only [factsAt_removeFact, alike.factsAt]
  tokensAt := alike.tokensAt
  blockedAt := alike.blockedAt

private theorem addToken (token : Tuple) : (one.addToken id token).Alike
    (other.addToken id token) where
  seeded := alike.seeded
  factsAt := alike.factsAt
  tokensAt node := by simp only [tokensAt_addToken, alike.tokensAt]
  blockedAt := alike.blockedAt

/-- Alike memories stay so when the same is held back in both. -/
theorem setBlocked (blocked : Blocked) :
    (one.setBlocked id blocked).Alike (other.setBlocked id blocked) where
  seeded := alike.seeded
  factsAt := alike.factsAt
  tokensAt := alike.tokensAt
  blockedAt node := by simp only [blockedAt_setBlocked, alike.blockedAt]

private theorem dropTokens (stem : Tuple) : (one.dropTokens id stem).1 =
    (other.dropTokens id stem).1 ∧
    (one.dropTokens id stem).2.Alike (other.dropTokens id stem).2 := by
  constructor
  · rw [Bool.eq_iff_iff, dropTokens_fst, dropTokens_fst, alike.tokensAt]
  · refine ⟨?_, fun node => ?_, fun node => ?_, fun node => ?_⟩
    · rw [seeded_dropTokens, seeded_dropTokens, alike.seeded]
    · unfold NetworkMemory.factsAt
      rw [alpha_dropTokens, alpha_dropTokens]
      exact alike.factsAt node
    · rw [tokensAt_dropTokens, tokensAt_dropTokens, alike.tokensAt, alike.tokensAt]
    · unfold NetworkMemory.blockedAt
      rw [blockers_dropTokens, blockers_dropTokens]
      exact alike.blockedAt node

private theorem dropBlocked (stem : Tuple) :
    (one.dropBlocked id stem).Alike (other.dropBlocked id stem) where
  seeded := by rw [seeded_dropBlocked, seeded_dropBlocked, alike.seeded]
  factsAt node := by
    unfold NetworkMemory.factsAt
    rw [alpha_dropBlocked, alpha_dropBlocked]
    exact alike.factsAt node
  tokensAt node := by
    unfold NetworkMemory.tokensAt
    rw [beta_dropBlocked, beta_dropBlocked]
    exact alike.tokensAt node
  blockedAt node := by
    rw [blockedAt_dropBlocked, blockedAt_dropBlocked, alike.blockedAt, alike.blockedAt]

end NetworkMemory.Alike

/-! ## The persistent form -/

namespace NetworkMemory

/-- The stores that are not empty, by what the nodes hold. -/
theorem find?_filter_nonempty {κ ν : Type} [Ord κ] (stores : SortedMap NodeId (SortedMap κ ν))
    (id : NodeId) : (stores.filter fun _ store => !store.isEmpty).find? id =
      if ((stores.find? id).getD ∅).isEmpty then none else some ((stores.find? id).getD ∅) := by
  rw [SortedMap.find?_filter]
  cases stores.find? id with
  | none => rfl
  | some store => cases empty : store.isEmpty <;> simp [Option.filter, empty]

private theorem filter_nonempty_congr {κ ν : Type} [Ord κ]
    {stores others : SortedMap NodeId (SortedMap κ ν)}
    (same : ∀ id, (stores.find? id).getD ∅ = (others.find? id).getD ∅) :
    (stores.filter fun _ store => !store.isEmpty) =
      others.filter fun _ store => !store.isEmpty := by
  apply SortedMap.ext_find?
  intro id
  rw [find?_filter_nonempty, find?_filter_nonempty, same]

/-- Memories that are alike have one persistent form. -/
theorem Alike.toRecord {one other : NetworkMemory} (alike : one.Alike other) :
    one.toRecord = other.toRecord := by
  unfold NetworkMemory.toRecord
  rw [alike.seeded, filter_nonempty_congr alike.factsAt, filter_nonempty_congr alike.tokensAt,
    filter_nonempty_congr alike.blockedAt]

end NetworkMemory

/-! ## Withdrawing tokens -/

/-- The memories are alike and the changes of the complete matches the same. -/
structure Matching.Alike (one other : Matching) : Prop where
  memory : one.memory.Alike other.memory
  changes : one.changes = other.changes

namespace Matching.Alike

variable {network : Network} {one other : Matching}

private theorem note (alike : one.Alike other) (change : MatchChange) :
    (one.note change).Alike (other.note change) :=
  ⟨alike.memory, congrArg (· ++ [change]) alike.changes⟩

private theorem foldl {ι : Type} {step step' : Matching → ι → Matching}
    (each : ∀ {one other : Matching}, one.Alike other → ∀ item,
      (step one item).Alike (step' other item)) (items : List ι) (alike : one.Alike other) :
    (items.foldl step one).Alike (items.foldl step' other) := by
  induction items generalizing one other with
  | nil => exact alike
  | cons item rest ih => exact ih (each alike item)

private theorem retractOutputWith {below : Matching → NodeId → Matching}
    (each : ∀ {one other : Matching}, one.Alike other → ∀ id, (below one id).Alike (below other id))
    (stem : Tuple) (alike : one.Alike other) (id : NodeId) :
    (retractOutputWith network below stem one id).Alike
      (retractOutputWith network below stem other id) := by
  unfold Matching.retractOutputWith
  cases network.node? id with
  | none => exact alike
  | some node =>
      obtain ⟨same, dropped⟩ := alike.memory.dropTokens id stem
      have next : Alike { one with memory := (one.memory.dropTokens id stem).2 }
          { other with memory := (other.memory.dropTokens id stem).2 } := ⟨dropped, alike.changes⟩
      simp only [same]
      cases (other.memory.dropTokens id stem).1 with
      | true => exact next.foldl each node.children
      | false => exact next

private theorem withdraw (depth : Nat) (stem : Tuple) (alike : one.Alike other) (id : NodeId) :
    (withdraw network depth stem one id).Alike (withdraw network depth stem other id) := by
  induction depth generalizing one other id with
  | zero => exact alike
  | succ depth ih =>
      have next : Alike { one with memory := one.memory.dropBlocked id stem }
          { other with memory := other.memory.dropBlocked id stem } :=
        ⟨alike.memory.dropBlocked id stem, alike.changes⟩
      unfold Matching.withdraw
      cases (network.node? id).map Node.kind with
      | none => exact alike
      | some kind =>
          cases kind with
          | terminal left terminal => exact alike.note _
          | objectType | alpha | join | eval => exact retractOutputWith ih stem next id

private theorem retractOutput (stem : Tuple) (alike : one.Alike other) (id : NodeId) :
    (retractOutput network stem one id).Alike (retractOutput network stem other id) :=
  retractOutputWith (fun alike id => alike.withdraw _ stem id) stem alike id

private theorem block (join : NodeId) (token : Tuple) (handle : Handle) (alike : one.Alike other) :
    (block network join token handle one).Alike (block network join token handle other) := by
  unfold Matching.block
  simp only [alike.memory.blockedAt join]
  generalize (((other.memory.blockedAt join).find? token).getD ∅) = blocking
  have next : ∀ blocked, Alike { one with memory := one.memory.setBlocked join blocked }
      { other with memory := other.memory.setBlocked join blocked } :=
    fun blocked => ⟨alike.memory.setBlocked join blocked, alike.changes⟩
  cases blocking.isEmpty with
  | true => exact retractOutput token (next _) join
  | false => exact next _

end Matching.Alike

/-! ## Following facts -/

namespace MatchM

variable {α : Type} {network : Network} {view : FactView}

/-- A propagation step that does the same on memories that are alike. -/
abbrev Steady (step : MatchM α) : Prop := Lockstep Matching.Alike step step

/-- A change that keeps states alike is made in step. -/
theorem Steady.change {f : Matching → Matching}
    (each : ∀ {one other : Matching}, one.Alike other → (f one).Alike (f other)) :
    Steady (change f) := .modify each

/-- A change, and what comes after it. -/
theorem Steady.change_bind {f : Matching → Matching} {next : Unit → MatchM α}
    (each : ∀ {one other : Matching}, one.Alike other → (f one).Alike (f other))
    (onward : Steady (next ())) : Steady (MatchM.change f >>= next) :=
  Lockstep.bind (Steady.change each) fun _ => onward

private theorem alphaPass_lockstep (handle : Handle) (fact : Object) (depth : Nat) (id : NodeId) :
    Steady (alphaPass network view handle fact depth id) := by
  induction depth generalizing id with
  | zero => exact .throw _
  | succ depth ih =>
      unfold alphaPass
      cases network.node? id with
      | none => exact .pure _
      | some node =>
          have onward : ∀ passes : Bool, Steady (do
              if !passes then return []
              change fun state => { state with memory := state.memory.addFact id handle }
              let below ← node.children.mapM (alphaPass network view handle fact depth)
              return id :: below.flatten) := by
            intro passes
            cases passes with
            | false => exact .pure _
            | true =>
                refine Steady.change_bind
                  (fun alike => ⟨alike.memory.addFact id handle, alike.changes⟩) ?_
                exact (Lockstep.mapM ih node.children).bind fun _ => .pure _
          cases kind : node.kind with
          | alpha parent test functions =>
              simp only [kind]
              exact Lockstep.bind (.lift _) onward
          | objectType | join | eval | terminal =>
              simp only [kind]
              exact Lockstep.bind (.pure true) onward

private theorem alphaHolders_lockstep (handle : Handle) (depth : Nat) (id : NodeId) :
    Steady (alphaHolders network handle depth id) := by
  induction depth generalizing id with
  | zero => exact .throw _
  | succ depth ih =>
      have held : ∀ memory : NetworkMemory, ((memory.alpha.find? id).map (·.contains handle)).getD
          false = (memory.factsAt id).contains handle := by
        intro memory
        unfold NetworkMemory.factsAt
        cases memory.alpha.find? id with
        | none => rfl
        | some facts => rfl
      unfold alphaHolders
      refine Lockstep.get_bind fun {one other} alike => ?_
      simp only [held, alike.memory.factsAt]
      cases (other.memory.factsAt id).contains handle with
      | false => exact .pure _
      | true =>
          refine Steady.change_bind
            (fun alike => ⟨alike.memory.removeFact id handle, alike.changes⟩) ?_
          cases network.node? id with
          | none => exact .pure _
          | some node => exact (Lockstep.mapM ih node.children).bind fun _ => .pure _

private theorem emitWith_lockstep {offer : Tuple → NodeId → MatchM Unit}
    (each : ∀ token id, Steady (offer token id)) (id : NodeId) (token : Tuple) :
    Steady (emitWith network offer id token) := by
  unfold emitWith
  refine Lockstep.get_bind fun {one other} alike => ?_
  simp only [alike.memory.tokensAt]
  cases (other.memory.tokensAt id).contains token with
  | true => exact .pure _
  | false =>
      refine Steady.change_bind (fun alike => ⟨alike.memory.addToken id token, alike.changes⟩) ?_
      cases network.node? id with
      | none => exact .pure _
      | some node => exact .forM (each token) node.children

private theorem joinFacts_lockstep {emit : Tuple → MatchM Unit}
    (each : ∀ token, Steady (emit token))
    (functions : FunctionTable) (tests : List Expr) (token : Tuple) (facts : List Handle) :
    Steady (joinFacts view emit functions tests token facts) := by
  refine Lockstep.forM (fun handle => ?_) facts
  refine Lockstep.bind (.lift _) fun fact => Lockstep.bind (.lift _) fun holds => ?_
  cases holds with
  | true => exact each _
  | false => exact .pure _

private theorem matching_lockstep (functions : FunctionTable) (tests : List Expr) (token : Tuple)
    (facts : List Handle) : Steady (matching view functions tests token facts) := by
  induction facts with
  | nil => exact .pure _
  | cons handle rest ih =>
      exact Lockstep.bind (.lift _) fun fact => Lockstep.bind (.lift _) fun blocks =>
        ih.bind fun others => .pure _

private theorem leftActivate_lockstep (depth : Nat) (token : Tuple) (id : NodeId) :
    Steady (leftActivate network view depth token id) := by
  induction depth generalizing token id with
  | zero => exact .throw _
  | succ depth ih =>
      have emits : ∀ token, Steady (emitWith network (leftActivate network view depth) id token) :=
        emitWith_lockstep ih id
      unfold leftActivate
      cases (network.node? id).map Node.kind with
      | none => exact .pure _
      | some kind =>
          cases kind with
          | objectType | alpha => exact .throw _
          | terminal left terminal => exact .change fun alike => alike.note _
          | eval left test functions =>
              refine Lockstep.bind (.lift _) fun holds => ?_
              cases holds with
              | true => exact emits token
              | false => exact .pure _
          | join left right tests negated functions =>
              cases negated with
              | false =>
                  refine Lockstep.get_bind fun {one other} alike => ?_
                  rw [alike.memory.factsAt]
                  exact joinFacts_lockstep emits functions tests token _
              | true =>
                  refine Lockstep.get_bind fun {one other} alike => ?_
                  rw [alike.memory.factsAt]
                  refine (matching_lockstep functions tests token _).bind fun blocking => ?_
                  cases blocking.isEmpty with
                  | true => exact emits token
                  | false =>
                      refine Steady.change fun {one other} alike => ?_
                      rw [alike.memory.blockedAt]
                      exact ⟨alike.memory.setBlocked id _, alike.changes⟩

private theorem emit_lockstep (id : NodeId) (token : Tuple) : Steady (emit network view id token) :=
  emitWith_lockstep (leftActivate_lockstep _) id token

private theorem rightActivateJoin_lockstep (handle : Handle) (fact : Object) (id : NodeId) :
    Steady (rightActivateJoin network view handle fact id) := by
  unfold rightActivateJoin
  cases (network.node? id).map Node.kind with
  | none => exact .pure _
  | some kind =>
      cases kind with
      | objectType | alpha | eval | terminal => exact .pure _
      | join left right tests negated functions =>
          refine Lockstep.get_bind fun {one other} alike => ?_
          rw [alike.memory.leftTokens]
          refine Lockstep.forM (fun token => Lockstep.bind (.lift _) fun holds => ?_) _
          cases holds with
          | false => exact .pure _
          | true =>
              cases negated with
              | true => exact Steady.change fun alike => alike.block id token handle
              | false => exact emit_lockstep id _

private theorem rightActivate_lockstep (handle : Handle) (fact : Object) (id : NodeId) :
    Steady (rightActivate network view handle fact id) := by
  unfold rightActivate
  cases network.node? id with
  | none => exact .pure _
  | some node => exact .forM (rightActivateJoin_lockstep handle fact) node.rightChildren

/-- Whether a fact is all that holds a token back. -/
def frees (handle : Handle) (facts : SortedSet Handle) : Bool :=
  facts.contains handle && (facts.erase handle).isEmpty

/-- What a negated join still holds back without a fact. -/
def relaxed (handle : Handle) (blocked : Blocked) : Blocked :=
  blocked.filterMap fun _ facts => if frees handle facts then none else some (facts.erase handle)

/-- A negated join that holds nothing back is as good as one without a store. -/
theorem ends_rightRetractJoin_negated {id right : NodeId} {left : Option NodeId} {tests : List Expr}
    {functions : FunctionTable} (handle : Handle) (state : Matching)
    (isKind : (network.node? id).map Node.kind = some (.join left right tests true functions)) :
    ∃ after, Ends (rightRetractJoin network handle id) state (.ok (((state.memory.blockedAt
        id).filter fun _ facts => frees handle facts).keys.map fun token => (id, token))) after ∧
      after.changes = state.changes ∧ after.memory.Alike
        (state.memory.setBlocked id (relaxed handle (state.memory.blockedAt id))) := by
  unfold rightRetractJoin
  simp only [isKind]
  cases found : state.memory.blockers.find? id with
  | none =>
      have free : state.memory.blockedAt id = ∅ := by
        simp only [NetworkMemory.blockedAt, found, Option.getD_none]
      rw [free]
      refine ⟨state, ?_, rfl, rfl, fun _ => rfl, fun _ => rfl, fun node => ?_⟩
      · rw [ends_get_bind]
        simp only [found]
        exact (ends_pure _).mpr ⟨rfl, rfl⟩
      · rw [NetworkMemory.blockedAt_setBlocked]
        split
        next here => exact here ▸ free
        next => rfl
  | some blocked =>
      have own : state.memory.blockedAt id = blocked := by
        simp only [NetworkMemory.blockedAt, found, Option.getD_some]
      rw [own]
      refine ⟨{ state with memory := state.memory.setBlocked id (relaxed handle blocked) }, ?_, rfl,
        .refl _⟩
      rw [ends_get_bind]
      simp only [found]
      exact ends_modify_bind.mpr ((ends_pure _).mpr ⟨rfl, rfl⟩)

private theorem rightRetractJoin_lockstep (handle : Handle) (id : NodeId) :
    Steady (rightRetractJoin network handle id) := by
  cases isKind : (network.node? id).map Node.kind with
  | none =>
      unfold rightRetractJoin
      simp only [isKind]
      exact .pure _
  | some kind =>
      cases kind with
      | objectType | alpha | eval | terminal =>
          unfold rightRetractJoin
          simp only [isKind]
          exact .pure _
      | join left right tests negated functions =>
          cases negated with
          | false =>
              unfold rightRetractJoin
              simp only [isKind]
              refine Lockstep.get_bind fun {one other} alike => ?_
              rw [alike.memory.tokensAt]
              refine Steady.change_bind (fun alike => ?_) (.pure _)
              exact alike.foldl (fun alike token => alike.retractOutput token id) _
          | true =>
              intro one other alike
              obtain ⟨after, ends, changes, memory⟩ :=
                ends_rightRetractJoin_negated handle one isKind
              obtain ⟨after', ends', changes', memory'⟩ :=
                ends_rightRetractJoin_negated handle other isKind
              rw [← alike.memory.blockedAt id] at ends' memory'
              have between := alike.memory.setBlocked id (relaxed handle (one.memory.blockedAt id))
              exact ⟨_, after, after', ends, ends', (memory.trans between).trans memory'.symm,
                changes.trans (alike.changes.trans changes'.symm)⟩

private theorem rightRetract_lockstep (handle : Handle) (id : NodeId) :
    Steady (rightRetract network handle id) := by
  unfold rightRetract
  cases network.node? id with
  | none => exact .pure _
  | some node =>
      exact (Lockstep.mapM (rightRetractJoin_lockstep handle) node.rightChildren).bind
        fun _ => .pure _

private theorem unblock_lockstep (id : NodeId) (token : Tuple) :
    Steady (unblock network view id token) := by
  unfold unblock
  cases (network.node? id).map Node.kind with
  | none => exact .pure _
  | some kind =>
      cases kind with
      | objectType | alpha | eval | terminal => exact .pure _
      | join left right tests negated functions =>
          refine Lockstep.get_bind fun {one other} alike => ?_
          simp only [alike.memory.blockedAt, alike.memory.leftTokens]
          split
          · exact emit_lockstep id token
          · exact .pure _

/-! ## Facts -/

/-- Seeding goes in step on alike memories. -/
theorem seed_lockstep : Steady (seed network view) := by
  refine Lockstep.get_bind fun {one other} alike => ?_
  rw [alike.memory.seeded]
  cases other.memory.seeded with
  | true => exact .pure _
  | false =>
      refine Steady.change_bind (fun alike => ?_) ?_
      · exact ⟨⟨rfl, alike.memory.factsAt, alike.memory.tokensAt, alike.memory.blockedAt⟩,
          alike.changes⟩
      · exact .forM (leftActivate_lockstep _ []) network.rootChildren

/-- Asserting goes in step on alike memories. -/
theorem assert_lockstep (handle : Handle) : Steady (assert network view handle) := by
  refine Lockstep.bind (.lift _) fun fact => ?_
  cases network.objectType? fact.typeName with
  | none => exact .pure _
  | some entry =>
      exact (alphaPass_lockstep handle fact _ entry).bind fun passed =>
        .forM (rightActivate_lockstep handle fact) passed

/-- Retracting goes in step on alike memories. -/
theorem retract_lockstep (handle : Handle) : Steady (retract network view handle) := by
  refine Lockstep.bind (.lift _) fun fact => ?_
  cases network.objectType? fact.typeName with
  | none => exact .pure _
  | some entry =>
      refine (alphaHolders_lockstep handle _ entry).bind fun holders => ?_
      refine (Lockstep.mapM (rightRetract_lockstep handle) holders).bind fun freed => ?_
      exact .forM (fun waiting => unblock_lockstep waiting.1 waiting.2) freed.flatten

end MatchM

end Rete
