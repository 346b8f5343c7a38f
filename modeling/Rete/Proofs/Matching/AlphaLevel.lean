import Rete.Proofs.Matching.Activation

/-!
# Facts on the alpha level

A fact that goes down the alpha level is added to the nodes whose tests it passes, each below one
that holds it already (`alphaPass_passes`); a fact that is taken back is removed from all nodes that
hold it (`alphaHolders_removes`). Neither touches what is kept behind the alpha level.
-/

namespace Rete.Matching

variable {network : Network} {view : FactView} {state mid after : Matching}

/-! ## Adding a fact -/

/-- A fact was added to the facts of nodes, and nothing else has changed. -/
structure AddedTo (state : Matching) (handle : Handle) (nodes : NodeId → Prop) (after : Matching) :
    Prop where
  changes : after.changes = state.changes
  seeded : after.memory.seeded = state.memory.seeded
  beta : after.memory.beta = state.memory.beta
  blockers : after.memory.blockers = state.memory.blockers
  facts : ∀ id fact, (after.memory.factsAt id).contains fact = true ↔
    (state.memory.factsAt id).contains fact = true ∨ (fact = handle ∧ nodes id)

private theorem AddedTo.trans {handle : Handle} {nodes others : NodeId → Prop}
    (first : AddedTo state handle nodes mid) (second : AddedTo mid handle others after) :
    AddedTo state handle (fun id => nodes id ∨ others id) after where
  changes := second.changes.trans first.changes
  seeded := second.seeded.trans first.seeded
  beta := second.beta.trans first.beta
  blockers := second.blockers.trans first.blockers
  facts id fact := by
    rw [second.facts, first.facts, or_assoc, and_or_left]

/-- Nothing is kept otherwise behind the alpha level. -/
theorem AddedTo.cell {handle : Handle} {nodes : NodeId → Prop}
    (added : AddedTo state handle nodes after) (base : Agenda) (id : NodeId) (tuple : Tuple) :
    after.cell network base id tuple = state.cell network base id tuple := by
  simp only [Matching.cell, NetworkMemory.tokensAt, NetworkMemory.blockedAt, Matching.agenda,
    added.changes, added.beta, added.blockers]

/-- The test of a node on the alpha level holds for a fact, if it has one. -/
def Admits (network : Network) (view : FactView) (fact : Object) (id : NodeId) : Prop :=
  ∀ {parent test functions}, network.kind? id = some (.alpha parent test functions) →
    view.holds functions { current := fact } test = .ok true

/-- Nodes that admit a fact, each below one of them or one where the walk starts. -/
def Sifted (network : Network) (view : FactView) (fact : Object) (starts : NodeId → Prop)
    (nodes : NodeId → Prop) : Prop :=
  ∀ id, nodes id → Admits network view fact id ∧ (starts id ∨ ∃ parent test functions,
    network.kind? id = some (.alpha parent test functions) ∧ nodes parent)

/-- All nodes that admit a fact, where the walk starts and below nodes that do. -/
structure Complete (network : Network) (view : FactView) (fact : Object)
    (starts : NodeId → Prop) (nodes : NodeId → Prop) : Prop where
  start : ∀ {id}, starts id → Admits network view fact id → nodes id
  below : ∀ {id parent test functions}, nodes parent →
    network.kind? id = some (.alpha parent test functions) → Admits network view fact id → nodes id

/-- What sending a fact down the alpha level does, with the nodes that it passed if no test
failed. -/
structure Passes (network : Network) (view : FactView) (handle : Handle) (fact : Object)
    (starts : NodeId → Prop) (state : Matching) (result : Except Error (List NodeId))
    (nodes : NodeId → Prop) (after : Matching) : Prop where
  added : AddedTo state handle nodes after
  sifted : Sifted network view fact starts nodes
  ok : ∀ {passed}, result = .ok passed → (∀ id, nodes id ↔ id ∈ passed) ∧
    Complete network view fact starts nodes

/-- What is sifted from two starts is sifted from both together. -/
theorem Sifted.or {fact : Object} {starts others nodes more : NodeId → Prop}
    (first : Sifted network view fact starts nodes)
    (second : Sifted network view fact others more) :
    Sifted network view fact (fun id => starts id ∨ others id) fun id => nodes id ∨ more id := by
  rintro id (early | late)
  · refine (first id early).imp_right (Or.imp .inl ?_)
    rintro ⟨parent, test, functions, live, inside⟩
    exact ⟨parent, test, functions, live, .inl inside⟩
  · refine (second id late).imp_right (Or.imp .inr ?_)
    rintro ⟨parent, test, functions, live, inside⟩
    exact ⟨parent, test, functions, live, .inr inside⟩

/-- What is complete from two starts is complete from both together. -/
theorem Complete.or {fact : Object} {starts others nodes more : NodeId → Prop}
    (first : Complete network view fact starts nodes)
    (second : Complete network view fact others more) :
    Complete network view fact (fun id => starts id ∨ others id) fun id => nodes id ∨ more id where
  start := fun starting admits => starting.imp (first.start · admits) (second.start · admits)
  below := fun inside live admits =>
    inside.imp (first.below · live admits) (second.below · live admits)

namespace Passes

variable {handle : Handle} {fact : Object} {starts others nodes more : NodeId → Prop}
  {result : Except Error (List NodeId)}

/-- A walk that stops where it starts. -/
theorem nowhere (ok : ∀ {passed}, result = .ok passed → passed = [] ∧
      ∀ {id}, starts id → ¬ Admits network view fact id) :
    Passes network view handle fact starts state result (fun _ => False) state := by
  refine ⟨⟨rfl, rfl, rfl, rfl, fun _ _ => by simp only [and_false, or_false]⟩,
    fun _ none => none.elim, fun {passed} same => ?_⟩
  obtain ⟨rfl, refused⟩ := ok same
  exact ⟨fun _ => by simp only [List.not_mem_nil],
    fun start admits => refused start admits, fun none => none.elim⟩

/-- A walk that fails might have started elsewhere as well. -/
theorem fail {error : Error}
    (passes : Passes network view handle fact starts state (.error error) nodes after)
    (within : ∀ {id}, starts id → others id) {result : Except Error (List NodeId)}
    (failed : ∀ {passed}, result ≠ .ok passed) :
    Passes network view handle fact others state result nodes after :=
  ⟨passes.added, fun id here => (passes.sifted id here).imp_right (Or.imp_left within),
    fun same => absurd same failed⟩

/-- Two walks, one after the other. -/
theorem trans {passed : List NodeId}
    (first : Passes network view handle fact starts state (.ok passed) nodes mid)
    (second : Passes network view handle fact others mid result more after) :
    Passes network view handle fact (fun id => starts id ∨ others id) state
      (result.map (passed ++ ·)) (fun id => nodes id ∨ more id) after := by
  refine ⟨first.added.trans second.added, first.sifted.or second.sifted, fun {all} same => ?_⟩
  cases result with
  | error error => cases same
  | ok others =>
      cases same
      obtain ⟨isPassed, whole⟩ := first.ok rfl
      obtain ⟨isOther, rest⟩ := second.ok rfl
      exact ⟨fun id => by rw [List.mem_append, isPassed, isOther], whole.or rest⟩

/-- Walks from all nodes of a list. -/
theorem mapM {pass : NodeId → MatchM (List NodeId)} {starts : List NodeId}
    (each : ∀ id ∈ starts, ∀ {state result after}, Ends (pass id) state result after →
      ∃ nodes, Passes network view handle fact (· = id) state result nodes after)
    {results : Except Error (List (List NodeId))}
    (run : Ends (starts.mapM pass) state results after) :
    ∃ nodes, Passes network view handle fact (· ∈ starts) state (results.map List.flatten) nodes
      after := by
  induction starts generalizing state results with
  | nil =>
      rw [List.mapM_nil] at run
      obtain ⟨rfl, rfl⟩ := (ends_pure _).mp run
      refine ⟨_, .nowhere fun same => ?_⟩
      cases same
      exact ⟨rfl, fun none => absurd none List.not_mem_nil⟩
  | cons id rest ih =>
      rw [List.mapM_cons] at run
      rcases ends_bind.mp run with ⟨passed, between, first, others⟩ | ⟨error, first, rfl⟩
      · obtain ⟨nodes, here⟩ := each id List.mem_cons_self first
        have onward : ∀ {results : Except Error (List (List NodeId))},
            Ends (rest.mapM pass) between results after → ∃ nodes,
              Passes network view handle fact (· ∈ id :: rest) state
                ((results.map List.flatten).map (passed ++ ·)) nodes after := by
          intro results remaining
          obtain ⟨more, there⟩ :=
            ih (fun other member => each other (List.mem_cons_of_mem _ member)) remaining
          simp only [List.mem_cons]
          exact ⟨_, here.trans there⟩
        rcases ends_bind.mp others with ⟨values, last, remaining, ending⟩ | ⟨error, failed, rfl⟩
        · obtain ⟨rfl, rfl⟩ := (ends_pure _).mp ending
          exact onward remaining
        · exact onward failed
      · obtain ⟨nodes, here⟩ := each id List.mem_cons_self first
        exact ⟨nodes, here.fail (fun same => List.mem_cons.mpr (.inl same))
          fun {_} same => by cases same⟩

end Passes

private theorem addFact_addedTo (state : Matching) (id : NodeId) (handle : Handle) :
    AddedTo state handle (· = id)
      { state with memory := state.memory.addFact id handle } := by
  refine ⟨rfl, rfl, rfl, rfl, fun other fact => ?_⟩
  change ((state.memory.addFact id handle).factsAt other).contains fact = true ↔ _
  rw [NetworkMemory.factsAt_addFact]
  by_cases here : other = id
  · subst here
    simp only [↓reduceIte, SortedSet.contains_add, Bool.or_eq_true, decide_eq_true_eq, and_true]
    exact or_comm
  · simp only [here, ↓reduceIte, and_false, or_false]

section

variable (wellFormed : network.WellFormed)

include wellFormed

/-- The walk from a node is the walk from the nodes below, once the node itself holds the fact. -/
theorem Passes.under {handle : Handle} {fact : Object} {id : NodeId} {node : Node}
    (found : network.node? id = some node) (alpha : node.kind.isAlphaLevel = true)
    (admits : Admits network view fact id) {result : Except Error (List NodeId)}
    {nodes : NodeId → Prop} (added : AddedTo state handle (· = id) mid)
    (passes : Passes network view handle fact (· ∈ node.children) mid result nodes after) :
    Passes network view handle fact (· = id) state (result.map (id :: ·))
      (fun other => other = id ∨ nodes other) after := by
  have isChild : ∀ {child}, child ∈ node.children ↔ ∃ test functions,
      network.kind? child = some (.alpha id test functions) :=
    wellFormed.mem_children_of_alpha found alpha
  refine ⟨added.trans passes.added, ?_, fun {all} same => ?_⟩
  · rintro other (rfl | inside)
    · exact ⟨admits, .inl rfl⟩
    · refine (passes.sifted other inside).imp_right fun origin => .inr ?_
      rcases origin with child | ⟨parent, test, functions, live, within⟩
      · obtain ⟨test, functions, live⟩ := isChild.mp child
        exact ⟨id, test, functions, live, .inl rfl⟩
      · exact ⟨parent, test, functions, live, .inr within⟩
  · cases result with
    | error error => cases same
    | ok passed =>
        cases same
        obtain ⟨isPassed, whole⟩ := passes.ok rfl
        refine ⟨fun other => by rw [List.mem_cons, isPassed], fun {other} same _ => .inl same, ?_⟩
        rintro other parent test functions (rfl | inside) live otherAdmits
        · exact .inr (whole.start (isChild.mpr ⟨test, functions, live⟩) otherAdmits)
        · exact .inr (whole.below inside live otherAdmits)

/-- A walk that has passed a node goes on to the nodes below. -/
theorem alphaPass_below {handle : Handle} {fact : Object} {depth : Nat} {id : NodeId} {node : Node}
    (found : network.node? id = some node) (alpha : node.kind.isAlphaLevel = true)
    (admits : Admits network view fact id)
    (each : ∀ {child test functions}, network.kind? child = some (.alpha id test functions) →
      ∀ {state result after},
        Ends (MatchM.alphaPass network view handle fact depth child) state result after →
        ∃ nodes, Passes network view handle fact (· = child) state result nodes after)
    {result : Except Error (List NodeId)}
    (run : Ends (do
      MatchM.change fun state => { state with memory := state.memory.addFact id handle }
      let below ← node.children.mapM (MatchM.alphaPass network view handle fact depth)
      return id :: below.flatten) state result after) :
    ∃ nodes, Passes network view handle fact (· = id) state result nodes after ∧ nodes id := by
  unfold MatchM.change at run
  rw [ends_modify_bind] at run
  have onward : ∀ {below : Except Error (List (List NodeId))},
      Ends (node.children.mapM (MatchM.alphaPass network view handle fact depth))
        { state with memory := state.memory.addFact id handle } below after →
      ∃ nodes, Passes network view handle fact (· = id) state
        ((below.map List.flatten).map (id :: ·)) nodes after ∧ nodes id := by
    intro below walk
    obtain ⟨nodes, passes⟩ := Passes.mapM (fun child member => by
      obtain ⟨test, functions, live⟩ :=
        (wellFormed.mem_children_of_alpha found alpha).mp member
      exact each live) walk
    exact ⟨_, passes.under wellFormed found alpha admits (addFact_addedTo state id handle),
      .inl rfl⟩
  rcases ends_bind.mp run with ⟨below, between, walk, last⟩ | ⟨error, walk, rfl⟩
  · obtain ⟨rfl, rfl⟩ := (ends_pure _).mp last
    exact onward walk
  · exact onward walk

/-- A fact that is sent down from a node is added to the nodes that admit it. -/
theorem alphaPass_passes {handle : Handle} {fact : Object} (depth : Nat) {id : NodeId}
    {kind : NodeKind} (live : network.kind? id = some kind) (alpha : kind.isAlphaLevel = true)
    {result : Except Error (List NodeId)}
    (run : Ends (MatchM.alphaPass network view handle fact depth id) state result after) :
    ∃ nodes, Passes network view handle fact (· = id) state result nodes after := by
  induction depth generalizing id kind state after result with
  | zero =>
      obtain ⟨rfl, rfl⟩ := (ends_throw _).mp run
      exact ⟨_, .nowhere fun failed => by cases failed⟩
  | succ depth ih =>
      obtain ⟨node, found, rfl⟩ := Network.kind?_eq_some.mp live
      unfold MatchM.alphaPass at run
      simp only [found] at run
      have onward : Admits network view fact id → Ends (do
          MatchM.change fun state => { state with memory := state.memory.addFact id handle }
          let below ← node.children.mapM (MatchM.alphaPass network view handle fact depth)
          return id :: below.flatten) state result after →
          ∃ nodes, Passes network view handle fact (· = id) state result nodes after :=
        fun admits rest => (alphaPass_below wellFormed found alpha admits
          (fun childLive _ _ _ step => ih childLive rfl step) rest).imp fun _ => And.left
      cases isKind : node.kind with
      | join | eval | terminal =>
          rw [isKind] at alpha
          cases alpha
      | objectType typeName =>
          simp only [isKind, ends_pure_bind, Bool.not_true, Bool.false_eq_true, ↓reduceIte] at run
          refine onward (fun {parent test functions} other => ?_) run
          rw [live, isKind] at other
          cases other
      | alpha parent test functions =>
          simp only [isKind] at run
          have own : network.kind? id = some (.alpha parent test functions) := live.trans
            (congrArg some isKind)
          rcases ends_lift_bind.mp run with ⟨holds, isHeld, rest⟩ | ⟨error, -, rfl, rfl⟩
          · cases holds with
            | true =>
                simp only [Bool.not_true, Bool.false_eq_true, ↓reduceIte] at rest
                refine onward (fun {parent' test' functions'} other => ?_) rest
                cases own.symm.trans other
                exact isHeld
            | false =>
                simp only [Bool.not_false, ↓reduceIte] at rest
                obtain ⟨rfl, rfl⟩ := (ends_pure _).mp rest
                refine ⟨_, .nowhere fun same => ?_⟩
                cases same
                refine ⟨rfl, fun {other} isStart admits => ?_⟩
                subst isStart
                cases isHeld.symm.trans (admits own)
          · exact ⟨_, .nowhere fun failed => by cases failed⟩

/-- The entry of a type holds a fact that is sent down from it, also if a test below fails. -/
theorem alphaPass_enters {handle : Handle} {fact : Object} {depth : Nat} {id : NodeId}
    {typeName : String} (live : network.kind? id = some (.objectType typeName))
    {result : Except Error (List NodeId)}
    (run : Ends (MatchM.alphaPass network view handle fact (depth + 1) id) state result after) :
    (after.memory.factsAt id).contains handle = true := by
  obtain ⟨node, found, isKind⟩ := Network.kind?_eq_some.mp live
  unfold MatchM.alphaPass at run
  simp only [found, isKind, ends_pure_bind, Bool.not_true, Bool.false_eq_true, ↓reduceIte] at run
  obtain ⟨nodes, passes, own⟩ := alphaPass_below wellFormed found (by rw [isKind]; rfl)
    (fun {parent test functions} other => by cases live.symm.trans other)
    (fun childLive _ _ _ step => alphaPass_passes wellFormed depth childLive rfl step) run
  exact (passes.added.facts id handle).mpr (.inr ⟨rfl, own⟩)

end

/-! ## Removing a fact -/

/-- A fact was removed from the facts of nodes that held it, and nothing else has changed. -/
structure RemovedFrom (state : Matching) (handle : Handle) (nodes : List NodeId)
    (after : Matching) : Prop where
  changes : after.changes = state.changes
  seeded : after.memory.seeded = state.memory.seeded
  beta : after.memory.beta = state.memory.beta
  blockers : after.memory.blockers = state.memory.blockers
  facts : ∀ id fact, (after.memory.factsAt id).contains fact = true ↔
    (state.memory.factsAt id).contains fact = true ∧ ¬ (fact = handle ∧ id ∈ nodes)
  held : ∀ id ∈ nodes, (state.memory.factsAt id).contains handle = true

private theorem RemovedFrom.refl (state : Matching) (handle : Handle) :
    RemovedFrom state handle [] state :=
  ⟨rfl, rfl, rfl, rfl, fun _ _ => by simp only [List.not_mem_nil, and_false, not_false_eq_true,
    and_true], nofun⟩

/-- A fact that a node does not hold does not come back. -/
theorem RemovedFrom.still {handle fact : Handle} {nodes : List NodeId} {id : NodeId}
    (removed : RemovedFrom state handle nodes after)
    (absent : (state.memory.factsAt id).contains fact = false) :
    (after.memory.factsAt id).contains fact = false :=
  Bool.eq_false_iff.mpr fun held =>
    Bool.false_ne_true (absent.symm.trans ((removed.facts id fact).mp held).1)

private theorem RemovedFrom.trans {handle : Handle} {nodes others : List NodeId}
    (first : RemovedFrom state handle nodes mid) (second : RemovedFrom mid handle others after) :
    RemovedFrom state handle (nodes ++ others) after where
  changes := second.changes.trans first.changes
  seeded := second.seeded.trans first.seeded
  beta := second.beta.trans first.beta
  blockers := second.blockers.trans first.blockers
  facts id fact := by
    rw [second.facts, first.facts, List.mem_append, and_or_left, not_or, and_assoc]
  held id member := by
    rcases List.mem_append.mp member with early | late
    · exact first.held id early
    · exact ((first.facts id handle).mp (second.held id late)).1

/-- Nothing is kept otherwise behind the alpha level. -/
theorem RemovedFrom.cell {handle : Handle} {nodes : List NodeId}
    (removed : RemovedFrom state handle nodes after) (base : Agenda) (id : NodeId)
    (tuple : Tuple) : after.cell network base id tuple = state.cell network base id tuple := by
  simp only [Matching.cell, NetworkMemory.tokensAt, NetworkMemory.blockedAt, Matching.agenda,
    removed.changes, removed.beta, removed.blockers]

private theorem removeFact_removedFrom {id : NodeId} {handle : Handle}
    (held : (state.memory.factsAt id).contains handle = true) :
    RemovedFrom state handle [id]
      { state with memory := state.memory.removeFact id handle } := by
  refine ⟨rfl, rfl, rfl, rfl, fun other fact => ?_, fun other member => ?_⟩
  · change ((state.memory.removeFact id handle).factsAt other).contains fact = true ↔ _
    rw [NetworkMemory.factsAt_removeFact, List.mem_singleton]
    by_cases here : other = id
    · subst here
      by_cases same : fact = handle
      · subst same
        simp only [↓reduceIte, SortedMap.contains_erase, decide_true, Bool.not_true, Bool.false_and,
          Bool.false_eq_true, and_self, not_true_eq_false, and_false]
      · simp only [↓reduceIte, SortedMap.contains_erase, same, decide_false, Bool.not_false,
          Bool.true_and, not_false_eq_true, and_true]
    · simp only [here, ↓reduceIte, and_false, not_false_eq_true, and_true]
  · exact List.mem_singleton.mp member ▸ held

/-- What taking a fact out of nodes does: it is gone where the walk starts, and below every node
that it was removed from. -/
structure Removes (network : Network) (handle : Handle) (starts : NodeId → Prop)
    (state : Matching) (nodes : List NodeId) (after : Matching) : Prop where
  removed : RemovedFrom state handle nodes after
  start : ∀ {id}, starts id → (after.memory.factsAt id).contains handle = false
  below : ∀ {id parent test functions}, parent ∈ nodes →
    network.kind? id = some (.alpha parent test functions) →
    (after.memory.factsAt id).contains handle = false

namespace Removes

variable {handle : Handle} {starts others : NodeId → Prop} {nodes more : List NodeId}

/-- A fact that is not held where the walk starts stays away. -/
theorem nowhere (absent : ∀ {id}, starts id → (state.memory.factsAt id).contains handle = false) :
    Removes network handle starts state [] state :=
  ⟨.refl state handle, absent, nofun⟩

/-- Two walks, one after the other. -/
theorem trans (first : Removes network handle starts state nodes mid)
    (second : Removes network handle others mid more after) :
    Removes network handle (fun id => starts id ∨ others id) state (nodes ++ more) after where
  removed := first.removed.trans second.removed
  start := by
    rintro id (early | late)
    · exact second.removed.still (first.start early)
    · exact second.start late
  below := by
    intro id parent test functions inside live
    rcases List.mem_append.mp inside with early | late
    · exact second.removed.still (first.below early live)
    · exact second.below late live

/-- Walks from all nodes of a list. -/
theorem mapM {take : NodeId → MatchM (List NodeId)} {starts : List NodeId}
    (each : ∀ id ∈ starts, ∀ {state result after}, Ends (take id) state result after →
      ∃ nodes, result = .ok nodes ∧ Removes network handle (· = id) state nodes after)
    {results : Except Error (List (List NodeId))}
    (run : Ends (starts.mapM take) state results after) :
    ∃ values, results = .ok values ∧
      Removes network handle (· ∈ starts) state values.flatten after := by
  induction starts generalizing state results with
  | nil =>
      rw [List.mapM_nil] at run
      obtain ⟨rfl, rfl⟩ := (ends_pure _).mp run
      exact ⟨[], rfl, .nowhere fun none => absurd none List.not_mem_nil⟩
  | cons id rest ih =>
      rw [List.mapM_cons] at run
      obtain ⟨value, between, first, others⟩ | ⟨error, first, -⟩ := ends_bind.mp run
      · obtain ⟨nodes, same, here⟩ := each id List.mem_cons_self first
        cases same
        obtain ⟨values, last, remaining, ending⟩ | ⟨error, failed, -⟩ := ends_bind.mp others
        · obtain ⟨rfl, rfl⟩ := (ends_pure _).mp ending
          obtain ⟨_, same, there⟩ :=
            ih (fun other member => each other (List.mem_cons_of_mem _ member)) remaining
          cases same
          simp only [List.mem_cons]
          exact ⟨_, rfl, here.trans there⟩
        · obtain ⟨_, same, -⟩ :=
            ih (fun other member => each other (List.mem_cons_of_mem _ member)) failed
          cases same
      · obtain ⟨_, same, -⟩ := each id List.mem_cons_self first
        cases same

/-- The walk from a node that gave up the fact is the walk from the nodes below. -/
theorem under (wellFormed : network.WellFormed) {id : NodeId} {node : Node}
    (found : network.node? id = some node) (alpha : node.kind.isAlphaLevel = true)
    (removed : RemovedFrom state handle [id] mid)
    (removes : Removes network handle (· ∈ node.children) mid nodes after) :
    Removes network handle (· = id) state (id :: nodes) after where
  removed := removed.trans removes.removed
  start := by
    rintro id rfl
    refine Bool.eq_false_iff.mpr fun still => ?_
    exact ((removed.trans removes.removed).facts _ _ |>.mp still).2 ⟨rfl, List.mem_cons_self⟩
  below := by
    intro other parent test functions inside live
    rcases List.mem_cons.mp inside with rfl | inside
    · exact removes.start
        ((wellFormed.mem_children_of_alpha found alpha).mpr ⟨test, functions, live⟩)
    · exact removes.below inside live

end Removes

/-- A walk that has taken a fact out of a node goes on to the nodes below. -/
theorem alphaHolders_below (wellFormed : network.WellFormed) {handle : Handle} {depth : Nat}
    {id : NodeId} {node : Node}
    (found : network.node? id = some node) (alpha : node.kind.isAlphaLevel = true)
    (held : (state.memory.factsAt id).contains handle = true)
    (each : ∀ {child test functions}, network.kind? child = some (.alpha id test functions) →
      ∀ {state after result}, Ends (MatchM.alphaHolders network handle depth child) state result
        after → ∃ nodes, result = .ok nodes ∧ Removes network handle (· = child) state nodes after)
    {result : Except Error (List NodeId)}
    (run : Ends (do
      MatchM.change fun state => { state with memory := state.memory.removeFact id handle }
      let below ← node.children.mapM (MatchM.alphaHolders network handle depth)
      return id :: below.flatten) state result after) :
    ∃ nodes, result = .ok nodes ∧ Removes network handle (· = id) state nodes after := by
  unfold MatchM.change at run
  rw [ends_modify_bind] at run
  have eachChild : ∀ child ∈ node.children, ∀ {state result after},
      Ends (MatchM.alphaHolders network handle depth child) state result after →
      ∃ nodes, result = .ok nodes ∧
        Removes network handle (· = child) state nodes after := by
    intro child member
    obtain ⟨test, functions, live⟩ := (wellFormed.mem_children_of_alpha found alpha).mp member
    exact each live
  obtain ⟨below, between, walk, last⟩ | ⟨error, walk, -⟩ := ends_bind.mp run
  · obtain ⟨rfl, rfl⟩ := (ends_pure _).mp last
    obtain ⟨_, same, removes⟩ := Removes.mapM eachChild walk
    cases same
    exact ⟨_, rfl, removes.under wellFormed found alpha (removeFact_removedFrom held)⟩
  · obtain ⟨_, same, -⟩ := Removes.mapM eachChild walk
    cases same

/-- Taking a fact out of a node and those below it. -/
theorem alphaHolders_removes (sound : network.Sound) {handle : Handle} (depth : Nat) {id : NodeId}
    {level : Nat} (own : network.Level id level) (enough : network.depth ≤ depth + level)
    {kind : NodeKind} (live : network.kind? id = some kind) (alpha : kind.isAlphaLevel = true)
    {result : Except Error (List NodeId)}
    (run : Ends (MatchM.alphaHolders network handle depth id) state result after) :
    ∃ nodes, result = .ok nodes ∧ Removes network handle (· = id) state nodes after := by
  induction depth generalizing id level kind state after result with
  | zero =>
      have bound := sound.accounted.level_lt_size own
      rw [Network.depth] at enough
      omega
  | succ depth ih =>
      obtain ⟨node, found, rfl⟩ := Network.kind?_eq_some.mp live
      unfold MatchM.alphaHolders at run
      rw [ends_get_bind] at run
      have isHeld : ((state.memory.alpha.find? id).map (·.contains handle)).getD false =
          (state.memory.factsAt id).contains handle := by
        rw [NetworkMemory.factsAt]
        cases state.memory.alpha.find? id <;> rfl
      simp only [isHeld, found] at run
      cases held : (state.memory.factsAt id).contains handle with
      | false =>
          simp only [held, Bool.not_false, ↓reduceIte] at run
          obtain ⟨rfl, rfl⟩ := (ends_pure _).mp run
          exact ⟨[], rfl, .nowhere fun same => same ▸ held⟩
      | true =>
          simp only [held, Bool.not_true, Bool.false_eq_true, ↓reduceIte] at run
          refine alphaHolders_below sound.wellFormed found alpha held
            (fun {child test functions} childLive _ _ _ step => ?_) run
          exact ih (.under childLive rfl own) (by omega) childLive rfl step

/-! ## Coherence -/

/-- A fact that a node may hold: a node on top holds facts of its type, and the others hold facts
that the node above holds. -/
def Fitting (facts : Facts) (memory : NetworkMemory) (handle : Handle) : NodeKind → Prop
  | .objectType typeName => ∃ fact, facts.find? handle = some fact ∧ fact.typeName = typeName
  | .alpha parent _ _ => (memory.factsAt parent).contains handle = true
  | .join .. | .eval .. | .terminal .. => False

/-- Only nodes of the alpha level hold facts, and those that they may hold. -/
structure Layered (network : Network) (facts : Facts) (memory : NetworkMemory) : Prop where
  fitting : ∀ {id handle}, (memory.factsAt id).contains handle = true →
    ∃ kind, network.kind? id = some kind ∧ Fitting facts memory handle kind

namespace Layered

variable {facts : Facts}

/-- Only nodes of the alpha level hold facts. -/
theorem alphaLevel (layered : Layered network facts state.memory) {id : NodeId} {handle : Handle}
    (held : (state.memory.factsAt id).contains handle = true) :
    ∃ kind, network.kind? id = some kind ∧ kind.isAlphaLevel = true := by
  obtain ⟨kind, live, fitting⟩ := layered.fitting held
  refine ⟨kind, live, ?_⟩
  cases kind with
  | objectType | alpha => rfl
  | join | eval | terminal => exact fitting.elim

/-- A fact that is held is live, and the entry of its type holds it. -/
theorem entry (layered : Layered network facts state.memory) {paths : List (List NodeId)}
    (accounted : network.Accounted paths) {id : NodeId} {handle : Handle}
    (held : (state.memory.factsAt id).contains handle = true) :
    ∃ fact top, facts.find? handle = some fact ∧
      network.kind? top = some (.objectType fact.typeName) ∧
      (state.memory.factsAt top).contains handle = true := by
  obtain ⟨kind, live, -⟩ := layered.fitting held
  obtain ⟨level, own⟩ := accounted.exists_level live
  -- The induction goes up to the entry.
  induction own generalizing kind with
  | @top id found live' above =>
      obtain ⟨kind, live, fitting⟩ := layered.fitting held
      cases live'.symm.trans live
      cases found with
      | objectType typeName =>
          obtain ⟨fact, isFact, rfl⟩ := fitting
          exact ⟨fact, id, isFact, live, held⟩
      | alpha => cases above
      | join | eval | terminal => exact fitting.elim
  | @under id parent found level live' above upper ih =>
      obtain ⟨kind, live, fitting⟩ := layered.fitting held
      cases live'.symm.trans live
      cases found with
      | objectType => cases above
      | alpha parent test functions =>
          cases above
          obtain ⟨parentKind, parentLive, -⟩ := layered.fitting fitting
          exact ih fitting _ parentLive
      | join | eval | terminal => exact fitting.elim

/-- The facts that nodes hold are live. -/
theorem live (layered : Layered network facts state.memory) {paths : List (List NodeId)}
    (accounted : network.Accounted paths) {id : NodeId} {handle : Handle}
    (held : (state.memory.factsAt id).contains handle = true) :
    facts.contains handle = true := by
  obtain ⟨fact, top, isFact, -⟩ := layered.entry accounted held
  exact SortedMap.contains_eq_true.mpr ⟨fact, isFact⟩

/-- Facts that are held stay live and keep their type. -/
theorem congr (layered : Layered network facts state.memory) {others : Facts}
    (same : ∀ {id handle}, (state.memory.factsAt id).contains handle = true →
      others.find? handle = facts.find? handle) :
    Layered network others state.memory := by
  refine ⟨fun {id handle} held => ?_⟩
  obtain ⟨kind, live, fitting⟩ := layered.fitting held
  refine ⟨kind, live, ?_⟩
  cases kind with
  | objectType typeName =>
      change ∃ fact, others.find? handle = some fact ∧ _
      rw [same held]
      exact fitting
  | alpha => exact fitting
  | join | eval | terminal => exact fitting.elim

/-- A fact that is sent down from the entry of its type. -/
theorem addedTo (layered : Layered network view.facts state.memory) {handle : Handle}
    {fact : Object} (isFact : view.facts.find? handle = some fact) {top : NodeId}
    (isTop : network.kind? top = some (.objectType fact.typeName)) {nodes : NodeId → Prop}
    (added : AddedTo state handle nodes after)
    (sifted : Sifted network view fact (· = top) nodes) :
    Layered network view.facts after.memory := by
  refine ⟨fun {id held} handled => ?_⟩
  rcases (added.facts id held).mp handled with before | ⟨rfl, within⟩
  · obtain ⟨kind, live, fitting⟩ := layered.fitting before
    refine ⟨kind, live, ?_⟩
    cases kind with
    | alpha parent test functions => exact (added.facts parent held).mpr (.inl fitting)
    | objectType | join | eval | terminal => exact fitting
  · rcases (sifted id within).2 with rfl | ⟨parent, test, functions, live, inside⟩
    · exact ⟨_, isTop, fact, isFact, rfl⟩
    · exact ⟨_, live, (added.facts parent held).mpr (.inr ⟨rfl, inside⟩)⟩

/-- A fact that is taken back from the entry of its type is held nowhere any more. -/
theorem nowhere (layered : Layered network facts state.memory) (sound : network.Sound)
    {handle : Handle} {fact : Object} (isFact : facts.find? handle = some fact) {top : NodeId}
    (isTop : network.kind? top = some (.objectType fact.typeName)) {nodes : List NodeId}
    (removes : Removes network handle (· = top) state nodes after) (id : NodeId) :
    (after.memory.factsAt id).contains handle = false := by
  refine Bool.eq_false_iff.mpr fun still => ?_
  obtain ⟨kind, live, -⟩ := layered.fitting ((removes.removed.facts id handle).mp still).1
  obtain ⟨level, own⟩ := sound.accounted.exists_level live
  -- Whoever still holds the fact has it from a node above that still holds it.
  induction own generalizing kind with
  | @top id found live' above =>
      obtain ⟨kind, live, fitting⟩ := layered.fitting ((removes.removed.facts id handle).mp still).1
      cases live'.symm.trans live
      cases found with
      | objectType typeName =>
          obtain ⟨object, isObject, rfl⟩ := fitting
          cases isFact.symm.trans isObject
          have same : top = id := Option.some.inj
            ((sound.wellFormed.objectType.mpr isTop).symm.trans
              (sound.wellFormed.objectType.mpr live))
          exact Bool.false_ne_true ((removes.start same.symm).symm.trans still)
      | alpha => cases above
      | join | eval | terminal => exact fitting.elim
  | @under id parent found level live' above upper ih =>
      obtain ⟨before, notRemoved⟩ := (removes.removed.facts id handle).mp still
      obtain ⟨kind, live, fitting⟩ := layered.fitting before
      cases live'.symm.trans live
      cases found with
      | objectType => cases above
      | alpha parent test functions =>
          cases above
          obtain ⟨parentKind, parentLive, -⟩ := layered.fitting fitting
          refine ih ((removes.removed.facts parent handle).mpr ⟨fitting, ?_⟩) _ parentLive
          rintro ⟨-, removed⟩
          exact Bool.false_ne_true ((removes.below removed live).symm.trans still)
      | join | eval | terminal => exact fitting.elim

/-- Taking a fact back from the entry of its type. -/
theorem removedFrom (layered : Layered network facts state.memory) {handle : Handle}
    {nodes : List NodeId} (removed : RemovedFrom state handle nodes after)
    (nowhere : ∀ id, (after.memory.factsAt id).contains handle = false) :
    Layered network facts after.memory := by
  refine ⟨fun {id held} handled => ?_⟩
  obtain ⟨before, -⟩ := (removed.facts id held).mp handled
  obtain ⟨kind, live, fitting⟩ := layered.fitting before
  refine ⟨kind, live, ?_⟩
  cases kind with
  | alpha parent test functions =>
      refine (removed.facts parent held).mpr ⟨fitting, ?_⟩
      rintro ⟨rfl, -⟩
      exact Bool.false_ne_true ((nowhere id).symm.trans handled)
  | objectType | join | eval | terminal => exact fitting

end Layered

end Rete.Matching
