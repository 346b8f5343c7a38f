import Mathlib.Data.List.Nodup
import Rete.Network.Propagation
import Rete.Proofs.Computation
import Rete.Proofs.Unbounded

/-!
# Walks through a network

Propagation as a walk along the outputs of nodes that is not bounded by the depth of the network,
but followed as deep as its fuel allows. It keeps track of the nodes of the alpha level that it
visits, and of whether it comes back to a node that is still being processed.
-/

namespace Rete

/-- What a walk through a network keeps track of besides the memories. -/
structure Walk where
  matching : Matching
  /-- Whether a node was reached again while it was being processed. -/
  returned : Bool := false
  /-- The nodes of the alpha level that were visited, in order. -/
  visited : List NodeId := []

/-- A walk through a network. -/
abbrev WalkM : Type → Type := UnboundedM Error Walk

namespace WalkM

variable (network : Network) (view : FactView)

/-- A step on the memories. -/
def lift {α : Type} (operation : MatchM α) : WalkM α :=
  ExceptT.mk fun walk =>
    let (result, matching) := operation.run.run walk.matching
    some (result, { walk with matching })

/-- Visits a node of the alpha level. -/
def visit (id : NodeId) : WalkM Unit :=
  modify fun walk => { walk with visited := walk.visited ++ [id] }

/-- Reaches a node while others are being processed. -/
def reach (active : List NodeId) (id : NodeId) : WalkM Unit :=
  modify fun walk => { walk with returned := walk.returned || active.contains id }

open MatchM (liftResult change)

/-! ## The alpha level -/

/-- Sends a fact down the alpha level from a node. -/
def alphaPass (handle : Handle) (fact : Object) : (fuel : Nat) → NodeId → WalkM (List NodeId)
  | 0, _ => .outOfFuel
  | fuel + 1, id => do
    visit id
    match network.node? id with
    | none => return []
    | some node => do
      let passes ← match node.kind with
        | .alpha _ test functions =>
          lift (liftResult (view.holds functions { current := fact } test))
        | _ => pure true
      if !passes then return []
      lift (change fun state => { state with memory := state.memory.addFact id handle })
      let below ← node.children.mapM (alphaPass handle fact fuel)
      return id :: below.flatten

/-- Takes a fact out of the memories of a node and of those below. -/
def alphaHolders (handle : Handle) : (fuel : Nat) → NodeId → WalkM (List NodeId)
  | 0, _ => .outOfFuel
  | fuel + 1, id => do
    visit id
    let held := (((← lift get).memory.alpha.find? id).map (·.contains handle)).getD false
    if !held then return []
    lift (change fun state => { state with memory := state.memory.removeFact id handle })
    match network.node? id with
    | none => return [id]
    | some node =>
      let below ← node.children.mapM (alphaHolders handle fuel)
      return id :: below.flatten

/-! ## Joins and evals -/

/-- Lets a token through a node; if it is new it is offered to the nodes behind. -/
def emitWith (offer : Tuple → NodeId → WalkM Unit) (id : NodeId) (token : Tuple) :
    WalkM Unit := do
  let known := (← lift get).memory.tokensAt id |>.contains token
  if known then return
  lift (change fun state => { state with memory := state.memory.addToken id token })
  match network.node? id with
  | none => return
  | some node => node.children.forM (offer token)

/-- Offers a token to a node from the left, while others are being processed. -/
def leftActivate : (fuel : Nat) → (active : List NodeId) → Tuple → NodeId → WalkM Unit
  | 0, _, _, _ => .outOfFuel
  | fuel + 1, active, token, id => do
    let emit := emitWith network (leftActivate fuel (id :: active)) id
    reach active id
    match (network.node? id).map Node.kind with
    | none => return
    | some (.join _ right tests false functions) => do
      ((← lift get).memory.factsAt right).keys.forM fun handle => do
        let fact ← lift (liftResult (view.fact handle))
        if ← lift (liftResult (view.allHold functions ⟨token, some fact⟩ tests)) then
          emit (token ++ [handle])
    | some (.join _ right tests true functions) => do
      let facts := ((← lift get).memory.factsAt right).keys
      let blocking ← lift (MatchM.matching view functions tests token facts)
      if blocking.isEmpty then emit token
      else
        lift (change fun state =>
          let blocked := (state.memory.blockedAt id).insert token (.ofList blocking)
          { state with memory := state.memory.setBlocked id blocked })
    | some (.eval _ test functions) => do
      if ← lift (liftResult (view.holds functions { tuple := token } test)) then emit token
    | some (.terminal _ terminal) => lift (change (Matching.note (.found terminal token)))
    | some (.objectType _) | some (.alpha ..) =>
      throw (Cause.internal ("alpha node " ++ id.text ++ " used as a left input") : Error)

/-- Drops the tokens with a stem that a node let through, and all that came of them. -/
def retractOutputWith (below : NodeId → WalkM Unit) (stem : Tuple) (id : NodeId) :
    WalkM Unit := do
  match network.node? id with
  | none => return
  | some node =>
    let (dropped, memory) := (← lift get).memory.dropTokens id stem
    lift (change fun state => { state with memory })
    if dropped then node.children.forM below

/-- Takes back the tokens with a stem that a node was offered, and all that came of them, while
other nodes are being processed. -/
def withdraw (stem : Tuple) : (fuel : Nat) → (active : List NodeId) → NodeId → WalkM Unit
  | 0, _, _ => .outOfFuel
  | fuel + 1, active, id => do
    reach active id
    match (network.node? id).map Node.kind with
    | none => return
    | some (.terminal _ terminal) => lift (change (Matching.note (.lost terminal.rule stem)))
    | some _ =>
      lift (change fun state => { state with memory := state.memory.dropBlocked id stem })
      retractOutputWith network (withdraw stem fuel (id :: active)) stem id

variable (fuel : Nat)

/-- Lets a token through a node. -/
def emit (id : NodeId) (token : Tuple) : WalkM Unit :=
  emitWith network (leftActivate network view fuel [id]) id token

/-- Drops the tokens with a stem that a node let through, and all that came of them. -/
def retractOutput (stem : Tuple) (id : NodeId) : WalkM Unit :=
  retractOutputWith network (withdraw network stem fuel [id]) stem id

/-- Adds a fact to those that block a token of a negated join; the first one stops the token. -/
def block (join : NodeId) (token : Tuple) (fact : Handle) : WalkM Unit := do
  let blocked := (← lift get).memory.blockedAt join
  let blocking := (blocked.find? token).getD ∅
  lift (change fun state =>
    let memory := state.memory.setBlocked join (blocked.insert token (blocking.add fact))
    { state with memory })
  if blocking.isEmpty then retractOutput network fuel token join

/-- Offers a fact to a join from the right. -/
def rightActivateJoin (handle : Handle) (fact : Object) (id : NodeId) : WalkM Unit :=
  match (network.node? id).map Node.kind with
  | some (.join left _ tests negated functions) => do
    ((← lift get).memory.leftTokens left).keys.forM fun token => do
      if ← lift (liftResult (view.allHold functions ⟨token, some fact⟩ tests)) then
        if negated then block network fuel id token handle
        else emit network view fuel id (token ++ [handle])
  | _ => return

/-- Offers a fact that passed a node of the alpha level to the joins behind it. -/
def rightActivate (handle : Handle) (fact : Object) (id : NodeId) : WalkM Unit :=
  match network.node? id with
  | none => return
  | some node => node.rightChildren.forM (rightActivateJoin network view fuel handle fact)

/-- Takes back what a fact has contributed to a join from the right; returns the tokens of a
negated join that nothing blocks any more. -/
def rightRetractJoin (handle : Handle) (id : NodeId) : WalkM (List (NodeId × Tuple)) :=
  match (network.node? id).map Node.kind with
  | some (.join _ _ _ false _) => do
    let doomed := ((← lift get).memory.tokensAt id).keys.filter fun token =>
      token.getLast? == some handle
    doomed.forM fun token => retractOutput network fuel token id
    return []
  | _ => lift (MatchM.rightRetractJoin network handle id)

/-- Takes back what a fact has contributed behind a node of the alpha level. -/
def rightRetract (handle : Handle) (id : NodeId) : WalkM (List (NodeId × Tuple)) :=
  match network.node? id with
  | none => return []
  | some node => do
    let freed ← node.rightChildren.mapM (rightRetractJoin network fuel handle)
    return freed.flatten

/-- Lets a token through a negated join that does not block it any more, if it is still
offered. -/
def unblock (id : NodeId) (token : Tuple) : WalkM Unit :=
  match (network.node? id).map Node.kind with
  | some (.join left _ _ _ _) => do
    let memory := (← lift get).memory
    let blocked := !(((memory.blockedAt id).find? token).getD ∅).isEmpty
    if (memory.leftTokens left).contains token && !blocked then emit network view fuel id token
  | _ => return

/-! ## Facts -/

/-- Passes on the empty token of the root. -/
def seed : WalkM Unit := do
  if (← lift get).memory.seeded then return
  lift (change fun state => { state with memory := { state.memory with seeded := true } })
  network.rootChildren.forM (leftActivate network view fuel [] [])

/-- Follows a fact that has come into the view, or back with other fields. -/
def assert (handle : Handle) : WalkM Unit := do
  let fact ← lift (liftResult (view.fact handle))
  match network.objectType? fact.typeName with
  | none => return
  | some entry =>
    let passed ← alphaPass network view handle fact fuel entry
    passed.forM (rightActivate network view fuel handle fact)

/-- Follows a fact that is about to leave the view. -/
def retract (handle : Handle) : WalkM Unit := do
  let fact ← lift (liftResult (view.fact handle))
  match network.objectType? fact.typeName with
  | none => return
  | some entry =>
    let holders ← alphaHolders network handle fuel entry
    let freed ← holders.mapM (rightRetract network fuel handle)
    freed.flatten.forM fun (id, token) => unblock network view fuel id token

/-! ## Walks that do what propagation does -/

variable {α β ι : Type}

/-- However deep it is followed, a walk ends like a propagation step, has come back to no node that
was being processed, and has visited nodes of a set on the alpha level, each once. -/
def Visits (nodes : NodeId → Prop) (walk : Nat → WalkM α) (plain : MatchM α) : Prop :=
  ∀ before, ∃ visits, visits.Nodup ∧ (∀ id ∈ visits, nodes id) ∧ ∀ extra,
    (walk extra).Yields before (plain.run.run before.matching).1
      { matching := (plain.run.run before.matching).2
        returned := before.returned
        visited := before.visited ++ visits }

/-- A walk that visits no nodes on the alpha level. -/
abbrev Follows : (Nat → WalkM α) → MatchM α → Prop := Visits fun _ => False

/-- From any memories, a walk ends like a propagation step. It comes back to no node that is being
processed, and visits no node of the alpha level twice. -/
def Settles (walk : Nat → WalkM α) (plain : MatchM α) : Prop :=
  ∀ matching, ∃ visited, visited.Nodup ∧
    UnboundedM.EndsWith walk { matching } (plain.run.run matching).1
      { matching := (plain.run.run matching).2, returned := false, visited }

/-- A walk settles that visits each node once however deep it is followed beyond some depth. -/
theorem Settles.of_visits {nodes : NodeId → Prop} (walk : Nat → WalkM α) (enough : Nat)
    {plain : MatchM α} (visits : Visits nodes (fun extra => walk (extra + enough)) plain) :
    Settles walk plain := by
  intro matching
  obtain ⟨visited, distinct, -, yields⟩ := visits { matching }
  exact ⟨visited, distinct, .of_extra yields⟩

namespace Visits

variable {nodes others : NodeId → Prop}

/-- A walk that visits some nodes stays within more of them. -/
theorem mono {walk : Nat → WalkM α} {plain : MatchM α} (visits : Visits nodes walk plain)
    (within : ∀ {id}, nodes id → others id) : Visits others walk plain := by
  intro before
  obtain ⟨visited, distinct, inside, yields⟩ := visits before
  exact ⟨visited, distinct, fun id member => within (inside id member), yields⟩

/-- An operation without recursion visits nothing. -/
theorem lift (operation : MatchM α) : Visits nodes (fun _ => WalkM.lift operation) operation :=
  fun before => ⟨[], .nil, fun _ none => absurd none List.not_mem_nil, fun extra => by
    rw [List.append_nil]
    rfl⟩

/-- Yielding a value visits nothing. -/
theorem pure (a : α) : Visits nodes (fun _ => Pure.pure a) (Pure.pure a) := lift (Pure.pure a)

/-- Failing visits nothing. -/
theorem throw (error : Error) :
    Visits nodes (fun _ => (throw error : WalkM α)) (throw error : MatchM α) :=
  lift (throwThe Error error)

section

variable {walk : Nat → WalkM β} {plain : MatchM β} {next : Nat → β → WalkM α}
  {onward : β → MatchM α}

/-- Walks that visit different nodes, one after the other. -/
theorem bind (first : Visits nodes walk plain)
    (each : ∀ value, Visits others (fun extra => next extra value) (onward value))
    (disjoint : ∀ {id}, nodes id → ¬ others id) :
    Visits (fun id => nodes id ∨ others id) (fun extra => walk extra >>= next extra)
      (plain >>= onward) := by
  intro before
  obtain ⟨visited, distinct, inside, yields⟩ := first before
  cases outcome : plain.run.run before.matching with
  | mk result between =>
  rw [run_bind_eq, outcome]
  rw [outcome] at yields
  cases result with
  | error e =>
      exact ⟨visited, distinct, fun id member => .inl (inside id member),
        fun extra => (yields extra).bind_error (next extra)⟩
  | ok value =>
      obtain ⟨more, distinctMore, insideMore, rest⟩ :=
        each value ⟨between, before.returned, before.visited ++ visited⟩
      rw [List.append_assoc] at rest
      refine ⟨visited ++ more, List.nodup_append'.mpr ⟨distinct, distinctMore, ?_⟩, ?_,
        fun extra => (yields extra).bind (rest extra)⟩
      · exact fun id here there => disjoint (inside id here) (insideMore id there)
      · intro id member
        exact (List.mem_append.mp member).imp (inside id) (insideMore id)

/-- What comes before a walk visits no nodes. -/
theorem after (first : Follows walk plain)
    (each : ∀ value, Visits nodes (fun extra => next extra value) (onward value)) :
    Visits nodes (fun extra => walk extra >>= next extra) (plain >>= onward) :=
  (first.bind each False.elim).mono fun either => either.resolve_left id

/-- What comes after a walk visits no nodes. -/
theorem before (first : Visits nodes walk plain)
    (each : ∀ value, Follows (fun extra => next extra value) (onward value)) :
    Visits nodes (fun extra => walk extra >>= next extra) (plain >>= onward) :=
  (first.bind each fun _ => id).mono fun either => either.resolve_right id

end

section

variable {id : NodeId} {next : Nat → WalkM α} {plain : MatchM α}

/-- A node of the alpha level is visited, and others after it. -/
theorem visit (rest : Visits nodes next plain) (new : ¬ nodes id) :
    Visits (fun other => other = id ∨ nodes other)
      (fun extra => WalkM.visit id >>= fun _ => next extra) plain := by
  intro before
  obtain ⟨visited, distinct, inside, yields⟩ :=
    rest { before with visited := before.visited ++ [id] }
  rw [List.append_assoc] at yields
  have distinct := List.nodup_cons.mpr ⟨fun member => new (inside id member), distinct⟩
  refine ⟨id :: visited, distinct, ?_, fun extra => ?_⟩
  · intro other member
    exact (List.mem_cons.mp member).imp_right (inside other)
  · exact UnboundedM.Yields.bind (b := ⟨⟩) rfl (yields extra)

/-- A node is reached that is not being processed. -/
theorem reach {active : List NodeId} (new : id ∉ active) (rest : Visits nodes next plain) :
    Visits nodes (fun extra => WalkM.reach active id >>= fun _ => next extra) plain := by
  intro before
  obtain ⟨visited, distinct, inside, yields⟩ := rest before
  refine ⟨visited, distinct, inside, fun extra =>
    UnboundedM.Yields.bind (b := ⟨⟩) ?_ (yields extra)⟩
  have notReturned : active.contains id = false := by
    rw [← Bool.not_eq_true, List.contains_iff_mem]
    exact new
  change some (Except.ok (), { before with returned := before.returned || active.contains id }) = _
  rw [notReturned, Bool.or_false]

end

/-- The nodes visited from different items are different. -/
theorem mapM {reached : ι → NodeId → Prop} {walk : Nat → ι → WalkM α} {plain : ι → MatchM α}
    {items : List ι} (distinct : items.Nodup)
    (each : ∀ item ∈ items, Visits (reached item) (fun extra => walk extra item) (plain item))
    (disjoint : ∀ {item other id}, item ∈ items → other ∈ items → reached item id →
      reached other id → item = other) :
    Visits (fun id => ∃ item ∈ items, reached item id) (fun extra => items.mapM (walk extra))
      (items.mapM plain) := by
  induction items with
  | nil =>
      simp only [List.mapM_nil]
      exact .pure []
  | cons item rest ih =>
      obtain ⟨new, distinct⟩ := List.nodup_cons.mp distinct
      have others := ih distinct (fun other member => each other (List.mem_cons_of_mem _ member))
        fun one other => disjoint (List.mem_cons_of_mem _ one) (List.mem_cons_of_mem _ other)
      simp only [List.mapM_cons]
      refine ((each item List.mem_cons_self).bind
        (fun value => others.before fun values => .pure (value :: values)) ?_).mono ?_
      · rintro id here ⟨other, member, there⟩
        cases disjoint List.mem_cons_self (List.mem_cons_of_mem _ member) here there
        exact new member
      · rintro id (here | ⟨other, member, there⟩)
        · exact ⟨item, List.mem_cons_self, here⟩
        · exact ⟨other, List.mem_cons_of_mem _ member, there⟩

end Visits

namespace Follows

variable {items : List ι}

/-- Walks over a list, with their values. -/
theorem mapM {walk : Nat → ι → WalkM α} {plain : ι → MatchM α}
    (each : ∀ item ∈ items, Follows (fun extra => walk extra item) (plain item)) :
    Follows (fun extra => items.mapM (walk extra)) (items.mapM plain) := by
  induction items with
  | nil =>
      simp only [List.mapM_nil]
      exact .pure []
  | cons item rest ih =>
      simp only [List.mapM_cons]
      refine (each item List.mem_cons_self).after fun value => ?_
      exact (ih fun other member => each other (List.mem_cons_of_mem _ member)).after
        fun values => .pure (value :: values)

/-- Walks over a list. -/
theorem forM {walk : Nat → ι → WalkM PUnit} {plain : ι → MatchM PUnit}
    (each : ∀ item ∈ items, Follows (fun extra => walk extra item) (plain item)) :
    Follows (fun extra => items.forM (walk extra)) (items.forM plain) := by
  induction items with
  | nil => exact .pure PUnit.unit
  | cons item rest ih =>
      simp only [List.forM_eq_forM, List.forM_cons]
      exact (each item List.mem_cons_self).after fun _ =>
        ih fun other member => each other (List.mem_cons_of_mem _ member)

/-- A walk that changes the memories and does not fail. -/
theorem of_change {walk : Nat → WalkM Unit} {f : Matching → Matching}
    (yields : ∀ extra (before : Walk),
      (walk extra).Yields before (.ok ()) { before with matching := f before.matching }) :
    Follows walk (MatchM.change f) := fun before =>
  ⟨[], .nil, fun _ none => absurd none List.not_mem_nil, fun extra => by
    rw [List.append_nil]
    exact yields extra before⟩

/-- A walk that makes a change does nothing else. -/
theorem yields_change {walk : Nat → WalkM Unit} {f : Matching → Matching}
    (follows : Follows walk (MatchM.change f)) (extra : Nat) (before : Walk) :
    (walk extra).Yields before (.ok ()) { before with matching := f before.matching } := by
  obtain ⟨visits, -, none, yields⟩ := follows before
  rw [List.eq_nil_iff_forall_not_mem.mpr none, List.append_nil] at yields
  exact yields extra

/-- Changes one after the other. -/
theorem forM_change {walk : Nat → ι → WalkM Unit} {f : Matching → ι → Matching}
    (each : ∀ item ∈ items,
      Follows (fun extra => walk extra item) (MatchM.change fun state => f state item)) :
    Follows (fun extra => items.forM (walk extra))
      (MatchM.change fun state => items.foldl f state) := by
  induction items with
  | nil => exact .pure PUnit.unit
  | cons item rest ih =>
      simp only [List.forM_eq_forM, List.forM_cons]
      have first := each item List.mem_cons_self
      exact first.after fun _ => ih fun other member => each other (List.mem_cons_of_mem _ member)

end Follows

end WalkM

end Rete
