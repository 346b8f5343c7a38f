import Rete.Proofs.Matching.Walks
import Rete.Proofs.Network.History
import Rete.Proofs.Network.Levels

/-!
# Every propagation ends

On a network that rules were added to and removed from, every output of a node is one level deeper,
so all nodes that a walk along outputs is processing are on other levels (`WalkM.Above`), and what
it reaches from one output of a node it does not reach from another (`Network.Below.sibling`). So
walks that are not bounded by the depth of the network end and do what propagation does, whatever
the memories are.
-/

namespace Rete

namespace Network

variable {network : Network}

/-- A node is below another one, from output to output, or is that node. -/
inductive Below (network : Network) (top : NodeId) : NodeId → Prop
  | self : Below network top top
  | under {id parent : NodeId} {kind : NodeKind} (upper : Below network top parent)
    (live : network.kind? id = some kind) (above : kind.above? = some parent) :
    Below network top id

namespace Below

variable {top id : NodeId}

private theorem trans {via : NodeId} (first : Below network top via)
    (second : Below network via id) :
    Below network top id := by
  induction second with
  | self => exact first
  | under _ live above ih => exact ih.under live above

/-- What is below a node is on no lower level. -/
theorem level_le (below : Below network top id) {level other : Nat}
    (own : Level network top level) (lower : Level network id other) : level ≤ other := by
  induction below generalizing other with
  | self => exact Nat.le_of_eq (own.unique lower)
  | under _ live above ih =>
      obtain ⟨upper, rfl, parent⟩ := lower.of_above live above
      exact Nat.le_succ_of_le (ih parent)

/-- A node is not below its outputs. -/
theorem not_above {level : Nat} (own : Level network id level) {kind : NodeKind}
    (live : network.kind? top = some kind) (above : kind.above? = some id) :
    ¬ Below network top id := fun below =>
  absurd (below.level_le (.under live above own) own) (Nat.not_succ_le_self _)

/-- Outputs of one node have nothing below them in common. -/
theorem sibling {parent other : NodeId} {level : Nat} (own : Level network parent level)
    {kind otherKind : NodeKind} (live : network.kind? top = some kind)
    (above : kind.above? = some parent) (otherLive : network.kind? other = some otherKind)
    (otherAbove : otherKind.above? = some parent) (below : Below network top id)
    (otherBelow : Below network other id) : top = other := by
  induction below with
  | self =>
      cases otherBelow with
      | self => rfl
      | under upper live' above' =>
          cases live.symm.trans live'
          cases above.symm.trans above'
          exact absurd upper (not_above own otherLive otherAbove)
  | under upper live' above' ih =>
      cases otherBelow with
      | self =>
          cases otherLive.symm.trans live'
          cases otherAbove.symm.trans above'
          exact absurd upper (not_above own live above)
      | under otherUpper live'' above'' =>
          cases live'.symm.trans live''
          cases above'.symm.trans above''
          exact ih otherUpper

end Below

/-- A node with a level is live. -/
theorem Level.exists_node {id : NodeId} {level : Nat} (own : Level network id level) :
    ∃ node, network.node? id = some node := by
  cases own with
  | top live _ | under live _ _ => exact (kind?_eq_some.mp live).imp fun _ => And.left

/-- The outputs of a node are on the next level. -/
theorem WellFormed.level_of_child (wellFormed : network.WellFormed) {id : NodeId} {node : Node}
    (found : network.node? id = some node) {level : Nat} (own : Level network id level)
    {child : NodeId} (member : child ∈ node.children) : Level network child (level + 1) := by
  obtain ⟨kind, live, above⟩ := (wellFormed.mem_children found).mp member
  exact .under live above own

end Network

namespace WalkM

variable {network : Network} {view : FactView}

open MatchM (change)

/-! ## The alpha level -/

/-- What is visited from the outputs of a node is visited from the node. -/
theorem Visits.fromNode {α : Type} (wellFormed : network.WellFormed) {id : NodeId} {node : Node}
    (found : network.node? id = some node) {level : Nat} (own : network.Level id level)
    {next : Nat → WalkM α} {plain : MatchM α}
    (rest : Visits (fun other => ∃ child ∈ node.children, network.Below child other) next plain) :
    Visits (network.Below id) (fun extra => WalkM.visit id >>= fun _ => next extra) plain := by
  refine (rest.visit ?_).mono ?_
  · rintro ⟨child, member, below⟩
    obtain ⟨kind, live, above⟩ := (wellFormed.mem_children found).mp member
    exact Network.Below.not_above own live above below
  · rintro other (rfl | ⟨child, member, below⟩)
    · exact .self
    · obtain ⟨kind, live, above⟩ := (wellFormed.mem_children found).mp member
      exact (Network.Below.self.under live above).trans below

/-- The outputs of a node are visited one after the other. -/
theorem Visits.children {α : Type} (wellFormed : network.WellFormed) {id : NodeId} {node : Node}
    (found : network.node? id = some node) {level : Nat} (own : network.Level id level)
    {walk : Nat → NodeId → WalkM α} {plain : NodeId → MatchM α}
    (each : ∀ child ∈ node.children,
      Visits (network.Below child) (fun extra => walk extra child) (plain child)) :
    Visits (fun other => ∃ child ∈ node.children, network.Below child other)
      (fun extra => node.children.mapM (walk extra)) (node.children.mapM plain) := by
  refine .mapM (wellFormed.children_nodup found) each ?_
  intro child other id member isOther below otherBelow
  obtain ⟨kind, live, above⟩ := (wellFormed.mem_children found).mp member
  obtain ⟨otherKind, otherLive, otherAbove⟩ := (wellFormed.mem_children found).mp isOther
  exact below.sibling own live above otherLive otherAbove otherBelow

/-- Sending a fact down the alpha level ends, and visits no node twice. -/
theorem alphaPass_visits (sound : network.Sound) (handle : Handle) (fact : Object)
    {depth level : Nat} {id : NodeId} (own : network.Level id level)
    (enough : network.depth ≤ depth + level) :
    Visits (network.Below id)
      (fun extra => alphaPass network view handle fact (extra + depth) id)
      (MatchM.alphaPass network view handle fact depth id) := by
  induction depth generalizing id level with
  | zero =>
      have bound := sound.accounted.level_lt_size own
      rw [Network.depth] at enough
      omega
  | succ depth ih =>
      obtain ⟨node, found⟩ := own.exists_node
      simp only [alphaPass, MatchM.alphaPass]
      refine .fromNode sound.wellFormed found own ?_
      have each : ∀ child ∈ node.children, Visits (network.Below child)
          (fun extra => alphaPass network view handle fact (extra + depth) child)
          (MatchM.alphaPass network view handle fact depth child) := fun child member =>
        ih (sound.wellFormed.level_of_child found own member) (by omega)
      have onward : ∀ passes : Bool, Visits
          (fun other => ∃ child ∈ node.children, network.Below child other)
          (fun extra => do
            if !passes then return []
            lift (change fun state => { state with memory := state.memory.addFact id handle })
            let below ← node.children.mapM (alphaPass network view handle fact (extra + depth))
            return id :: below.flatten)
          (do
            if !passes then return []
            change fun state => { state with memory := state.memory.addFact id handle }
            let below ← node.children.mapM (MatchM.alphaPass network view handle fact depth)
            return id :: below.flatten) := by
        intro passes
        cases passes with
        | false => exact .pure []
        | true =>
            refine Visits.after (.lift _) fun _ => ?_
            exact (Visits.children sound.wellFormed found own each).before fun below => .pure _
      rw [found]
      dsimp only
      cases node.kind with
      | alpha parent test functions => exact .after (.lift _) onward
      | objectType | join | eval | terminal => exact .after (.pure true) onward

/-- Taking a fact out of the alpha level ends, and visits no node twice. -/
theorem alphaHolders_visits (sound : network.Sound) (handle : Handle) {depth level : Nat}
    {id : NodeId} (own : network.Level id level) (enough : network.depth ≤ depth + level) :
    Visits (network.Below id) (fun extra => alphaHolders network handle (extra + depth) id)
      (MatchM.alphaHolders network handle depth id) := by
  induction depth generalizing id level with
  | zero =>
      have bound := sound.accounted.level_lt_size own
      rw [Network.depth] at enough
      omega
  | succ depth ih =>
      obtain ⟨node, found⟩ := own.exists_node
      have each : ∀ child ∈ node.children, Visits (network.Below child)
          (fun extra => alphaHolders network handle (extra + depth) child)
          (MatchM.alphaHolders network handle depth child) :=
        fun child member => ih (sound.wellFormed.level_of_child found own member) (by omega)
      simp only [alphaHolders, MatchM.alphaHolders]
      refine .fromNode sound.wellFormed found own ?_
      refine Visits.after (.lift get) fun state => ?_
      split
      · exact .pure []
      · refine Visits.after (.lift _) fun _ => ?_
        rw [found]
        exact (Visits.children sound.wellFormed found own each).before fun below => .pure _

/-! ## Behind the alpha level -/

/-- Nodes are on lower levels. -/
def Above (network : Network) (nodes : List NodeId) (level : Nat) : Prop :=
  ∀ id ∈ nodes, ∃ upper < level, network.Level id upper

namespace Above

variable {active : List NodeId} {level : Nat} {id : NodeId}

/-- Where no node is active, every level is below all that are. -/
theorem nil (network : Network) (level : Nat) : Above network [] level :=
  fun _ none => absurd none List.not_mem_nil

/-- A node joins the active ones from below. -/
theorem cons (above : Above network active level) (own : network.Level id level) :
    Above network (id :: active) (level + 1) := by
  intro other member
  rcases List.mem_cons.mp member with rfl | earlier
  · exact ⟨level, Nat.lt_succ_self _, own⟩
  · obtain ⟨upper, less, isLevel⟩ := above other earlier
    exact ⟨upper, Nat.lt_succ_of_lt less, isLevel⟩

private theorem not_mem (above : Above network active level) (own : network.Level id level) :
    id ∉ active := by
  intro member
  obtain ⟨upper, less, isLevel⟩ := above id member
  exact absurd (isLevel.unique own) (Nat.ne_of_lt less)

end Above

/-- What is done for the outputs of a node follows what is done behind the node. -/
theorem retractOutputWith_follows {walk : Nat → NodeId → WalkM Unit} {stem : Tuple} {id : NodeId}
    {below : Matching → NodeId → Matching}
    (each : ∀ {node}, network.node? id = some node → ∀ child ∈ node.children,
      Follows (fun extra => walk extra child) (change fun state => below state child)) :
    Follows (fun extra => retractOutputWith network (walk extra) stem id)
      (change fun state => Matching.retractOutputWith network below stem state id) := by
  refine .of_change fun extra before => ?_
  unfold retractOutputWith Matching.retractOutputWith
  cases found : network.node? id with
  | none => exact rfl
  | some node =>
      refine UnboundedM.Yields.bind (b := before.matching) rfl ?_
      dsimp only
      cases before.matching.memory.dropTokens id stem with
      | mk dropped memory =>
          refine UnboundedM.Yields.bind (b := ()) rfl ?_
          cases dropped with
          | false => exact rfl
          | true => exact (Follows.forM_change (each found)).yields_change extra _

/-- Withdrawing tokens ends, and returns to no node that is being processed. -/
theorem withdraw_follows (sound : network.Sound) (stem : Tuple) {depth level : Nat} {id : NodeId}
    {active : List NodeId} (own : network.Level id level) (enough : network.depth ≤ depth + level)
    (above : Above network active level) :
    Follows (fun extra => withdraw network stem (extra + depth) active id)
      (change fun state => Matching.withdraw network depth stem state id) := by
  induction depth generalizing id level active with
  | zero =>
      have bound := sound.accounted.level_lt_size own
      rw [Network.depth] at enough
      omega
  | succ depth ih =>
      have output : Follows
          (fun extra => retractOutputWith network
            (withdraw network stem (extra + depth) (id :: active)) stem id)
          (change fun state => Matching.retractOutputWith network
            (Matching.withdraw network depth stem) stem state id) :=
        retractOutputWith_follows fun {node} found child member =>
          ih (sound.wellFormed.level_of_child found own member) (by omega) (above.cons own)
      simp only [withdraw]
      refine .reach (above.not_mem own) ?_
      unfold Matching.withdraw
      cases (network.node? id).map Node.kind with
      | none => exact .pure ()
      | some kind =>
          cases kind with
          | terminal => exact .lift _
          | objectType | alpha | join | eval =>
              exact Visits.after (.lift (change fun state =>
                { state with memory := state.memory.dropBlocked id stem })) fun _ => output

/-- What is offered to the outputs of a node follows what is offered behind the node. -/
theorem emitWith_follows {walk : Nat → Tuple → NodeId → WalkM Unit} {id : NodeId}
    {offer : Tuple → NodeId → MatchM Unit} (each : ∀ {node}, network.node? id = some node →
      ∀ child ∈ node.children, ∀ token,
        Follows (fun extra => walk extra token child) (offer token child)) (token : Tuple) :
    Follows (fun extra => emitWith network (walk extra) id token)
      (MatchM.emitWith network offer id token) := by
  unfold emitWith MatchM.emitWith
  refine Visits.after (.lift get) fun state => ?_
  dsimp only
  split
  · exact .pure ()
  · refine Visits.after (.lift _) fun _ => ?_
    cases found : network.node? id with
    | none => exact .pure ()
    | some node => exact Follows.forM fun child member => each found child member token

/-- Offering a token ends, and returns to no node that is being processed. -/
theorem leftActivate_follows (sound : network.Sound) {depth level : Nat} {id : NodeId}
    {active : List NodeId} (own : network.Level id level) (enough : network.depth ≤ depth + level)
    (above : Above network active level) (token : Tuple) :
    Follows (fun extra => leftActivate network view (extra + depth) active token id)
      (MatchM.leftActivate network view depth token id) := by
  induction depth generalizing id level active token with
  | zero =>
      have bound := sound.accounted.level_lt_size own
      rw [Network.depth] at enough
      omega
  | succ depth ih =>
      have emits : ∀ token, Follows
          (fun extra => emitWith network
            (leftActivate network view (extra + depth) (id :: active)) id token)
          (MatchM.emitWith network (MatchM.leftActivate network view depth) id token) :=
        emitWith_follows fun found child member =>
          ih (sound.wellFormed.level_of_child found own member) (by omega) (above.cons own)
      simp only [leftActivate, MatchM.leftActivate]
      refine .reach (above.not_mem own) ?_
      cases (network.node? id).map Node.kind with
      | none => exact .pure ()
      | some kind =>
          cases kind with
          | terminal => exact .lift _
          | objectType | alpha => exact .throw _
          | eval left test functions =>
              refine Visits.after (.lift _) fun passes => ?_
              cases passes with
              | false => exact .pure ()
              | true => exact emits token
          | join left right tests negated functions =>
              cases negated with
              | false =>
                  refine Visits.after (.lift get) fun state => ?_
                  refine Follows.forM fun handle _ => ?_
                  refine Visits.after (.lift _) fun fact => ?_
                  refine Visits.after (.lift _) fun passes => ?_
                  cases passes with
                  | false => exact .pure ()
                  | true => exact emits (token ++ [handle])
              | true =>
                  refine Visits.after (.lift get) fun state => ?_
                  refine Visits.after (.lift _) fun blocking => ?_
                  split
                  · exact emits token
                  · exact .lift _

/-! ## From the alpha level on -/

variable (sound : network.Sound)

include sound

/-- Letting a token through a live node. -/
theorem emit_follows {id : NodeId} {kind : NodeKind} (live : network.kind? id = some kind)
    (token : Tuple) :
    Follows (fun extra => emit network view (extra + network.depth) id token)
      (MatchM.emit network view id token) := by
  obtain ⟨level, own⟩ := sound.accounted.exists_level live
  refine emitWith_follows (fun found child member => ?_) token
  exact leftActivate_follows sound (sound.wellFormed.level_of_child found own member)
    (Nat.le_add_right ..) (.cons (.nil network level) own)

/-- Dropping what a live node let through. -/
theorem retractOutput_follows {id : NodeId} {kind : NodeKind}
    (live : network.kind? id = some kind) (stem : Tuple) :
    Follows (fun extra => retractOutput network (extra + network.depth) stem id)
      (change fun state => Matching.retractOutput network stem state id) := by
  obtain ⟨level, own⟩ := sound.accounted.exists_level live
  refine retractOutputWith_follows fun found child member => ?_
  exact withdraw_follows sound stem (sound.wellFormed.level_of_child found own member)
    (Nat.le_add_right ..) (.cons (.nil network level) own)

private theorem block_follows {join : NodeId} {kind : NodeKind}
    (live : network.kind? join = some kind) (token : Tuple) (fact : Handle) :
    Follows (fun extra => block network (extra + network.depth) join token fact)
      (change (Matching.block network join token fact)) := by
  refine .of_change fun extra before => ?_
  unfold block Matching.block
  refine UnboundedM.Yields.bind (b := before.matching) rfl ?_
  refine UnboundedM.Yields.bind (b := ()) rfl ?_
  dsimp only
  split
  · exact (retractOutput_follows sound live token).yields_change extra _
  · exact rfl

private theorem rightActivateJoin_follows (handle : Handle) (fact : Object) (id : NodeId) :
    Follows
      (fun extra => rightActivateJoin network view (extra + network.depth) handle fact id)
      (MatchM.rightActivateJoin network view handle fact id) := by
  unfold rightActivateJoin MatchM.rightActivateJoin
  cases live : (network.node? id).map Node.kind with
  | none => exact .pure ()
  | some kind =>
      cases kind with
      | objectType | alpha | eval | terminal => exact .pure ()
      | join left right tests negated functions =>
          refine Visits.after (.lift get) fun state => ?_
          refine Follows.forM fun token _ => ?_
          refine Visits.after (.lift _) fun passes => ?_
          cases passes with
          | false => exact .pure ()
          | true =>
              cases negated with
              | true => exact block_follows sound live token handle
              | false => exact emit_follows sound live (token ++ [handle])

private theorem rightActivate_follows (handle : Handle) (fact : Object) (id : NodeId) :
    Follows (fun extra => rightActivate network view (extra + network.depth) handle fact id)
      (MatchM.rightActivate network view handle fact id) := by
  unfold rightActivate MatchM.rightActivate
  cases network.node? id with
  | none => exact .pure ()
  | some node => exact Follows.forM fun join _ => rightActivateJoin_follows sound handle fact join

private theorem rightRetractJoin_follows (handle : Handle) (id : NodeId) :
    Follows (fun extra => rightRetractJoin network (extra + network.depth) handle id)
      (MatchM.rightRetractJoin network handle id) := by
  unfold rightRetractJoin
  cases live : (network.node? id).map Node.kind with
  | none => exact .lift _
  | some kind =>
      cases kind with
      | objectType | alpha | eval | terminal => exact .lift _
      | join left right tests negated functions =>
          cases negated with
          | true => exact .lift _
          | false =>
              unfold MatchM.rightRetractJoin
              rw [live]
              refine Visits.after (.lift get) fun state => ?_
              refine Visits.after (Follows.forM_change fun token _ => ?_) fun _ => .pure []
              exact retractOutput_follows sound live token

private theorem rightRetract_follows (handle : Handle) (id : NodeId) :
    Follows (fun extra => rightRetract network (extra + network.depth) handle id)
      (MatchM.rightRetract network handle id) := by
  unfold rightRetract MatchM.rightRetract
  cases network.node? id with
  | none => exact .pure []
  | some node =>
      refine Visits.after (Follows.mapM fun join _ => ?_) fun freed => .pure freed.flatten
      exact rightRetractJoin_follows sound handle join

private theorem unblock_follows (id : NodeId) (token : Tuple) :
    Follows (fun extra => unblock network view (extra + network.depth) id token)
      (MatchM.unblock network view id token) := by
  unfold unblock MatchM.unblock
  cases live : (network.node? id).map Node.kind with
  | none => exact .pure ()
  | some kind =>
      cases kind with
      | objectType | alpha | eval | terminal => exact .pure ()
      | join left right tests negated functions =>
          refine Visits.after (.lift get) fun state => ?_
          dsimp only
          split
          · exact emit_follows sound live token
          · exact .pure ()

/-! ## Facts -/

private theorem seed_follows : Follows (fun extra => seed network view (extra + network.depth))
    (MatchM.seed network view) := by
  unfold seed MatchM.seed
  refine Visits.after (.lift get) fun state => ?_
  split
  · exact .pure ()
  · refine Visits.after (.lift _) fun _ => Follows.forM fun root member => ?_
    obtain ⟨kind, live, left⟩ := sound.wellFormed.mem_rootChildren.mp member
    exact leftActivate_follows sound (.top live (NodeKind.above?_of_left? left))
      (Nat.le_refl _) (.nil network 0) []

/-- The entry of a type is on top. -/
theorem level_of_entry {typeName : String} {entry : NodeId}
    (isEntry : network.objectType? typeName = some entry) : network.Level entry 0 :=
  .top (sound.wellFormed.objectType.mp isEntry) rfl

private theorem assert_visits (handle : Handle) : Visits (fun _ => True)
    (fun extra => assert network view (extra + network.depth) handle)
    (MatchM.assert network view handle) := by
  unfold assert MatchM.assert
  refine Visits.after (.lift _) fun fact => ?_
  cases isEntry : network.objectType? fact.typeName with
  | none => exact .pure ()
  | some entry =>
      have passes : Visits (network.Below entry)
          (fun extra => alphaPass network view handle fact (extra + network.depth) entry)
          (MatchM.alphaPass network view handle fact network.depth entry) :=
        alphaPass_visits sound handle fact (level_of_entry sound isEntry) (Nat.le_refl _)
      refine (passes.mono fun _ => trivial).before fun passed => ?_
      exact Follows.forM fun id _ => rightActivate_follows sound handle fact id

private theorem retract_visits (handle : Handle) : Visits (fun _ => True)
    (fun extra => retract network view (extra + network.depth) handle)
    (MatchM.retract network view handle) := by
  unfold retract MatchM.retract
  refine Visits.after (.lift _) fun fact => ?_
  cases isEntry : network.objectType? fact.typeName with
  | none => exact .pure ()
  | some entry =>
      have holds := alphaHolders_visits sound handle (level_of_entry sound isEntry) (Nat.le_refl _)
      refine (holds.mono fun _ => trivial).before fun holders => ?_
      refine Visits.after (Follows.mapM fun id _ => rightRetract_follows sound handle id)
        fun freed => ?_
      exact Follows.forM fun place _ => unblock_follows sound place.1 place.2

end WalkM

/-- On a network that rules were added to and removed from, seeding it and following a fact that
comes or goes end, whatever the memories are and however tests turn out. -/
theorem propagation_ends (changes : List Network.Change) (view : FactView) (handle : Handle) :
    let network := (Network.history {} changes).2
    WalkM.Settles (WalkM.seed network view) (MatchM.seed network view) ∧
      WalkM.Settles (WalkM.assert network view · handle) (MatchM.assert network view handle) ∧
      WalkM.Settles (WalkM.retract network view · handle) (MatchM.retract network view handle) := by
  intro network
  have sound : network.Sound := (Network.sound_empty.history changes).sound
  exact ⟨.of_visits _ _ (WalkM.seed_follows sound),
    .of_visits _ _ (WalkM.assert_visits sound handle),
    .of_visits _ _ (WalkM.retract_visits sound handle)⟩

end Rete
