import Rete.Proofs.Computation
import Rete.Proofs.Matching.Spreading

/-!
# Tokens on their way down

Offering a new token to a node adds what comes of it and nothing else, whether or not a condition
fails on the way, and leaves the memories coherent; if none fails, every place that the token
reaches is settled afterwards (`leftActivate_offers`). The same holds of letting a token through
a node (`emit_emitted`).
-/

namespace Rete

/-- A view knows exactly the live facts. -/
theorem FactView.fact_eq_ok {view : FactView} {handle : Handle} {object : Object} :
    view.fact handle = .ok object ↔ view.facts.find? handle = some object := by
  unfold FactView.fact
  cases view.facts.find? handle with
  | none => simp only [reduceCtorEq]
  | some found => simp only [Except.ok.injEq, Option.some.injEq]

/-- A view does not find a fact only if it is not live. -/
theorem FactView.fact_eq_error {view : FactView} {handle : Handle} {error : Error}
    (missing : view.fact handle = .error error) : view.facts.contains handle = false := by
  refine Bool.eq_false_iff.mpr fun live => ?_
  obtain ⟨object, isObject⟩ := SortedMap.contains_eq_true.mp live
  cases missing.symm.trans (FactView.fact_eq_ok.mpr isObject)

namespace MatchM

variable {network : Network} {state after : Matching} {result : Except Error Unit}

/-- Letting a token through does nothing if it is known; else it is stored and offered. -/
theorem ends_emitWith {offer : Tuple → NodeId → MatchM Unit} {id : NodeId} {token : Tuple}
    {node : Node} (found : network.node? id = some node) :
    Ends (emitWith network offer id token) state result after ↔
      if (state.memory.tokensAt id).contains token then result = .ok () ∧ after = state
      else Ends (node.children.forM (offer token))
        { state with memory := state.memory.addToken id token } result after := by
  unfold emitWith change
  simp only [found]
  rw [ends_get_bind]
  by_cases known : (state.memory.tokensAt id).contains token = true
  · simp only [known, ↓reduceIte, ends_pure]
  · simp only [known, Bool.false_eq_true, ↓reduceIte, ends_modify_bind]

/-- Collecting the facts that match a token changes nothing. -/
theorem ends_matching {view : FactView} {functions : FunctionTable} {tests : List Expr}
    {token : Tuple} {facts : List Handle} {result : Except Error (List Handle)}
    (run : Ends (matching view functions tests token facts) state result after) :
    after = state ∧ ∀ blocking, result = .ok blocking → ∀ fact, fact ∈ blocking ↔
      fact ∈ facts ∧ view.Joins functions tests token fact := by
  induction facts generalizing result after with
  | nil =>
      obtain ⟨rfl, rfl⟩ := (ends_pure _).mp run
      refine ⟨rfl, fun blocking same fact => ?_⟩
      cases same
      simp only [List.not_mem_nil, false_and]
  | cons handle rest ih =>
      unfold matching at run
      rcases ends_lift_bind.mp run with ⟨object, isFact, run⟩ | ⟨error, -, rfl, rfl⟩
      · rcases ends_lift_bind.mp run with ⟨holds, isHeld, run⟩ | ⟨error, -, rfl, rfl⟩
        · rcases ends_bind.mp run with ⟨others, between, inner, last⟩ | ⟨error, inner, rfl⟩
          · obtain ⟨rfl, members⟩ := ih inner
            obtain ⟨rfl, rfl⟩ := (ends_pure _).mp last
            refine ⟨rfl, fun blocking same fact => ?_⟩
            have own : view.Joins functions tests token handle ↔ holds = true := by
              constructor
              · rintro ⟨object', found, joins⟩
                cases (FactView.fact_eq_ok.mp isFact).symm.trans found
                exact Except.ok.inj (isHeld.symm.trans joins)
              · rintro rfl
                exact ⟨object, FactView.fact_eq_ok.mp isFact, isHeld⟩
            cases same
            rw [List.mem_cons, or_and_right, ← members others rfl]
            cases holds with
            | true =>
                rw [if_pos rfl, List.mem_cons]
                refine or_congr_left ⟨fun here => ⟨here, here ▸ own.mpr rfl⟩, And.left⟩
            | false =>
                rw [if_neg Bool.false_ne_true]
                refine (or_iff_right ?_).symm
                rintro ⟨rfl, joins⟩
                exact Bool.false_ne_true (own.mp joins)
          · exact ⟨(ih inner).1, nofun⟩
        · exact ⟨rfl, nofun⟩
      · exact ⟨rfl, nofun⟩

end MatchM

namespace Matching

variable {network : Network} {base : Agenda} {view : FactView} {right : NodeId → Handle → Prop}
  {state mid after : Matching} {result : Except Error Unit}

/-- Nothing is kept of what a token could bring to a node. -/
def Fresh (network : Network) (base : Agenda) (state : Matching) (id : NodeId) (token : Tuple) :
    Prop :=
  ∀ {other tuple}, Within network id token other tuple →
    state.cell network base other tuple = {}

/-- A token was offered to a node. -/
structure Activated (network : Network) (base : Agenda) (view : FactView)
    (right : NodeId → Handle → Prop) (state : Matching) (id : NodeId) (token : Tuple)
    (result : Except Error Unit) (after : Matching) : Prop where
  spread : Spread network base state (Within network id token) after
  coherent : Coherent network base right after
  settled : result = .ok () → ∀ {other kind left tuple}, network.kind? other = some kind →
    kind.left? = some left → Within network id token other tuple →
    Offered network base after left tuple → Settled network base view right after other tuple kind

/-- A token was let through a node. -/
structure Emitted (network : Network) (base : Agenda) (view : FactView)
    (right : NodeId → Handle → Prop) (state : Matching) (id : NodeId) (token : Tuple)
    (result : Except Error Unit) (after : Matching) : Prop where
  spread : Spread network base state (Within network id token) after
  coherent : Coherent network base right after
  present : (after.cell network base id token).token = true
  settled : result = .ok () → ∀ {other kind left tuple}, network.kind? other = some kind →
    kind.left? = some left → Behind network id token other tuple →
    Offered network base after left tuple → Settled network base view right after other tuple kind

/-- Offering a token that is fresh to a node does what it should. -/
def Offers (network : Network) (base : Agenda) (view : FactView)
    (right : NodeId → Handle → Prop) (offer : Tuple → NodeId → MatchM Unit) : Prop :=
  ∀ {id kind left token}, network.kind? id = some kind → kind.left? = some left →
    ∀ {state result after}, Coherent network base right state →
      Reads network right state.memory → Offered network base state left token →
      Fresh network base state id token → Ends (offer token id) state result after →
      Activated network base view right state id token result after

/-- Storing a token that a node may let through. -/
theorem Coherent.addToken (coherent : Coherent network base right state) {id : NodeId}
    {token : Tuple} {kind : NodeKind} (live : network.kind? id = some kind)
    (supports : Supports network base right state id kind token)
    (free : (state.cell network base id token).blocked = none) :
    Spread network base state (Within network id token)
        { state with memory := state.memory.addToken id token } ∧
      Coherent network base right { state with memory := state.memory.addToken id token } := by
  set stored : Matching := { state with memory := state.memory.addToken id token } with isStored
  have cells : ∀ other tuple, stored.cell network base other tuple =
      if other = id ∧ tuple = token then { state.cell network base other tuple with token := true }
      else state.cell network base other tuple := state.cell_addToken id token
  have blockeds : ∀ other tuple, (stored.cell network base other tuple).blocked =
      (state.cell network base other tuple).blocked := by
    intro other tuple
    rw [cells]
    split <;> rfl
  have matcheds : ∀ other tuple, (stored.cell network base other tuple).matched =
      (state.cell network base other tuple).matched := by
    intro other tuple
    rw [cells]
    split <;> rfl
  have spread : Spread network base state (Within network id token) stored := by
    refine ⟨rfl, rfl, rfl, Nat.le_refl _, fun {other tuple} here => ?_,
      fun {other tuple facts} here => (blockeds other tuple).trans here,
      fun {other tuple found} here => (matcheds other tuple).trans here,
      fun {other tuple found} here => .inl ((matcheds other tuple).symm.trans here),
      fun here => .inl here, fun {other tuple} outside => ?_⟩
    · rw [cells]
      split
      · rfl
      · exact here
    · rw [cells, if_neg]
      rintro ⟨rfl, rfl⟩
      exact outside ⟨.self, List.prefix_refl _⟩
  refine ⟨spread, ⟨fun {other tuple} here => ?_, fun {other tuple facts} blocked => ?_,
    fun {other tuple found} matched => ?_, fun known => coherent.tracked known⟩,
    fun {other tuple facts} blocked => ?_⟩
  · rw [cells] at here
    by_cases new : other = id ∧ tuple = token
    · obtain ⟨rfl, rfl⟩ := new
      exact ⟨kind, live, spread.supports supports⟩
    · rw [if_neg new] at here
      exact (coherent.token here).imp fun _ found => ⟨found.1, spread.supports found.2⟩
  · rw [blockeds] at blocked
    obtain ⟨left, input, tests, functions, isJoin, offered, stands⟩ := coherent.blocked blocked
    exact ⟨left, input, tests, functions, isJoin, spread.offered offered, stands⟩
  · rw [matcheds] at matched
    obtain ⟨left, terminal, isTerminal, offered⟩ := coherent.matched matched
    exact ⟨left, terminal, isTerminal, spread.offered offered⟩
  · rw [blockeds] at blocked
    rw [cells, if_neg]
    · exact coherent.exclusive blocked
    · rintro ⟨rfl, rfl⟩
      rw [free] at blocked
      cases blocked

section

variable (sound : network.Sound)

include sound

/-- Outputs of one node, or of the root, reach different nodes. -/
theorem Within.output_unique {left : Option NodeId} {child other target : NodeId}
    {kind otherKind : NodeKind} {token tuple : Tuple} (live : network.kind? child = some kind)
    (isLeft : kind.left? = some left) (otherLive : network.kind? other = some otherKind)
    (otherIsLeft : otherKind.left? = some left) (within : Within network child token target tuple)
    (otherWithin : Within network other token target tuple) : child = other := by
  cases left with
  | none => exact Network.Feeds.root_unique live isLeft otherLive otherIsLeft within.1 otherWithin.1
  | some via =>
      exact Network.Feeds.sibling sound.accounted live isLeft otherLive otherIsLeft within.1
        otherWithin.1

/-- A token was offered to outputs of one node, or of the root. -/
structure ActivatedAll (network : Network) (base : Agenda) (view : FactView)
    (right : NodeId → Handle → Prop) (state : Matching) (children : List NodeId) (token : Tuple)
    (result : Except Error Unit) (after : Matching) : Prop where
  spread : Spread network base state
    (fun other tuple => ∃ child ∈ children, Within network child token other tuple) after
  coherent : Coherent network base right after
  settled : result = .ok () → ∀ {other kind left tuple}, network.kind? other = some kind →
    kind.left? = some left → (∃ child ∈ children, Within network child token other tuple) →
    Offered network base after left tuple → Settled network base view right after other tuple kind

/-- What holds while outputs are left that a token is to be offered to: nothing has come of it at
these, and what the others reach is settled. -/
structure Offering (network : Network) (base : Agenda) (view : FactView)
    (right : NodeId → Handle → Prop) (children : List NodeId) (token : Tuple) (state : Matching)
    (rest : List NodeId) (between : Matching) : Prop where
  spread : Spread network base state
    (fun other tuple => ∃ child ∈ children, Within network child token other tuple) between
  coherent : Coherent network base right between
  nodup : rest.Nodup
  fresh : ∀ child ∈ rest, child ∈ children ∧ Fresh network base between child token
  settled : ∀ {other kind left tuple}, network.kind? other = some kind → kind.left? = some left →
    (∃ child ∈ children, Within network child token other tuple) →
    (∀ child ∈ rest, ¬ Within network child token other tuple) →
    Offered network base between left tuple →
    Settled network base view right between other tuple kind

/-- Offering the token to the next output leaves those after it. -/
theorem Offering.next {left : Option NodeId} {token : Tuple} {children rest : List NodeId}
    {child : NodeId} {between : Matching}
    (offering : Offering network base view right children token state (child :: rest) between)
    (outputs : ∀ child ∈ children, ∃ kind, network.kind? child = some kind ∧
      kind.left? = some left)
    (activated : Activated network base view right between child token (.ok ()) after) :
    Offering network base view right children token state rest after := by
  have member : child ∈ children := (offering.fresh child List.mem_cons_self).1
  obtain ⟨kind, live, isLeft⟩ := outputs child member
  obtain ⟨new, nodup⟩ := List.nodup_cons.mp offering.nodup
  refine ⟨offering.spread.trans (activated.spread.mono fun within => ⟨child, member, within⟩),
    activated.coherent, nodup, fun other otherMember => ?_,
    fun {other otherKind otherLeft tuple} otherLive otherIsLeft reach apart otherOffered => ?_⟩
  · obtain ⟨otherIn, otherFresh⟩ := offering.fresh other (List.mem_cons_of_mem _ otherMember)
    obtain ⟨otherKind, otherLive, otherLeft⟩ := outputs other otherIn
    refine ⟨otherIn, fun {target tuple} within => ?_⟩
    rw [activated.spread.outside, otherFresh within]
    intro childWithin
    have same := within.output_unique sound otherLive otherLeft live isLeft childWithin
    exact new (same ▸ otherMember)
  · by_cases within : Within network child token other tuple
    · exact activated.settled rfl otherLive otherIsLeft within otherOffered
    · have feeds : ¬ network.Feeds child other := fun feeds => by
        obtain ⟨_, _, reached⟩ := reach
        exact within ⟨feeds, reached.2⟩
      refine (offering.settled otherLive otherIsLeft reach ?_ ?_).congr fun longer _ =>
        activated.spread.outside fun within => feeds within.1
      · intro sibling siblingMember
        rcases List.mem_cons.mp siblingMember with rfl | later
        · exact within
        · exact apart sibling later
      · refine activated.spread.offered_before otherOffered fun via isVia within => ?_
        subst isVia
        exact feeds (within.1.next otherLive otherIsLeft)

/-- Offering a token to outputs of one node, or of the root, if offering it to each does what it
should. -/
theorem Offers.activatedAll {offer : Tuple → NodeId → MatchM Unit}
    (offers : Offers network base view right offer) {left : Option NodeId} {token : Tuple}
    {children : List NodeId}
    (outputs : ∀ child ∈ children, ∃ kind, network.kind? child = some kind ∧
      kind.left? = some left)
    (nodup : children.Nodup) (coherent : Coherent network base right state)
    (reads : Reads network right state.memory) (offered : Offered network base state left token)
    (fresh : ∀ child ∈ children, Fresh network base state child token)
    (run : Ends (children.forM (offer token)) state result after) :
    ActivatedAll network base view right state children token result after := by
  have outcome := run.forM (Offering network base view right children token state)
    (fun _ between => Spread network base state
        (fun other tuple => ∃ child ∈ children, Within network child token other tuple) between ∧
      Coherent network base right between)
    ⟨.refl state, coherent, nodup, fun child member => ⟨member, fresh child member⟩,
      fun {other kind left tuple} _ _ reach apart => by
        obtain ⟨child, member, within⟩ := reach
        exact absurd within (apart child member)⟩ ?each
  case each =>
    intro child rest before result' after' member offering step
    obtain ⟨kind, live, isLeft⟩ := outputs child member
    have activated := offers live isLeft offering.coherent (reads.congr offering.spread.alpha)
      (offering.spread.offered offered) (offering.fresh child List.mem_cons_self).2 step
    cases result' with
    | error error =>
        exact ⟨offering.spread.trans (activated.spread.mono fun within => ⟨child, member, within⟩),
          activated.coherent⟩
    | ok => exact offering.next sound outputs activated
  cases result with
  | error error => exact ⟨outcome.1, outcome.2, nofun⟩
  | ok =>
      exact ⟨outcome.spread, outcome.coherent,
        fun _ {_ _ _ _} live isLeft reach => outcome.settled live isLeft reach nofun⟩

/-- Letting a new token through a node, if offering it to each output does what it should. -/
theorem emitWith_emitted {offer : Tuple → NodeId → MatchM Unit} {id : NodeId} {token : Tuple}
    {kind : NodeKind} (live : network.kind? id = some kind)
    (supports : Supports network base right state id kind token)
    (free : (state.cell network base id token).blocked = none)
    (coherent : Coherent network base right state) (reads : Reads network right state.memory)
    (new : (state.cell network base id token).token = false)
    (offers : Offers network base view right offer)
    (run : Ends (MatchM.emitWith network offer id token) state result after) :
    Emitted network base view right state id token result after := by
  have beta := supports.isBetaLevel
  obtain ⟨arity, isArity⟩ := sound.wellFormed.exists_arity_of_beta sound.accounted live beta
  obtain ⟨stored, storedCoherent⟩ := coherent.addToken live supports free
  obtain ⟨node, found, rfl⟩ := Network.kind?_eq_some.mp live
  rw [MatchM.ends_emitWith found] at run
  have absent : (state.memory.tokensAt id).contains token = false := new
  rw [absent, if_neg Bool.false_ne_true] at run
  set start : Matching := { state with memory := state.memory.addToken id token } with isStart
  have startToken : (start.cell network base id token).token = true := by
    rw [state.cell_addToken, if_pos ⟨rfl, rfl⟩]
  have length : token.length = arity := storedCoherent.length isArity startToken
  have isChild : ∀ {child}, child ∈ node.children ↔ ∃ childKind,
      network.kind? child = some childKind ∧ childKind.left? = some (some id) :=
    sound.wellFormed.mem_children_of_beta found beta
  have empty : ∀ {other tuple}, Behind network id token other tuple →
      start.cell network base other tuple = {} := by
    intro other tuple behind
    rw [state.cell_addToken, if_neg fun same => behind.2.1 same.1]
    exact coherent.behind_empty sound isArity length new behind
  have inside : ∀ {other tuple}, Behind network id token other tuple ↔
      ∃ child ∈ node.children, Within network child token other tuple :=
    behind_iff_within sound found beta
  have activated := offers.activatedAll sound (fun child member => isChild.mp member)
    (sound.wellFormed.children_nodup found) storedCoherent reads startToken
    (fun child member {_ _} within => empty (inside.mpr ⟨child, member, within⟩)) run
  refine ⟨stored.trans (activated.spread.mono ?_), activated.coherent,
    activated.spread.token startToken, fun done {other otherKind left tuple} otherLive otherLeft
      behind offered => activated.settled done otherLive otherLeft ?_ offered⟩
  · rintro other tuple ⟨child, member, within⟩
    exact ⟨(inside.mpr ⟨child, member, within⟩).1, within.2⟩
  · exact inside.mp behind

/-! ## Offering a token -/

omit sound in
/-- Where nothing is kept, nothing is offered. -/
theorem Fresh.not_offered {id : NodeId} {token : Tuple} (fresh : Fresh network base state id token)
    {other : NodeId} {kind : NodeKind} {left : Option NodeId} {tuple : Tuple}
    (live : network.kind? other = some kind) (isLeft : kind.left? = some left)
    (behind : Behind network id token other tuple) : ¬ Offered network base state left tuple := by
  intro offered
  rcases behind.1.cases_last with same | ⟨found, via, foundLive, foundLeft, earlier⟩
  · exact behind.2.1 same
  · cases live.symm.trans foundLive
    cases isLeft.symm.trans foundLeft
    have empty := fresh ⟨earlier, behind.2.2⟩
    have present : (state.cell network base via tuple).token = true := offered
    rw [empty] at present
    cases present

omit sound in
/-- Nor is anything offered there later, without new tokens. -/
theorem Fresh.not_offered_later {id : NodeId} {token : Tuple}
    (fresh : Fresh network base state id token) {other : NodeId} {kind : NodeKind}
    {left : Option NodeId} {tuple : Tuple} (live : network.kind? other = some kind)
    (isLeft : kind.left? = some left) (behind : Behind network id token other tuple)
    (seeded : after.memory.seeded = state.memory.seeded)
    (tokens : ∀ id tuple, (after.cell network base id tuple).token =
      (state.cell network base id tuple).token) : ¬ Offered network base after left tuple :=
  fun offered => fresh.not_offered live isLeft behind
    (offered.transfer seeded.symm fun id tuple => (tokens id tuple).symm)

omit sound in
/-- Holding back a token that was not held back before. -/
theorem Coherent.setBlocked (coherent : Coherent network base right state) {id input : NodeId}
    {left : Option NodeId} {tests : List Expr} {functions : FunctionTable} {token : Tuple}
    (live : network.kind? id = some (.join left input tests true functions))
    (offered : Offered network base state left token)
    (fresh : Fresh network base state id token) {facts : SortedSet Handle}
    (nonempty : facts.isEmpty = false)
    (stand : ∀ fact, facts.contains fact = true → right id fact) :
    let held : Matching := { state with
      memory := state.memory.setBlocked id ((state.memory.blockedAt id).insert token facts) }
    Spread network base state (Within network id token) held ∧
      Coherent network base right held ∧
      (held.cell network base id token).blocked = some facts ∧
      ∀ other tuple, (held.cell network base other tuple).token =
        (state.cell network base other tuple).token := by
  intro held
  have own : state.cell network base id token = {} := fresh ⟨.self, List.prefix_refl _⟩
  have cells : ∀ other tuple, held.cell network base other tuple =
      if other = id ∧ tuple = token then
        { state.cell network base other tuple with blocked := some facts }
      else state.cell network base other tuple := state.cell_insertBlocked id token facts
  have tokens : ∀ other tuple, (held.cell network base other tuple).token =
      (state.cell network base other tuple).token := by
    intro other tuple
    rw [cells]
    split <;> rfl
  have matcheds : ∀ other tuple, (held.cell network base other tuple).matched =
      (state.cell network base other tuple).matched := by
    intro other tuple
    rw [cells]
    split <;> rfl
  refine ⟨⟨rfl, rfl, rfl, Nat.le_refl _, fun {other tuple} here => (tokens other tuple).trans here,
    fun {other tuple found} here => ?_,
    fun {other tuple found} here => (matcheds other tuple).trans here,
    fun {other tuple found} here => .inl ((matcheds other tuple).symm.trans here),
    fun here => .inl here, fun {other tuple} outside => ?_⟩,
    ⟨coherent.toGrounded.insertBlocked live offered nonempty stand,
      fun {other tuple found} blocked => ?_⟩, ?_, tokens⟩
  · rw [cells, if_neg, here]
    rintro ⟨rfl, rfl⟩
    rw [own] at here
    cases here
  · rw [cells, if_neg]
    rintro ⟨rfl, rfl⟩
    exact outside ⟨.self, List.prefix_refl _⟩
  · rw [tokens]
    rw [cells] at blocked
    by_cases here : other = id ∧ tuple = token
    · obtain ⟨rfl, rfl⟩ := here
      rw [own]
    · rw [if_neg here] at blocked
      exact coherent.exclusive blocked
  · rw [cells, if_pos ⟨rfl, rfl⟩]

/-- The places that a token reaches are the one that it is offered to and those behind. -/
theorem Activated.intro {id : NodeId} {kind : NodeKind} {left : Option NodeId} {token : Tuple}
    (live : network.kind? id = some kind) (isLeft : kind.left? = some left)
    (offered : Offered network base after left token)
    (spread : Spread network base state (Within network id token) after)
    (coherent : Coherent network base right after)
    (own : result = .ok () → Settled network base view right after id token kind)
    (behind : result = .ok () → ∀ {other kind left tuple}, network.kind? other = some kind →
      kind.left? = some left → Behind network id token other tuple →
      Offered network base after left tuple →
      Settled network base view right after other tuple kind) :
    Activated network base view right state id token result after := by
  refine ⟨spread, coherent, fun done {other otherKind otherLeft tuple} otherLive otherIsLeft within
    otherOffered => ?_⟩
  by_cases here : other = id
  · subst here
    cases live.symm.trans otherLive
    cases isLeft.symm.trans otherIsLeft
    obtain ⟨arity, isArity⟩ := sound.wellFormed.exists_left_arity sound.accounted live isLeft
    have same : token = tuple := within.2.eq_of_length
      ((coherent.length isArity offered).trans (coherent.length isArity otherOffered).symm)
    exact same ▸ own done
  · exact behind done otherLive otherIsLeft ⟨within.1, here, within.2⟩ otherOffered

variable {offer : Tuple → NodeId → MatchM Unit} {id input : NodeId} {left : Option NodeId}
  {tests : List Expr} {functions : FunctionTable} {token : Tuple}

omit sound in
/-- What lies within the tuples of a token with one more fact lies within those of the token. -/
theorem Within.of_append {other : NodeId} {tuple : Tuple} {fact : Handle}
    (within : Within network id (token ++ [fact]) other tuple) :
    Within network id token other tuple :=
  ⟨within.1, (List.prefix_append ..).trans within.2⟩

omit sound in
/-- Tokens with different last facts have nothing in common. -/
theorem Within.fact_unique {node : NodeId} {tuple : Tuple} {fact other : Handle}
    (within : Within network id (token ++ [fact]) node tuple)
    (otherWithin : Within network id (token ++ [other]) node tuple) : fact = other := by
  have length : (token ++ [fact]).length = (token ++ [other]).length := by
    rw [List.length_append, List.length_append, List.length_singleton, List.length_singleton]
  have same := (List.prefix_of_prefix_length_le within.2 otherWithin.2
    (Nat.le_of_eq length)).eq_of_length length
  exact List.singleton_inj.mp (List.append_cancel_left same)

/-- What holds while facts are left that a token is to be joined with: nothing has come of these,
and the tests have decided for the others. -/
structure Joining (network : Network) (base : Agenda) (view : FactView)
    (right : NodeId → Handle → Prop) (id : NodeId) (tests : List Expr) (functions : FunctionTable)
    (token : Tuple) (state : Matching) (rest : List Handle) (between : Matching) : Prop where
  spread : Spread network base state (Within network id token) between
  coherent : Coherent network base right between
  nodup : rest.Nodup
  fresh : ∀ fact ∈ rest, right id fact ∧ Fresh network base between id (token ++ [fact])
  decided : ∀ fact, right id fact → fact ∉ rest →
    ((between.cell network base id (token ++ [fact])).token = true ↔
      view.Joins functions tests token fact)
  settled : ∀ {other kind left tuple}, network.kind? other = some kind → kind.left? = some left →
    Behind network id token other tuple → Offered network base between left tuple →
    Settled network base view right between other tuple kind

namespace Joining

variable {between : Matching} {fact : Handle} {rest : List Handle}
  (joining : Joining network base view right id tests functions token state (fact :: rest) between)

include joining

omit sound in
/-- Nothing has come of the next fact. -/
theorem cell_next : between.cell network base id (token ++ [fact]) = {} :=
  (joining.fresh fact List.mem_cons_self).2 ⟨.self, List.prefix_refl _⟩

omit sound in
/-- A fact that does not match brings nothing. -/
theorem skip (rejected : ¬ view.Joins functions tests token fact) :
    Joining network base view right id tests functions token state rest between := by
  refine { joining with
    nodup := (List.nodup_cons.mp joining.nodup).2
    fresh := fun other member => joining.fresh other (List.mem_cons_of_mem _ member)
    decided := fun other stands absent => ?_ }
  by_cases same : other = fact
  · subst same
    rw [joining.cell_next]
    exact iff_of_false Bool.false_ne_true rejected
  · exact joining.decided other stands fun member => (List.mem_cons.mp member).elim same absent

/-- A fact that matches is added to the token, which is let through. -/
theorem emit (joins : view.Joins functions tests token fact) {arity : Nat}
    (isArity : network.Arity (some id) arity) (length : (token ++ [fact]).length = arity)
    (emitted : Emitted network base view right between id (token ++ [fact]) (.ok ()) after) :
    Joining network base view right id tests functions token state rest after := by
  have elsewhere {other : Handle} (different : other ≠ fact) {node : NodeId} {tuple : Tuple}
      (within : Within network id (token ++ [other]) node tuple) :
      after.cell network base node tuple = between.cell network base node tuple :=
    emitted.spread.outside fun same => different (within.fact_unique same)
  obtain ⟨notLater, nodup⟩ := List.nodup_cons.mp joining.nodup
  refine ⟨joining.spread.trans (emitted.spread.mono Within.of_append), emitted.coherent, nodup,
    fun other member => ?_, fun other stands absent => ?_,
    fun {other kind otherLeft tuple} otherLive isLeft behind otherOffered => ?_⟩
  · obtain ⟨stands, fresh⟩ := joining.fresh other (List.mem_cons_of_mem _ member)
    refine ⟨stands, fun {node tuple} within => (elsewhere ?_ within).trans (fresh within)⟩
    rintro rfl
    exact notLater member
  · by_cases same : other = fact
    · exact same ▸ iff_of_true emitted.present joins
    · rw [elsewhere same ⟨.self, List.prefix_refl _⟩]
      exact joining.decided other stands fun member => (List.mem_cons.mp member).elim same absent
  · by_cases new : token ++ [fact] <+: tuple
    · exact emitted.settled rfl otherLive isLeft ⟨behind.1, behind.2.1, new⟩ otherOffered
    · refine (joining.settled otherLive isLeft behind ?_).congr fun longer extended =>
        emitted.spread.outside (emitted.coherent.not_within sound isArity (Nat.le_of_eq length)
          otherLive isLeft otherOffered behind.2.1 new extended)
      exact emitted.spread.offered_before otherOffered fun via _ within => new within.2

/-- The token is joined with the next fact, unless a condition fails. -/
theorem step (offers : Offers network base view right offer)
    (live : network.kind? id = some (.join left input tests false functions))
    (reads : Reads network right state.memory) (offered : Offered network base state left token)
    (run : Ends (do
      let object ← MatchM.liftResult (view.fact fact)
      if ← MatchM.liftResult (view.allHold functions ⟨token, some object⟩ tests) then
        MatchM.emitWith network offer id (token ++ [fact])) between result after) :
    Outcome result
      (fun _ => Joining network base view right id tests functions token state rest after)
      fun _ => Spread network base state (Within network id token) after ∧
        Coherent network base right after := by
  rcases ends_lift_bind.mp run with ⟨object, isFact, run⟩ | ⟨error, -, rfl, rfl⟩
  · rcases ends_lift_bind.mp run with ⟨holds, isHeld, run⟩ | ⟨error, -, rfl, rfl⟩
    · have found : view.facts.find? fact = some object := FactView.fact_eq_ok.mp isFact
      cases holds with
      | false =>
          rw [if_neg Bool.false_ne_true] at run
          obtain ⟨rfl, rfl⟩ := (ends_pure _).mp run
          refine joining.skip ?_
          rintro ⟨other, isOther, holds⟩
          cases found.symm.trans isOther
          cases isHeld.symm.trans holds
      | true =>
          rw [if_pos rfl] at run
          have offered := joining.spread.offered offered
          have stands := (joining.fresh fact List.mem_cons_self).1
          have emitted := emitWith_emitted sound live ⟨token, fact, rfl, offered, stands⟩
            (by rw [joining.cell_next]) joining.coherent (reads.congr joining.spread.alpha)
            (by rw [joining.cell_next]) offers run
          obtain ⟨arity, before⟩ := sound.wellFormed.exists_left_arity sound.accounted live rfl
          have length : (token ++ [fact]).length = arity + 1 := by
            rw [List.length_append, joining.coherent.length before offered]
            rfl
          cases result with
          | error error =>
              exact ⟨joining.spread.trans (emitted.spread.mono Within.of_append),
                emitted.coherent⟩
          | ok =>
              exact joining.emit sound ⟨object, found, isHeld⟩ (.join live before) length emitted
    · exact ⟨joining.spread, joining.coherent⟩
  · exact ⟨joining.spread, joining.coherent⟩

end Joining

/-- Joining a token with the facts on the right. -/
theorem joinFacts_activated (offers : Offers network base view right offer)
    (live : network.kind? id = some (.join left input tests false functions))
    (coherent : Coherent network base right state) (reads : Reads network right state.memory)
    (offered : Offered network base state left token) (fresh : Fresh network base state id token)
    (run : Ends (MatchM.joinFacts view (MatchM.emitWith network offer id) functions tests token
      (state.memory.factsAt input).keys) state result after) :
    Activated network base view right state id token result after := by
  have isRight : ∀ fact, right id fact ↔ fact ∈ (state.memory.factsAt input).keys := fun fact =>
    (reads live rfl fact).trans SortedMap.mem_keys.symm
  have outcome := run.forM
    (Joining network base view right id tests functions token state)
    (fun _ between => Spread network base state (Within network id token) between ∧
      Coherent network base right between)
    ⟨.refl state, coherent, SortedMap.nodup_keys _,
      fun fact member => ⟨(isRight fact).mpr member, fun within => fresh within.of_append⟩,
      fun fact stands absent => absurd ((isRight fact).mp stands) absent,
      fun otherLive isLeft behind otherOffered =>
        absurd otherOffered (fresh.not_offered otherLive isLeft behind)⟩
    fun _ _ _ _ _ _ joining step => joining.step sound offers live reads offered step
  cases result with
  | error error => exact ⟨outcome.1, outcome.2, nofun⟩
  | ok =>
      obtain ⟨spread, afterCoherent, -, -, decided, settled⟩ := outcome
      refine .intro sound live rfl (spread.offered offered) spread afterCoherent (fun _ fact => ?_)
        fun _ {other kind left tuple} => settled
      constructor
      · intro present
        obtain ⟨origin, last, same, -, stands⟩ := afterCoherent.supports live present
        obtain ⟨rfl, isLast⟩ := List.append_inj' same rfl
        cases isLast
        exact ⟨stands, (decided fact stands List.not_mem_nil).mp present⟩
      · rintro ⟨stands, joins⟩
        exact (decided fact stands List.not_mem_nil).mpr joins

/-- Offering a token to a negated join. -/
theorem matching_activated (offers : Offers network base view right offer)
    (live : network.kind? id = some (.join left input tests true functions))
    (coherent : Coherent network base right state) (reads : Reads network right state.memory)
    (offered : Offered network base state left token) (fresh : Fresh network base state id token)
    {blocking : List Handle}
    (matching : ∀ fact, fact ∈ blocking ↔
      fact ∈ (state.memory.factsAt input).keys ∧ view.Joins functions tests token fact)
    (run : Ends (if blocking.isEmpty then MatchM.emitWith network offer id token
      else MatchM.change fun state =>
        let blocked := (state.memory.blockedAt id).insert token (.ofList blocking)
        { state with memory := state.memory.setBlocked id blocked }) state result after) :
    Activated network base view right state id token result after := by
  have own : state.cell network base id token = {} := fresh ⟨.self, List.prefix_refl _⟩
  have isMatching : ∀ fact, right id fact ∧ view.Joins functions tests token fact ↔
      fact ∈ blocking := by
    intro fact
    rw [matching, reads live rfl, SortedMap.mem_keys]
  cases blocking with
  | nil =>
      rw [if_pos List.isEmpty_nil] at run
      have emitted := emitWith_emitted sound live offered (by rw [own]) coherent reads
        (by rw [own]) offers run
      refine .intro sound live rfl (emitted.spread.offered offered) emitted.spread emitted.coherent
        (fun _ => ?_) emitted.settled
      have free := emitted.coherent.free_of_token emitted.present
      refine ⟨fun fact => ?_, iff_of_true emitted.present free⟩
      rw [isMatching, free]
      simp only [reduceCtorEq, false_and, exists_false, List.not_mem_nil]
  | cons first rest =>
      rw [if_neg (by simp only [List.isEmpty_cons, Bool.false_eq_true, not_false_eq_true])] at run
      obtain ⟨rfl, rfl⟩ := (ends_modify _).mp run
      have contains : ∀ fact, (SortedSet.ofList (first :: rest)).contains fact = true ↔
          fact ∈ first :: rest := fun fact => by rw [SortedSet.contains_ofList, decide_eq_true_iff]
      have nonempty : (SortedSet.ofList (first :: rest)).isEmpty = false :=
        SortedMap.isEmpty_eq_false_iff.mpr ⟨first, (contains first).mpr List.mem_cons_self⟩
      obtain ⟨spread, held, blocked, tokens⟩ := coherent.setBlocked live offered fresh nonempty
        fun fact member => ((isMatching fact).mpr ((contains fact).mp member)).1
      refine .intro sound live rfl (spread.offered offered) spread held (fun _ => ?_)
        fun _ {other kind otherLeft tuple} otherLive isLeft behind otherOffered => ?_
      · refine ⟨fun fact => ?_, ?_⟩
        · rw [isMatching, blocked, ← contains]
          simp only [Option.some.injEq, exists_eq_left']
        · rw [tokens, own, blocked]
          exact iff_of_false Bool.false_ne_true (by simp only [reduceCtorEq, not_false_eq_true])
      · exact absurd otherOffered (fresh.not_offered_later otherLive isLeft behind rfl tokens)

/-- Offering a token to an eval. -/
theorem eval_activated {test : Expr} (offers : Offers network base view right offer)
    (live : network.kind? id = some (.eval left test functions))
    (coherent : Coherent network base right state) (reads : Reads network right state.memory)
    (offered : Offered network base state left token) (fresh : Fresh network base state id token)
    {holds : Bool} (isHeld : view.holds functions { tuple := token } test = .ok holds)
    (run : Ends (if holds then MatchM.emitWith network offer id token else pure ()) state result
      after) :
    Activated network base view right state id token result after := by
  have own : state.cell network base id token = {} := fresh ⟨.self, List.prefix_refl _⟩
  cases holds with
  | true =>
      rw [if_pos rfl] at run
      have emitted := emitWith_emitted sound live offered (by rw [own]) coherent reads
        (by rw [own]) offers run
      exact .intro sound live rfl (emitted.spread.offered offered) emitted.spread emitted.coherent
        (fun _ => iff_of_true emitted.present isHeld) emitted.settled
  | false =>
      rw [if_neg Bool.false_ne_true] at run
      obtain ⟨rfl, rfl⟩ := (ends_pure _).mp run
      refine .intro sound live rfl offered (.refl _) coherent (fun _ => ?_)
        fun _ {other kind otherLeft tuple} otherLive isLeft behind otherOffered =>
          absurd otherOffered (fresh.not_offered otherLive isLeft behind)
      change (after.cell network base id token).token = true ↔ _
      rw [own, isHeld]
      exact iff_of_false Bool.false_ne_true
        (by simp only [Except.ok.injEq, Bool.false_eq_true, not_false_eq_true])

/-- A match that is found is kept for its terminal node and nowhere else. -/
theorem found_spread {terminal : Terminal}
    (live : network.kind? id = some (.terminal left terminal))
    (fresh : Fresh network base state id token) :
    Spread network base state (Within network id token) (state.note (.found terminal token)) := by
  obtain ⟨matched, cells, same, new⟩ :=
    @Matching.cell_note_found _ base state sound _ _ _ live token
  have agenda : (state.note (.found terminal token)).agenda base =
      ((state.agenda base).activate terminal token).2 := state.agenda_note _
  have own : state.cell network base id token = {} := fresh ⟨.self, List.prefix_refl _⟩
  refine ⟨rfl, rfl, ?_, ?_, fun here => here, fun here => here,
    fun {other tuple found} here => ?_, fun {other tuple found} here => ?_,
    fun {found} known => ?_, fun {other tuple} outside => ?_⟩
  · rw [agenda, Agenda.firing_activate]
  · rw [agenda]
    exact Agenda.nextSequence_le_activate ..
  · rw [cells, if_neg, here]
    rintro ⟨rfl, rfl⟩
    rw [own] at here
    cases here
  · rw [cells] at here
    by_cases new' : other = id ∧ tuple = token
    · rw [if_pos new'] at here
      cases here
      refine .inr ((new (by rw [own])).imp_right ?_)
      rintro ⟨rfl, next⟩
      exact ⟨_, rfl, Nat.le_refl _, by rw [next]; exact Nat.lt_succ_self _⟩
    · rw [if_neg new'] at here
      exact .inl here
  · obtain ⟨state', states, -⟩ := (state.agenda base).find?_activate terminal token
    rw [agenda, Agenda.knows, SortedMap.contains, states] at known
    by_cases here : found = ⟨terminal.rule, token⟩
    · exact .inr ⟨id, left, terminal, live, by rw [here]⟩
    · rw [if_neg here] at known
      exact .inl known
  · rw [cells, if_neg]
    rintro ⟨rfl, rfl⟩
    exact outside ⟨.self, List.prefix_refl _⟩

/-- A match that is found comes of the token that the terminal node is offered. -/
theorem Coherent.found {terminal : Terminal}
    (live : network.kind? id = some (.terminal left terminal))
    (coherent : Coherent network base right state)
    (offered : Offered network base state left token)
    (spread : Spread network base state (Within network id token)
      (state.note (.found terminal token))) :
    Coherent network base right (state.note (.found terminal token)) := by
  obtain ⟨matched, cells, -⟩ := @Matching.cell_note_found _ base state sound _ _ _ live token
  refine ⟨⟨fun here => ?_, fun blocked => ?_, fun {other tuple found} here => ?_,
    fun known => ?_⟩, coherent.exclusive⟩
  · exact (coherent.token here).imp fun _ found => ⟨found.1, spread.supports found.2⟩
  · obtain ⟨otherLeft, input, tests, functions, isJoin, before, stands⟩ :=
      coherent.blocked blocked
    exact ⟨otherLeft, input, tests, functions, isJoin, spread.offered before, stands⟩
  · rw [cells] at here
    by_cases new : other = id ∧ tuple = token
    · obtain ⟨rfl, rfl⟩ := new
      exact ⟨left, terminal, live, spread.offered offered⟩
    · rw [if_neg new] at here
      obtain ⟨otherLeft, otherTerminal, isTerminal, before⟩ := coherent.matched here
      exact ⟨otherLeft, otherTerminal, isTerminal, spread.offered before⟩
  · exact (spread.known known).elim coherent.tracked fun new => new

/-- Offering a token to a terminal node. -/
theorem terminal_activated {terminal : Terminal}
    (live : network.kind? id = some (.terminal left terminal))
    (coherent : Coherent network base right state)
    (offered : Offered network base state left token)
    (fresh : Fresh network base state id token) :
    Activated network base view right state id token (.ok ())
      (state.note (.found terminal token)) := by
  obtain ⟨matched, cells, -⟩ := @Matching.cell_note_found _ base state sound _ _ _ live token
  have spread := found_spread sound live fresh
  refine .intro sound live rfl (spread.offered offered) spread
    (coherent.found sound live offered spread) (fun _ => ?_)
    fun _ {other kind otherLeft tuple} otherLive isLeft behind otherOffered => ?_
  · change ((state.note (.found terminal token)).cell network base id token).matched ≠ none
    rw [cells, if_pos ⟨rfl, rfl⟩]
    simp only [ne_eq, reduceCtorEq, not_false_eq_true]
  · exact absurd otherOffered
      (fresh.not_offered_later otherLive isLeft behind rfl fun _ _ => rfl)

/-- Offering a token adds what comes of it. -/
theorem leftActivate_offers (depth : Nat) :
    Offers network base view right (MatchM.leftActivate network view depth) := by
  induction depth with
  | zero =>
      intro id kind left token live isLeft state result after coherent _ _ _ run
      obtain ⟨rfl, rfl⟩ := (ends_throw _).mp run
      exact ⟨.refl _, coherent, nofun⟩
  | succ depth ih =>
      intro id kind left token live isLeft state result after coherent reads offered fresh run
      have isKind : (network.node? id).map Node.kind = some kind := live
      unfold MatchM.leftActivate at run
      simp only [isKind] at run
      cases kind with
      | objectType | alpha => cases isLeft
      | join left' input tests negated functions =>
          cases isLeft
          cases negated with
          | false =>
              rw [ends_get_bind] at run
              exact joinFacts_activated sound ih live coherent reads offered fresh run
          | true =>
              rw [ends_get_bind] at run
              rcases ends_bind.mp run with ⟨blocking, between, first, rest⟩ | ⟨error, first, rfl⟩
              · obtain ⟨rfl, members⟩ := MatchM.ends_matching first
                exact matching_activated sound ih live coherent reads offered fresh
                  (members blocking rfl) rest
              · obtain ⟨rfl, -⟩ := MatchM.ends_matching first
                exact ⟨.refl _, coherent, nofun⟩
      | eval left' test functions =>
          cases isLeft
          rcases ends_lift_bind.mp run with ⟨holds, isHeld, rest⟩ | ⟨error, -, rfl, rfl⟩
          · exact eval_activated sound ih live coherent reads offered fresh isHeld rest
          · exact ⟨.refl _, coherent, nofun⟩
      | terminal left' terminal =>
          cases isLeft
          obtain ⟨rfl, rfl⟩ := (ends_modify _).mp run
          exact terminal_activated sound live coherent offered fresh

/-- Letting a token through a node: a token that is known changes nothing, and a new one adds what
comes of it. -/
theorem emit_emitted {kind : NodeKind} (live : network.kind? id = some kind)
    (supports : Supports network base right state id kind token)
    (free : (state.cell network base id token).blocked = none)
    (coherent : Coherent network base right state) (reads : Reads network right state.memory)
    (run : Ends (MatchM.emit network view id token) state result after) :
    ((state.cell network base id token).token = true ∧ result = .ok () ∧ after = state) ∨
      ((state.cell network base id token).token = false ∧
        Emitted network base view right state id token result after) := by
  cases known : (state.cell network base id token).token with
  | true =>
      obtain ⟨node, found, rfl⟩ := Network.kind?_eq_some.mp live
      have present : (state.memory.tokensAt id).contains token = true := known
      unfold MatchM.emit at run
      rw [MatchM.ends_emitWith found, present, if_pos rfl] at run
      exact .inl ⟨rfl, run⟩
  | false =>
      exact .inr ⟨rfl, emitWith_emitted sound live supports free coherent reads known
        (leftActivate_offers sound network.depth) run⟩

/-- What comes of a token is covered, unless a condition has failed. -/
theorem Emitted.covers (emitted : Emitted network base view right state id token result after)
    {excused : NodeId → Tuple → Prop} (covers : Covers network base state excused)
    (fails : ∀ {error}, result = .error error → ∀ {other tuple}, token <+: tuple →
      excused other tuple) : Covers network base after excused := by
  refine ⟨fun {other left input tests functions tuple} live offered => ?_⟩
  by_cases inside : ∃ via, left = some via ∧ Within network id token via tuple
  · obtain ⟨via, rfl, feeds, starts⟩ := inside
    cases result with
    | error error => exact .inr (fails rfl starts)
    | ok =>
        have behind : Behind network id token other tuple := by
          refine ⟨feeds.next live rfl, ?_, starts⟩
          rintro rfl
          exact Network.Feeds.not_left sound.accounted live rfl feeds
        exact .inl (emitted.settled rfl live rfl behind offered).covered
  · have before := emitted.spread.offered_before offered
      fun via same within => inside ⟨via, same, within⟩
    exact (covers.place live before).imp_left emitted.spread.covered

end

end Matching

end Rete
