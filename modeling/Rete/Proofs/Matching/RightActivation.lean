import Rete.Proofs.Matching.Confinement

/-!
# Facts that come to stand on the right

A fact that has passed the alpha level is offered to the joins behind it, one by one. That leaves
the memories coherent, whether or not a condition fails, and each join that was reached is settled
for the facts with the new one, while those that are still to come are so without it
(`rightActivateJoin_reaches`). A condition that fails loses only tuples that the fact is part of
(`Brings.covers`).
-/

namespace Rete.Matching

variable {network : Network} {first base : Agenda} {view : FactView}
  {right : NodeId → Handle → Prop} {state after : Matching}

/-- Nothing that is kept of a tuple at a node has changed. -/
def SameAt (network : Network) (base : Agenda) (state after : Matching) (id : NodeId)
    (tuple : Tuple) : Prop :=
  ∀ longer, tuple <+: longer →
    after.cell network base id longer = state.cell network base id longer

section

variable (sound : network.Sound)

include sound

/-- Where something changes only for one token of a node, a place is behind it, or is that of the
token, or has not changed. -/
theorem place_cases (grounded : Grounded network base right after) {id : NodeId} {kind : NodeKind}
    (live : network.kind? id = some kind) {left : Option NodeId} (isLeft : kind.left? = some left)
    {arity : Nat} (isArity : network.Arity (some id) arity) {token : Tuple}
    (length : token.length = arity) (seeded : after.memory.seeded = state.memory.seeded)
    (outside : ∀ {other tuple}, ¬ Within network id token other tuple →
      after.cell network base other tuple = state.cell network base other tuple)
    {other : NodeId} {otherKind : NodeKind} {otherLeft : Option NodeId} {tuple : Tuple}
    (otherLive : network.kind? other = some otherKind)
    (otherIsLeft : otherKind.left? = some otherLeft)
    (offered : Offered network base after otherLeft tuple) :
    Behind network id token other tuple ∨ (other = id ∧ tuple <+: token) ∨
      (Offered network base state otherLeft tuple ∧
        SameAt network base state after other tuple) := by
  by_cases behind : Behind network id token other tuple
  · exact .inl behind
  refine .inr ?_
  have offeredBefore : Offered network base state otherLeft tuple := by
    cases otherLeft with
    | none => exact ⟨seeded.symm.trans offered.1, offered.2⟩
    | some via =>
        refine (congrArg Cell.token (outside ?_)).symm.trans offered
        rintro ⟨feeds, starts⟩
        refine behind ⟨feeds.next otherLive otherIsLeft, ?_, starts⟩
        rintro rfl
        exact Network.Feeds.not_left sound.accounted otherLive otherIsLeft feeds
  by_cases here : other = id
  · subst here
    cases live.symm.trans otherLive
    cases isLeft.symm.trans otherIsLeft
    by_cases starts : tuple <+: token
    · exact .inl ⟨rfl, starts⟩
    refine .inr ⟨offeredBefore, fun longer extended => outside ?_⟩
    rintro ⟨-, tokenStarts⟩
    refine starts (List.prefix_of_prefix_length_le extended tokenStarts ?_)
    obtain ⟨leftArity, isLeftArity⟩ :=
      sound.wellFormed.exists_left_arity sound.accounted live isLeft
    rw [grounded.length isLeftArity offered, length]
    cases isArity with
    | @join _ _ _ _ negated _ _ live' before =>
        cases live.symm.trans live'
        cases isLeft
        rw [isLeftArity.unique before]
        cases negated
        · exact Nat.le_succ _
        · exact Nat.le_refl _
    | eval live' before =>
        cases live.symm.trans live'
        cases isLeft
        exact Nat.le_of_eq (isLeftArity.unique before)
  · refine .inr ⟨offeredBefore, fun longer extended => outside ?_⟩
    by_cases starts : token <+: tuple
    · rintro ⟨feeds, -⟩
      exact behind ⟨feeds, here, starts⟩
    · exact grounded.not_within sound isArity (Nat.le_of_eq length) otherLive otherIsLeft offered
        here starts extended

end

/-! ## Holding back a token -/

/-- The facts that hold back a token. -/
def blocking (state : Matching) (id : NodeId) (token : Tuple) : SortedSet Handle :=
  ((state.memory.blockedAt id).find? token).getD ∅

/-- A fact is added to those that hold back a token. -/
def holdBack (state : Matching) (id : NodeId) (token : Tuple) (fact : Handle) : Matching :=
  { state with
    memory := state.memory.setBlocked id
      ((state.memory.blockedAt id).insert token ((state.blocking id token).add fact)) }

private theorem block_eq (id : NodeId) (token : Tuple) (fact : Handle) :
    block network id token fact state =
    if (state.blocking id token).isEmpty then
      retractOutput network token (state.holdBack id token fact) id
    else state.holdBack id token fact :=
  rfl

/-- What holds back a token is stored with it. -/
theorem blocking_of_held {id : NodeId} {token : Tuple} {facts : SortedSet Handle}
    (held : (state.cell network base id token).blocked = some facts) :
    state.blocking id token = facts := by
  unfold blocking
  rw [show (state.memory.blockedAt id).find? token = some facts from held]
  rfl

private theorem contains_blocking {id : NodeId} {token : Tuple} {fact : Handle} :
    (state.blocking id token).contains fact = true ↔
      ∃ facts, (state.cell network base id token).blocked = some facts ∧
        facts.contains fact = true := by
  change (((state.memory.blockedAt id).find? token).getD ∅).contains fact = true ↔
    ∃ facts, (state.memory.blockedAt id).find? token = some facts ∧ facts.contains fact = true
  cases (state.memory.blockedAt id).find? token with
  | none =>
      simp only [Option.getD_none, SortedMap.contains_emptyCollection, Bool.false_eq_true,
        reduceCtorEq, false_and, exists_false]
  | some facts => simp only [Option.getD_some, Option.some.injEq, exists_eq_left']

private theorem contains_add_blocking {id : NodeId} {token : Tuple} {fact other : Handle} :
    ((state.blocking id token).add fact).contains other = true ↔ other = fact ∨
      ∃ facts, (state.cell network base id token).blocked = some facts ∧
        facts.contains other = true := by
  rw [SortedSet.contains_add, Bool.or_eq_true, decide_eq_true_iff, contains_blocking]

/-- Adding a fact to those that hold back a token keeps everything grounded. -/
theorem Coherent.holdBack (coherent : Coherent network base right state) {id input : NodeId}
    {left : Option NodeId} {tests : List Expr} {functions : FunctionTable}
    (live : network.kind? id = some (.join left input tests true functions)) {token : Tuple}
    (offered : Offered network base state left token) {fact : Handle} (stands : right id fact) :
    Grounded network base right (state.holdBack id token fact) := by
  have members {other : Handle} := @contains_add_blocking network base state id token fact other
  refine coherent.toGrounded.insertBlocked live offered
    (SortedMap.isEmpty_eq_false_iff.mpr ⟨fact, members.mpr (.inl rfl)⟩) fun other member => ?_
  rcases members.mp member with rfl | ⟨facts, blocked, held⟩
  · exact stands
  · obtain ⟨_, _, _, _, -, -, -, stand⟩ := coherent.blocked blocked
    exact stand other held

/-- A fact was added to those that hold back a token. -/
structure Blocks (network : Network) (base : Agenda) (right : NodeId → Handle → Prop)
    (state : Matching) (id : NodeId) (token : Tuple) (fact : Handle) (after : Matching) :
    Prop where
  seeded : after.memory.seeded = state.memory.seeded
  alpha : after.memory.alpha = state.memory.alpha
  coherent : Coherent network base right after
  held : ∀ other, (∃ facts, (after.cell network base id token).blocked = some facts ∧
      facts.contains other = true) ↔ other = fact ∨
    ∃ facts, (state.cell network base id token).blocked = some facts ∧
      facts.contains other = true
  blocked : (after.cell network base id token).blocked ≠ none
  /-- Where others hold the token back, nothing changes but that the fact does so too. -/
  joins : ∀ {facts}, (state.cell network base id token).blocked = some facts → ∀ other tuple,
    after.cell network base other tuple = if other = id ∧ tuple = token then
      { state.cell network base other tuple with blocked := some (facts.add fact) }
    else state.cell network base other tuple
  absent : (after.cell network base id token).token = false
  behind : ∀ {other tuple}, Behind network id token other tuple →
    after.cell network base other tuple = {}
  outside : ∀ {other tuple}, ¬ Within network id token other tuple →
    after.cell network base other tuple = state.cell network base other tuple

section

variable (sound : network.Sound)

include sound

private theorem block_blocks {id input : NodeId} {left : Option NodeId} {tests : List Expr}
    {functions : FunctionTable}
    (live : network.kind? id = some (.join left input tests true functions))
    (coherent : Coherent network base right state) {token : Tuple}
    (offered : Offered network base state left token) {fact : Handle} (stands : right id fact) :
    Blocks network base right state id token fact (block network id token fact state) := by
  obtain ⟨arity, isLeftArity⟩ := sound.wellFormed.exists_left_arity sound.accounted live rfl
  have isArity : network.Arity (some id) arity := .join live isLeftArity
  have length : token.length = arity := coherent.length isLeftArity offered
  have grounded := coherent.holdBack live offered stands
  have cells := @cell_insertBlocked network base state id token ((state.blocking id token).add fact)
  have ownBlocked : ((state.holdBack id token fact).cell network base id token).blocked =
      some ((state.blocking id token).add fact) :=
    congrArg Cell.blocked ((cells id token).trans (if_pos ⟨rfl, rfl⟩))
  have elsewhere : ∀ {other tuple}, ¬ (other = id ∧ tuple = token) →
      (state.holdBack id token fact).cell network base other tuple =
        state.cell network base other tuple := fun apart => (cells _ _).trans (if_neg apart)
  have apart : ∀ {other tuple}, ¬ Within network id token other tuple →
      ¬ (other = id ∧ tuple = token) := by
    rintro other tuple outside ⟨rfl, rfl⟩
    exact outside ⟨.self, List.prefix_refl _⟩
  rw [block_eq]
  cases first : (state.blocking id token).isEmpty with
  | true =>
      rw [if_pos rfl]
      have retracted := grounded.retractOutput sound live rfl isArity (Nat.le_of_eq length)
      have own := retracted.own (List.prefix_refl token)
      refine ⟨retracted.seeded, retracted.alpha,
        retracted.coherent sound grounded fun {other tuple facts} outside blocked => ?_,
        fun other => ?_, ?_, fun {facts} before => ?_, by rw [own], retracted.behind,
        fun {other tuple} outside => ?_⟩
      · rw [elsewhere (apart outside)] at blocked ⊢
        exact coherent.exclusive blocked
      · rw [own, ← contains_add_blocking]
        simp only [ownBlocked, Option.some.injEq, exists_eq_left']
      · simp only [own, ownBlocked, ne_eq, reduceCtorEq, not_false_eq_true]
      · obtain ⟨_, _, _, _, -, -, nonempty, -⟩ := coherent.blocked before
        rw [blocking_of_held before, nonempty] at first
        cases first
      · rw [retracted.outside outside, elsewhere (apart outside)]
  | false =>
      rw [if_neg Bool.false_ne_true]
      obtain ⟨other, held⟩ := SortedMap.isEmpty_eq_false_iff.mp first
      obtain ⟨facts, before, -⟩ := contains_blocking.mp held
      have absent : (state.cell network base id token).token = false := coherent.exclusive before
      have stillAbsent : ((state.holdBack id token fact).cell network base id token).token =
          false := (congrArg Cell.token ((cells id token).trans (if_pos ⟨rfl, rfl⟩))).trans absent
      refine ⟨rfl, rfl, ⟨grounded, fun {other tuple facts} blocked => ?_⟩, fun other => ?_, ?_,
        fun {others} held => blocking_of_held held ▸ cells, stillAbsent,
        fun {other tuple} behind => ?_, fun {other tuple} outside => elsewhere (apart outside)⟩
      · by_cases own : other = id ∧ tuple = token
        · obtain ⟨rfl, rfl⟩ := own
          exact stillAbsent
        · rw [elsewhere own] at blocked ⊢
          exact coherent.exclusive blocked
      · rw [ownBlocked, ← contains_add_blocking]
        simp only [Option.some.injEq, exists_eq_left']
      · rw [ownBlocked]
        exact Option.some_ne_none _
      · rw [elsewhere fun same => behind.2.1 same.1]
        exact coherent.behind_empty sound isArity length absent behind

omit sound in
/-- A token that nothing held back before is held back by the fact alone. -/
theorem Blocks.heldOnly {id : NodeId} {token : Tuple} {fact : Handle}
    (blocks : Blocks network base right state id token fact after)
    (free : (state.cell network base id token).blocked = none) :
    (after.cell network base id token).HeldOnlyBy fact := by
  obtain ⟨facts, blocked⟩ := Option.ne_none_iff_exists'.mp blocks.blocked
  refine ⟨facts, blocked, fun other => ⟨fun held => ?_, fun same => ?_⟩⟩
  · rcases (blocks.held other).mp ⟨facts, blocked, held⟩ with same | ⟨earlier, before, -⟩
    · exact same
    · cases free.symm.trans before
  · obtain ⟨others, isOthers, held⟩ := (blocks.held other).mpr (.inl same)
    cases blocked.symm.trans isOthers
    exact held

/-- A fact that comes to hold back a token that nothing held back stops what came of it. -/
theorem Confined.of_blocks_free {start : Matching} {id input : NodeId} {left : Option NodeId}
    {tests : List Expr} {functions : FunctionTable}
    (live : network.kind? id = some (.join left input tests true functions)) {token : Tuple}
    {fact : Handle} (confined : Confined network first base view fact start state)
    (coherent : Coherent network base right state)
    (blocks : Blocks network base right state id token fact after)
    (offered : Offered network base state left token)
    (joins : view.Joins functions tests token fact)
    (free : (state.cell network base id token).blocked = none) :
    Confined network first base view fact start after := by
  refine ⟨blocks.seeded.trans confined.seeded, fun {other tuple} without unstopped => ?_,
    fun {other tuple} without held => ?_⟩
  · have outside : ¬ Within network id token other tuple := fun inside =>
      unstopped ⟨id, token, mt (fun member => inside.2.subset member) without,
        blocks.heldOnly free, inside⟩
    rw [blocks.outside outside]
    refine confined.place without fun stopped => unstopped ?_
    obtain ⟨join, stem, stemWithout, held, inside⟩ := stopped
    have apart : ¬ Within network id token join stem := fun within =>
      outside ⟨within.1.trans inside.1, within.2.trans inside.2⟩
    exact ⟨join, stem, stemWithout, blocks.outside apart ▸ held, inside⟩
  · by_cases inside : Within network id token other tuple
    · rcases within_iff.mp inside with ⟨rfl, starts⟩ | behind
      · obtain ⟨facts, blocked, -⟩ := held
        obtain ⟨_, _, _, _, otherLive, otherOffered, -⟩ := blocks.coherent.blocked blocked
        cases live.symm.trans otherLive
        obtain ⟨arity, isArity⟩ := sound.wellFormed.exists_left_arity sound.accounted live rfl
        have same : token = tuple := starts.eq_of_length ((coherent.length isArity offered).trans
          (blocks.coherent.length isArity otherOffered).symm)
        subst same
        refine ⟨left, input, tests, functions, live,
          confined.offered sound coherent without offered, ?_, joins⟩
        have unstopped : ¬ Stopped network base fact state other token := fun stopped => by
          obtain ⟨earlier, before, -⟩ := coherent.heldOnly_of_stopped sound live rfl offered stopped
          cases free.symm.trans before
        rcases (confined.place without unstopped).blocked with same | ⟨earlier, -, added⟩
        · exact same ▸ free
        · cases free.symm.trans added
      · obtain ⟨facts, blocked, -⟩ := held
        rw [blocks.behind behind] at blocked
        cases blocked
    · rw [blocks.outside inside] at held
      exact confined.stoppable without held

omit sound in
/-- A fact that holds back a token besides others stops nothing more. -/
theorem Confined.of_blocks_held {start : Matching} {id : NodeId} {token : Tuple} {fact : Handle}
    (confined : Confined network first base view fact start state)
    (coherent : Coherent network base right state)
    (blocks : Blocks network base right state id token fact after) {facts : SortedSet Handle}
    (before : (state.cell network base id token).blocked = some facts) :
    Confined network first base view fact start after := by
  have cells := blocks.joins before
  have members : ∀ other, (facts.add fact).contains other = true ↔
      other = fact ∨ facts.contains other = true := fun other => by
    rw [SortedSet.contains_add, Bool.or_eq_true, decide_eq_true_iff]
  have stays : ∀ {other tuple}, (after.cell network base other tuple).HeldOnlyBy fact ↔
      (state.cell network base other tuple).HeldOnlyBy fact := by
    intro other tuple
    rw [cells]
    by_cases own : other = id ∧ tuple = token
    · obtain ⟨rfl, rfl⟩ := own
      obtain ⟨_, _, _, _, -, -, nonempty, -⟩ := coherent.blocked before
      obtain ⟨first, isFirst⟩ := SortedMap.isEmpty_eq_false_iff.mp nonempty
      rw [if_pos ⟨rfl, rfl⟩]
      constructor
      · rintro ⟨others, isOthers, only⟩
        cases isOthers
        have isFact := fun other held => (only other).mp ((members other).mpr (.inr held))
        refine ⟨facts, before, fun other => ⟨isFact other, ?_⟩⟩
        rintro rfl
        exact isFact first isFirst ▸ isFirst
      · rintro ⟨others, isOthers, only⟩
        cases before.symm.trans isOthers
        refine ⟨_, rfl, fun other => (members other).trans ?_⟩
        rw [only, or_self]
    · rw [if_neg own]
  have stopped : ∀ {other tuple}, Stopped network base fact state other tuple →
      Stopped network base fact after other tuple := by
    rintro other tuple ⟨join, stem, stemWithout, held, inside⟩
    exact ⟨join, stem, stemWithout, stays.mpr held, inside⟩
  refine ⟨blocks.seeded.trans confined.seeded, fun {other tuple} without unstopped => ?_,
    fun without held => confined.stoppable without (stays.mp held)⟩
  have joined := confined.place without (mt stopped unstopped)
  rw [cells]
  by_cases own : other = id ∧ tuple = token
  · obtain ⟨rfl, rfl⟩ := own
    rw [if_pos ⟨rfl, rfl⟩]
    exact joined.add before
  · rwa [if_neg own]

omit sound in
/-- Where a token was withdrawn, nothing behind it is offered any more. -/
theorem not_offered_behind (grounded : Grounded network base right after) {id : NodeId}
    {arity : Nat} (isArity : network.Arity (some id) arity) {token : Tuple}
    (length : token.length = arity) (absent : (after.cell network base id token).token = false)
    (behind : ∀ {other tuple}, Behind network id token other tuple →
      after.cell network base other tuple = {})
    {other : NodeId} {kind : NodeKind} {left : Option NodeId} {tuple : Tuple}
    (live : network.kind? other = some kind) (isLeft : kind.left? = some left)
    (isBehind : Behind network id token other tuple) :
    ¬ Offered network base after left tuple := by
  intro offered
  rcases isBehind.1.cases_last with same | ⟨found, via, foundLive, foundLeft, earlier⟩
  · exact isBehind.2.1 same
  cases live.symm.trans foundLive
  cases isLeft.symm.trans foundLeft
  by_cases own : via = id
  · subst own
    have same : token = tuple := isBehind.2.2.eq_of_length
      (length.trans (grounded.length isArity offered).symm)
    exact Bool.false_ne_true (absent.symm.trans (same ▸ offered))
  · have present : (after.cell network base via tuple).token = true := offered
    rw [behind ⟨earlier, own, isBehind.2.2⟩] at present
    cases present

/-- Where a fact holds back a token, each place that is offered is that of the token, or was offered
before and nothing that is kept of it has changed. -/
theorem Blocks.place {id input : NodeId} {left : Option NodeId} {tests : List Expr}
    {functions : FunctionTable}
    (live : network.kind? id = some (.join left input tests true functions)) {token : Tuple}
    {fact : Handle} (blocks : Blocks network base right state id token fact after) {arity : Nat}
    (isLeftArity : network.Arity left arity) (length : token.length = arity) {other : NodeId}
    {kind : NodeKind} {otherLeft : Option NodeId} {tuple : Tuple}
    (otherLive : network.kind? other = some kind) (isLeft : kind.left? = some otherLeft)
    (offered : Offered network base after otherLeft tuple) :
    (other = id ∧ tuple = token) ∨ (Offered network base state otherLeft tuple ∧
      SameAt network base state after other tuple) := by
  have isArity : network.Arity (some id) arity := .join live isLeftArity
  rcases place_cases sound blocks.coherent.toGrounded live rfl isArity length blocks.seeded
    blocks.outside otherLive isLeft offered with behind | ⟨rfl, starts⟩ | unchanged
  · exact absurd offered (not_offered_behind blocks.coherent.toGrounded isArity length
      blocks.absent blocks.behind otherLive isLeft behind)
  · cases live.symm.trans otherLive
    cases isLeft
    refine .inl ⟨rfl, starts.eq_of_length ?_⟩
    rw [blocks.coherent.length isLeftArity offered, length]
  · exact .inr unchanged

end

/-! ## One more fact on the right -/

/-- The facts on the right, without one. -/
def Without (right : NodeId → Handle → Prop) (fact : Handle) (id : NodeId) (other : Handle) :
    Prop :=
  right id other ∧ other ≠ fact

/-- Every place is settled, or is still to be settled and is so without a fact. -/
structure SettledBut (network : Network) (base : Agenda) (view : FactView)
    (right : NodeId → Handle → Prop) (fact : Handle) (state : Matching)
    (todo : NodeId → Tuple → Prop) : Prop where
  place : ∀ {id kind left tuple}, network.kind? id = some kind → kind.left? = some left →
    Offered network base state left tuple →
    Settled network base view right state id tuple kind ∨
      (todo id tuple ∧ Settled network base view (Without right fact) state id tuple kind)

/-- With more left to do, less is required to be settled. -/
theorem SettledBut.mono {fact : Handle} {todo more : NodeId → Tuple → Prop}
    (settledBut : SettledBut network base view right fact state todo)
    (within : ∀ {id tuple}, todo id tuple → more id tuple) :
    SettledBut network base view right fact state more := by
  refine ⟨fun live isLeft offered => ?_⟩
  exact (settledBut.place live isLeft offered).imp_right fun partly => ⟨within partly.1, partly.2⟩

/-- The tuples that a join goes through are those that it is offered. -/
theorem mem_keys_leftTokens {left : Option NodeId} {token : Tuple} :
    token ∈ (state.memory.leftTokens left).keys ↔ Offered network base state left token := by
  rw [SortedMap.mem_keys]
  cases left with
  | none =>
      cases seeded : state.memory.seeded with
      | false => simp [NetworkMemory.leftTokens, Offered, seeded]
      | true => simp [NetworkMemory.leftTokens, Offered, seeded]
  | some id => exact Iff.rfl

/-- A fact that does not match changes nothing for a tuple. -/
theorem Settled.of_not_joins {id input : NodeId} {left : Option NodeId} {tests : List Expr}
    {negated : Bool} {functions : FunctionTable} {tuple : Tuple} {fact : Handle}
    (settled : Settled network base view (Without right fact) state id tuple
      (.join left input tests negated functions))
    (joins : ¬ view.Joins functions tests tuple fact) :
    Settled network base view right state id tuple (.join left input tests negated functions) := by
  have same : ∀ other, Without right fact id other ∧ view.Joins functions tests tuple other ↔
      right id other ∧ view.Joins functions tests tuple other := by
    intro other
    refine ⟨fun here => ⟨here.1.1, here.2⟩, fun here => ⟨⟨here.1, ?_⟩, here.2⟩⟩
    rintro rfl
    exact joins here.2
  cases negated with
  | false => exact fun other => (settled other).trans (same other)
  | true => exact ⟨fun other => (settled.1 other).trans (same other), settled.2⟩

/-- A place is settled for a fact that matches when the token with the fact is let through. -/
theorem Settled.of_joined {id input : NodeId} {left : Option NodeId} {tests : List Expr}
    {functions : FunctionTable} {token : Tuple} {fact : Handle}
    (settled : Settled network base view (Without right fact) state id token
      (.join left input tests false functions))
    (stands : right id fact) (joins : view.Joins functions tests token fact)
    (present : (after.cell network base id (token ++ [fact])).token = true)
    (others : ∀ {other}, other ≠ fact → after.cell network base id (token ++ [other]) =
      state.cell network base id (token ++ [other])) :
    Settled network base view right after id token (.join left input tests false functions) := by
  intro other
  by_cases same : other = fact
  · subst same
    exact iff_of_true present ⟨stands, joins⟩
  · rw [others same]
    refine (settled other).trans (and_congr_left fun _ => ?_)
    exact ⟨And.left, fun here => ⟨here, same⟩⟩

/-- What offering a fact from the right and letting tokens through keep. -/
structure Keeps (network : Network) (base : Agenda) (right : NodeId → Handle → Prop)
    (state after : Matching) : Prop where
  seeded : after.memory.seeded = state.memory.seeded
  alpha : after.memory.alpha = state.memory.alpha
  coherent : Coherent network base right after

/-- What two steps keep each, they keep together. -/
theorem Keeps.trans {mid : Matching} (first : Keeps network base right state mid)
    (second : Keeps network base right mid after) : Keeps network base right state after :=
  ⟨second.seeded.trans first.seeded, second.alpha.trans first.alpha, second.coherent⟩

/-- A fact was offered from the right. If a condition has failed, only tuples that the fact is part
of may have been lost. -/
structure Brings (network : Network) (base : Agenda) (view : FactView)
    (right : NodeId → Handle → Prop) (fact : Handle) (state : Matching)
    (result : Except Error Unit) (after : Matching) : Prop
    extends Keeps network base right state after where
  confined : ∀ {first start}, Confined network first base view fact start state →
    Confined network first base view fact start after
  covers : ∀ {excused}, Covers network base state excused →
    Outcome result (fun _ => Covers network base after excused)
      fun _ => Covers network base after (Along excused fact)

namespace Brings

variable {fact : Handle}

/-- Where nothing has run, nothing has come in. -/
theorem refl (coherent : Coherent network base right state) :
    Brings network base view right fact state (.ok ()) state :=
  ⟨⟨rfl, rfl, coherent⟩, fun confined => confined, fun covers => covers⟩

private theorem fail (brings : Brings network base view right fact state (.ok ()) after)
    (error : Error) :
    Brings network base view right fact state (.error error) after :=
  ⟨brings.toKeeps, brings.confined, fun covers => Covers.mono (brings.covers covers) .inl⟩

private theorem trans {mid : Matching} {result : Except Error Unit}
    (first : Brings network base view right fact state (.ok ()) mid)
    (second : Brings network base view right fact mid result after) :
    Brings network base view right fact state result after :=
  ⟨first.toKeeps.trans second.toKeeps, fun confined => second.confined (first.confined confined),
    fun covers => second.covers (first.covers covers)⟩

end Brings

/-- A fact was offered to a part of the places, which settles these. -/
structure Reaches (network : Network) (base : Agenda) (view : FactView)
    (right : NodeId → Handle → Prop) (fact : Handle) (state : Matching)
    (part : NodeId → Tuple → Prop) (result : Except Error Unit) (after : Matching) : Prop
    extends Brings network base view right fact state result after where
  settles : result = .ok () → ∀ {todo : NodeId → Tuple → Prop},
    SettledBut network base view right fact state todo →
    SettledBut network base view right fact after fun id tuple =>
      todo id tuple ∧ ¬ part id tuple

namespace Reaches

variable {fact : Handle} {mid : Matching} {part other : NodeId → Tuple → Prop}
  {result : Except Error Unit}

private theorem refl (coherent : Coherent network base right state) :
    Reaches network base view right fact state (fun _ _ => False) (.ok ()) state :=
  ⟨.refl coherent, fun _ {_} settledBut => settledBut.mono fun here => ⟨here, not_false⟩⟩

private theorem mono (reaches : Reaches network base view right fact state part result after)
    (within : ∀ {id tuple}, other id tuple → part id tuple) :
    Reaches network base view right fact state other result after :=
  ⟨reaches.toBrings, fun done {_} settledBut =>
    (reaches.settles done settledBut).mono fun here => ⟨here.1, mt within here.2⟩⟩

private theorem trans (first : Reaches network base view right fact state part (.ok ()) mid)
    (second : Reaches network base view right fact mid other result after) :
    Reaches network base view right fact state (fun id tuple => part id tuple ∨ other id tuple)
      result after :=
  ⟨first.toBrings.trans second.toBrings, fun done {_} settledBut =>
    (second.settles done (first.settles rfl settledBut)).mono fun here =>
      ⟨here.1.1, not_or.mpr ⟨here.1.2, here.2⟩⟩⟩

/-- A fact that is offered to one part after another, where something else is kept on the way. -/
theorem forM {ι : Type} {step : ι → MatchM Unit} {items : List ι} (kept : Matching → Prop)
    (coherent : Coherent network base right state) (start : kept state)
    {parts : ι → NodeId → Tuple → Prop} (run : Ends (items.forM step) state result after)
    (each : ∀ item ∈ items, ∀ {before result after},
      Brings network base view right fact state (.ok ()) before → kept before →
      Ends (step item) before result after →
        Reaches network base view right fact before (parts item) result after ∧
          (result = .ok () → kept after)) :
    Reaches network base view right fact state (fun id tuple => ∃ item ∈ items, parts item id tuple)
      result after := by
  have outcome := run.forM
    (fun rest between => kept between ∧ Reaches network base view right fact state
      (fun id tuple => ∃ item ∈ items, item ∉ rest ∧ parts item id tuple) (.ok ()) between)
    (fun error between => Brings network base view right fact state (.error error) between)
    ⟨start, (refl coherent).mono ?outside⟩ ?each
  case outside =>
    rintro id tuple ⟨item, member, absent, -⟩
    exact absent member
  case each =>
    rintro item rest before result' after' member ⟨keeps, reaches⟩ step
    obtain ⟨onward, stays⟩ := each item member reaches.toBrings keeps step
    cases result' with
    | error error => exact reaches.toBrings.trans onward.toBrings
    | ok =>
        refine ⟨stays rfl, (reaches.trans onward).mono ?_⟩
        rintro id tuple ⟨other, isOther, absent, here⟩
        by_cases same : other = item
        · exact .inr (same ▸ here)
        · exact .inl ⟨other, isOther, fun inside =>
            (List.mem_cons.mp inside).elim same absent, here⟩
  cases result with
  | error error => exact ⟨outcome, nofun⟩
  | ok =>
      refine outcome.2.mono ?_
      rintro id tuple ⟨item, member, here⟩
      exact ⟨item, member, List.not_mem_nil, here⟩

end Reaches

section

variable (sound : network.Sound)

include sound

/-- Offering a fact to a token of a join that is not negated. -/
theorem emit_reaches {id input : NodeId} {left : Option NodeId} {tests : List Expr}
    {functions : FunctionTable}
    (live : network.kind? id = some (.join left input tests false functions))
    (coherent : Coherent network base right state) (reads : Reads network right state.memory)
    {token : Tuple} (offered : Offered network base state left token) {fact : Handle}
    (stands : right id fact) (joins : view.Joins functions tests token fact)
    {result : Except Error Unit}
    (run : Ends (MatchM.emit network view id (token ++ [fact])) state result after) :
    Reaches network base view right fact state (fun other tuple => other = id ∧ tuple = token)
        result after ∧
      ∀ {tuple}, Offered network base state left tuple → Offered network base after left tuple := by
  obtain ⟨arity, isLeftArity⟩ := sound.wellFormed.exists_left_arity sound.accounted live rfl
  have isArity : network.Arity (some id) (arity + 1) := .join live isLeftArity
  have length : token.length = arity := coherent.length isLeftArity offered
  have free := coherent.unblocked live (token ++ [fact])
  have new (absent : (state.cell network base id (token ++ [fact])).token = false) :
      ¬ Settled network base view right state id token (.join left input tests false functions) :=
    fun settled => Bool.false_ne_true (absent.symm.trans ((settled fact).mpr ⟨stands, joins⟩))
  have old (present : (state.cell network base id (token ++ [fact])).token = true) :
      ¬ Settled network base view (Without right fact) state id token
        (.join left input tests false functions) :=
    fun settled => ((settled fact).mp present).1.2 rfl
  rcases emit_emitted sound live ⟨token, fact, rfl, offered, stands⟩ free coherent reads run with
    ⟨present, rfl, rfl⟩ | ⟨absent, emitted⟩
  · refine ⟨⟨.refl coherent, fun _ {todo} settledBut =>
      ⟨fun {other kind otherLeft tuple} otherLive isLeft otherOffered => ?_⟩⟩, fun before => before⟩
    refine (settledBut.place otherLive isLeft otherOffered).imp_right fun partly =>
      ⟨⟨partly.1, ?_⟩, partly.2⟩
    rintro ⟨rfl, rfl⟩
    cases live.symm.trans otherLive
    exact old present partly.2
  · have last : fact ∈ token ++ [fact] := List.mem_append_right _ (List.mem_singleton_self fact)
    refine ⟨⟨⟨⟨emitted.spread.seeded, emitted.spread.alpha, emitted.coherent⟩,
      fun confined => confined.of_spread emitted.spread fun within => within.2.subset last,
      fun {excused} covers => ?_⟩, fun done {todo} settledBut =>
        ⟨fun {other kind otherLeft tuple} otherLive isLeft otherOffered => ?_⟩⟩,
      emitted.spread.offered⟩
    · cases result with
      | ok => exact emitted.covers sound covers nofun
      | error error =>
          exact emitted.covers sound (covers.mono .inl) fun {_} _ {other tuple} starts =>
            .inr (starts.subset last)
    have fits : (token ++ [fact]).length = arity + 1 := by
      rw [List.length_append, length]
      rfl
    rcases place_cases sound emitted.coherent.toGrounded live rfl isArity fits
      emitted.spread.seeded emitted.spread.outside otherLive isLeft otherOffered with
      behind | ⟨rfl, starts⟩ | ⟨before, same⟩
    · exact .inl (emitted.settled done otherLive isLeft behind otherOffered)
    · cases live.symm.trans otherLive
      cases isLeft
      have sameLength : tuple.length = token.length := by
        rw [emitted.coherent.length isLeftArity otherOffered, length]
      have isToken : tuple = token :=
        (List.prefix_of_prefix_length_le starts (List.prefix_append ..)
          (Nat.le_of_eq sameLength)).eq_of_length sameLength
      subst isToken
      rcases settledBut.place live rfl offered with settled | ⟨-, settled⟩
      · exact absurd settled (new absent)
      · refine .inl (settled.of_joined stands joins emitted.present fun different => ?_)
        exact emitted.spread.outside fun within =>
          different (within.fact_unique ⟨.self, List.prefix_refl _⟩).symm
    · refine (settledBut.place otherLive isLeft before).imp (fun settled => settled.congr same)
        fun partly => ⟨⟨partly.1, ?_⟩, partly.2.congr same⟩
      rintro ⟨rfl, rfl⟩
      have present := same (tuple ++ [fact]) (List.prefix_append ..)
      rw [← present, emitted.present] at absent
      cases absent

/-- Holding back a token of a negated join. -/
theorem block_reaches {id input : NodeId} {left : Option NodeId} {tests : List Expr}
    {functions : FunctionTable}
    (live : network.kind? id = some (.join left input tests true functions))
    (coherent : Coherent network base right state) {token : Tuple}
    (offered : Offered network base state left token) {fact : Handle} (stands : right id fact)
    (joins : view.Joins functions tests token fact) :
    let after := block network id token fact state
    Reaches network base view right fact state (fun other tuple => other = id ∧ tuple = token)
        (.ok ()) after ∧
      ∀ {tuple}, Offered network base state left tuple → Offered network base after left tuple := by
  intro after
  have blocks := block_blocks sound live coherent offered stands
  obtain ⟨arity, isLeftArity⟩ := sound.wellFormed.exists_left_arity sound.accounted live rfl
  have length : token.length = arity := coherent.length isLeftArity offered
  have offeredAfter : ∀ {tuple}, Offered network base state left tuple →
      Offered network base after left tuple := by
    intro tuple before
    cases left with
    | none => exact ⟨blocks.seeded.trans before.1, before.2⟩
    | some via =>
        refine (congrArg Cell.token (blocks.outside ?_)).trans before
        rintro ⟨feeds, -⟩
        exact Network.Feeds.not_left sound.accounted live rfl feeds
  have confines : ∀ {first start}, Confined network first base view fact start state →
      Confined network first base view fact start after := by
    intro first start confined
    cases before : (state.cell network base id token).blocked with
    | none => exact confined.of_blocks_free sound live coherent blocks offered joins before
    | some facts => exact confined.of_blocks_held coherent blocks before
  refine ⟨⟨⟨⟨blocks.seeded, blocks.alpha, blocks.coherent⟩, confines, fun {excused} covers =>
      ⟨fun {other otherLeft otherInput otherTests otherFunctions tuple}
        otherLive otherOffered => ?_⟩⟩,
    fun _ {todo} settledBut =>
      ⟨fun {other kind otherLeft tuple} otherLive isLeft otherOffered => ?_⟩⟩, offeredAfter⟩
  · rcases blocks.place sound live isLeftArity length otherLive rfl otherOffered with
      ⟨rfl, rfl⟩ | ⟨before, same⟩
    · exact .inl (.inr blocks.blocked)
    · rw [same tuple (List.prefix_refl _)]
      exact covers.place otherLive before
  by_cases own : other = id ∧ tuple = token
  · obtain ⟨rfl, rfl⟩ := own
    cases live.symm.trans otherLive
    refine .inl ⟨fun last => ?_, iff_of_false (Bool.eq_false_iff.mp blocks.absent) blocks.blocked⟩
    rw [blocks.held]
    rcases settledBut.place live rfl offered with settled | ⟨-, settled⟩
    · rw [settled.1]
      exact or_iff_right_of_imp fun same => same ▸ ⟨stands, joins⟩
    · rw [settled.1]
      constructor
      · rintro (rfl | ⟨⟨here, -⟩, joined⟩)
        · exact ⟨stands, joins⟩
        · exact ⟨here, joined⟩
      · rintro ⟨here, joined⟩
        by_cases isFact : last = fact
        · exact .inl isFact
        · exact .inr ⟨⟨here, isFact⟩, joined⟩
  · obtain ⟨before, same⟩ :=
      (blocks.place sound live isLeftArity length otherLive isLeft otherOffered).resolve_left own
    exact (settledBut.place otherLive isLeft before).imp (fun settled => settled.congr same)
      fun partly => ⟨⟨partly.1, own⟩, partly.2.congr same⟩

omit sound in
/-- A fact that does not match a token leaves its place settled. -/
theorem Reaches.of_not_joins {id input : NodeId} {left : Option NodeId} {tests : List Expr}
    {negated : Bool} {functions : FunctionTable}
    (live : network.kind? id = some (.join left input tests negated functions))
    (coherent : Coherent network base right state) {token : Tuple} {fact : Handle}
    (joins : ¬ view.Joins functions tests token fact) :
    Reaches network base view right fact state (fun other tuple => other = id ∧ tuple = token)
      (.ok ()) state := by
  refine ⟨.refl coherent, fun _ {todo} settledBut =>
    ⟨fun {other kind otherLeft tuple} otherLive isLeft offered => ?_⟩⟩
  by_cases own : other = id ∧ tuple = token
  · obtain ⟨rfl, rfl⟩ := own
    cases live.symm.trans otherLive
    exact .inl ((settledBut.place live isLeft offered).elim (fun settled => settled)
      fun partly => partly.2.of_not_joins joins)
  · exact (settledBut.place otherLive isLeft offered).imp_right fun partly =>
      ⟨⟨partly.1, own⟩, partly.2⟩

/-- Offering a fact from the right to one token of a join. -/
theorem rightActivateToken_reaches {id input : NodeId} {left : Option NodeId} {tests : List Expr}
    {negated : Bool} {functions : FunctionTable}
    (live : network.kind? id = some (.join left input tests negated functions))
    (coherent : Coherent network base right state) (reads : Reads network right state.memory)
    {handle : Handle} {fact : Object} (isFact : view.facts.find? handle = some fact)
    (stands : right id handle) {token : Tuple} (offered : Offered network base state left token)
    {result : Except Error Unit}
    (run : Ends (do
      if ← MatchM.liftResult (view.allHold functions ⟨token, some fact⟩ tests) then
        if negated then MatchM.change (block network id token handle)
        else MatchM.emit network view id (token ++ [handle])) state result after) :
    Reaches network base view right handle state (fun other tuple => other = id ∧ tuple = token)
        result after ∧
      (result = .ok () → ∀ {tuple}, Offered network base state left tuple →
        Offered network base after left tuple) := by
  rcases ends_lift_bind.mp run with ⟨holds, isHeld, run⟩ | ⟨error, -, rfl, rfl⟩
  · cases holds with
    | false =>
        rw [if_neg Bool.false_ne_true] at run
        obtain ⟨rfl, rfl⟩ := (ends_pure _).mp run
        refine ⟨.of_not_joins live coherent ?_, fun _ {_} before => before⟩
        rintro ⟨object, found, joins⟩
        cases isFact.symm.trans found
        cases isHeld.symm.trans joins
    | true =>
        rw [if_pos rfl] at run
        have joins : view.Joins functions tests token handle := ⟨fact, isFact, isHeld⟩
        cases negated with
        | true =>
            rw [if_pos rfl] at run
            obtain ⟨rfl, rfl⟩ := (ends_modify _).mp run
            obtain ⟨blocked, onward⟩ := block_reaches sound live coherent offered stands joins
            exact ⟨blocked, fun _ => onward⟩
        | false =>
            rw [if_neg Bool.false_ne_true] at run
            obtain ⟨emitted, onward⟩ :=
              emit_reaches sound live coherent reads offered stands joins run
            exact ⟨emitted, fun _ => onward⟩
  · exact ⟨⟨(Brings.refl coherent).fail error, nofun⟩, nofun⟩

/-- Offering a fact to a join from the right: the join is settled for it then. -/
theorem rightActivateJoin_reaches {id input : NodeId} {left : Option NodeId} {tests : List Expr}
    {negated : Bool} {functions : FunctionTable}
    (live : network.kind? id = some (.join left input tests negated functions))
    (coherent : Coherent network base right state) (reads : Reads network right state.memory)
    {handle : Handle} {fact : Object} (isFact : view.facts.find? handle = some fact)
    (stands : right id handle) {result : Except Error Unit}
    (run : Ends (MatchM.rightActivateJoin network view handle fact id) state result after) :
    Reaches network base view right handle state (fun other _ => other = id) result after := by
  have isKind :
      (network.node? id).map Node.kind = some (.join left input tests negated functions) :=
    live
  unfold MatchM.rightActivateJoin at run
  simp only [isKind] at run
  rw [ends_get_bind] at run
  have start : ∀ {tuple}, Offered network base state left tuple →
      Offered network base state left tuple := fun before => before
  have reaches : Reaches network base view right handle state
      (fun other tuple => ∃ token ∈ (state.memory.leftTokens left).keys,
        other = id ∧ tuple = token) result after := by
    refine .forM (fun between => ∀ {tuple}, Offered network base state left tuple →
      Offered network base between left tuple) coherent start run ?_
    intro token member between result' after' brings keeps step
    obtain ⟨reaches, onward⟩ := rightActivateToken_reaches sound live brings.coherent
      (reads.congr brings.alpha) isFact stands (keeps (mem_keys_leftTokens.mp member)) step
    exact ⟨reaches, fun done {_} before => onward done (keeps before)⟩
  refine ⟨reaches.toBrings, fun done {todo} settledBut => ?_⟩
  -- At the join, only tokens that are offered were left.
  have left : SettledBut network base view right handle state fun other tuple =>
      todo other tuple ∧ (other = id → tuple ∈ (state.memory.leftTokens left).keys) := by
    refine ⟨fun {other kind otherLeft tuple} otherLive isLeft offered => ?_⟩
    refine (settledBut.place otherLive isLeft offered).imp_right fun partly =>
      ⟨⟨partly.1, ?_⟩, partly.2⟩
    rintro rfl
    cases live.symm.trans otherLive
    cases isLeft
    exact mem_keys_leftTokens.mpr offered
  refine (reaches.settles done left).mono ?_
  rintro other tuple ⟨⟨here, member⟩, apart⟩
  exact ⟨here, fun same => apart ⟨tuple, member same, same, rfl⟩⟩

/-- Offering a fact to every join behind a node of the alpha level that holds it. -/
theorem rightActivate_reaches (coherent : Coherent network base right state)
    (reads : Reads network right state.memory) {handle : Handle} {fact : Object}
    (isFact : view.facts.find? handle = some fact) {id : NodeId}
    (passed : (state.memory.factsAt id).contains handle = true) {result : Except Error Unit}
    (run : Ends (MatchM.rightActivate network view handle fact id) state result after) :
    Reaches network base view right handle state
      (fun other _ => (network.kind? other).bind NodeKind.right? = some id) result after := by
  unfold MatchM.rightActivate at run
  cases found : network.node? id with
  | none =>
      simp only [found] at run
      obtain ⟨rfl, rfl⟩ := (ends_pure _).mp run
      refine (Reaches.refl coherent).mono fun {other _} isRight => ?_
      obtain ⟨kind, live, isRight⟩ := Option.bind_eq_some_iff.mp isRight
      obtain ⟨input, inputLive⟩ := (sound.wellFormed.fits live).input_live
        (NodeKind.mem_inputs.mpr (.inr isRight))
      rw [Network.kind?_eq_none.mpr found] at inputLive
      cases inputLive
  | some node =>
      simp only [found] at run
      have isOutput : ∀ {other}, other ∈ node.rightChildren ↔
          (network.kind? other).bind NodeKind.right? = some id := by
        intro other
        rw [sound.wellFormed.mem_rightChildren found, Option.bind_eq_some_iff]
      have reaches : Reaches network base view right handle state
          (fun other _ => ∃ join ∈ node.rightChildren, other = join) result after := by
        refine .forM (fun _ => True) coherent trivial run ?_
        intro join member between result' after' brings _ step
        obtain ⟨kind, live, isRight⟩ := Option.bind_eq_some_iff.mp (isOutput.mp member)
        have stands : right join handle := (reads live isRight handle).mpr passed
        cases kind with
        | objectType | alpha | eval | terminal => cases isRight
        | join left input tests negated functions =>
            exact ⟨rightActivateJoin_reaches sound live brings.coherent
              (reads.congr brings.alpha) isFact stands step, fun _ => trivial⟩
      exact reaches.mono fun {other _} isRight => ⟨other, isOutput.mpr isRight, rfl⟩

/-- Offering a fact to the joins behind all nodes of the alpha level that hold it. -/
theorem rightActivate_forM_keeps (coherent : Coherent network base right state)
    (reads : Reads network right state.memory) {handle : Handle} {fact : Object}
    (isFact : view.facts.find? handle = some fact) {passed : List NodeId}
    (holders : ∀ id ∈ passed, (state.memory.factsAt id).contains handle = true)
    {result : Except Error Unit}
    (run : Ends (passed.forM (MatchM.rightActivate network view handle fact)) state result after) :
    Brings network base view right handle state result after ∧
      (result = .ok () → (∀ {id kind input}, network.kind? id = some kind →
          kind.right? = some input → right id handle → input ∈ passed) →
        SettledBut network base view right handle state (fun id _ => right id handle) →
        SettledBut network base view right handle after fun _ _ => False) := by
  have reaches : Reaches network base view right handle state
      (fun other _ => ∃ input ∈ passed, (network.kind? other).bind NodeKind.right? = some input)
      result after := by
    refine .forM (fun _ => True) coherent trivial run ?_
    intro node member between result' after' brings _ step
    have stillHeld : (between.memory.factsAt node).contains handle = true := by
      rw [NetworkMemory.factsAt_congr brings.alpha]
      exact holders node member
    exact ⟨rightActivate_reaches sound brings.coherent (reads.congr brings.alpha) isFact stillHeld
      step, fun _ => trivial⟩
  refine ⟨reaches.toBrings, fun done all settledBut =>
    ⟨fun {id kind left tuple} live isLeft offered => .inl ?_⟩⟩
  rcases (reaches.settles done settledBut).place live isLeft offered with
    settled | ⟨⟨here, apart⟩, settled⟩
  · exact settled
  · cases kind with
    | objectType | alpha | eval | terminal => exact settled
    | join left' input tests negated functions =>
        exact absurd ⟨input, all live rfl here, by rw [live]; rfl⟩ apart

end

end Rete.Matching
