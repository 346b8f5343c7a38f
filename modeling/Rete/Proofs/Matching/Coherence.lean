import Rete.Proofs.Matching.Withdrawal

/-!
# Coherent memories

Everything that is kept behind the alpha level came of what is offered on the left and of facts
on the right (`Grounded`), and a token that is held back is not let through (`Coherent`). All tokens
of a left input are of one length (`Grounded.length`), so a stem of that length stands for one token
and what came of it; withdrawing a token keeps the memories coherent (`Retracted.coherent`).

Which facts stand on the right of a join is a parameter (`right`): while a fact is taken back it
stands there for the joins that were not reached yet.
-/

namespace Rete.Matching

variable {network : Network} {base : Agenda} {state after : Matching}

/-- A left input offers a tuple; the root offers the empty one. -/
def Offered (network : Network) (base : Agenda) (state : Matching) :
    Option NodeId → Tuple → Prop
  | none, tuple => state.memory.seeded = true ∧ tuple = []
  | some id, tuple => (state.cell network base id tuple).token = true

/-- A token that a node may let through: its left input offers what comes before the fact that a
join adds, and the fact stands on the right of the join. -/
def Supports (network : Network) (base : Agenda) (right : NodeId → Handle → Prop)
    (state : Matching) (id : NodeId) : NodeKind → Tuple → Prop
  | .join left _ _ false _, tuple => ∃ origin fact, tuple = origin ++ [fact] ∧
      Offered network base state left origin ∧ right id fact
  | .join left _ _ true _, tuple => Offered network base state left tuple
  | .eval left _ _, tuple => Offered network base state left tuple
  | .objectType _, _ | .alpha .., _ | .terminal .., _ => False

/-- Everything that is kept came of what is offered on the left and stands on the right. -/
structure Grounded (network : Network) (base : Agenda) (right : NodeId → Handle → Prop)
    (state : Matching) : Prop where
  token : ∀ {id tuple}, (state.cell network base id tuple).token = true →
    ∃ kind, network.kind? id = some kind ∧ Supports network base right state id kind tuple
  blocked : ∀ {id tuple facts}, (state.cell network base id tuple).blocked = some facts →
    ∃ left input tests functions,
      network.kind? id = some (.join left input tests true functions) ∧
      Offered network base state left tuple ∧ facts.isEmpty = false ∧
      ∀ fact, facts.contains fact = true → right id fact
  matched : ∀ {id tuple found}, (state.cell network base id tuple).matched = some found →
    ∃ left terminal, network.kind? id = some (.terminal left terminal) ∧
      Offered network base state left tuple
  tracked : ∀ {found}, (state.agenda base).knows found = true → ∃ id left terminal,
    network.kind? id = some (.terminal left terminal) ∧ terminal.rule = found.rule

/-- The memories are grounded, and no token is both held back and let through. -/
structure Coherent (network : Network) (base : Agenda) (right : NodeId → Handle → Prop)
    (state : Matching) : Prop extends Grounded network base right state where
  exclusive : ∀ {id tuple facts}, (state.cell network base id tuple).blocked = some facts →
    (state.cell network base id tuple).token = false

/-- Only nodes of the beta level have tuples to support. -/
theorem Supports.isBetaLevel {right : NodeId → Handle → Prop} {id : NodeId} {kind : NodeKind}
    {tuple : Tuple} (supports : Supports network base right state id kind tuple) :
    kind.isBetaLevel = true := by
  cases kind with
  | join | eval => rfl
  | objectType | alpha | terminal => exact supports.elim

/-! ## Memories that keep the same tokens -/

section

variable {other : Agenda} {right right' : NodeId → Handle → Prop}

/-- What is offered is read off the tokens. -/
theorem Offered.transfer (seeded : after.memory.seeded = state.memory.seeded)
    (tokens : ∀ id tuple, (after.cell network other id tuple).token =
      (state.cell network base id tuple).token)
    {left : Option NodeId} {tuple : Tuple} (offered : Offered network base state left tuple) :
    Offered network other after left tuple := by
  cases left with
  | none => exact ⟨seeded.trans offered.1, offered.2⟩
  | some id => exact (tokens id tuple).trans offered

/-- What a node is offered depends on the cells of the state only. -/
theorem Offered.congr (seeded : after.memory.seeded = state.memory.seeded)
    (cells : ∀ id tuple, after.cell network base id tuple = state.cell network base id tuple)
    {left : Option NodeId} {tuple : Tuple} (offered : Offered network base state left tuple) :
    Offered network base after left tuple :=
  offered.transfer seeded fun id tuple => congrArg Cell.token (cells id tuple)

/-- What supports a tuple still does if nothing is offered less and no fact on the right is gone. -/
theorem Supports.mono {id : NodeId} {kind : NodeKind} {tuple : Tuple}
    (supports : Supports network base right state id kind tuple)
    (offered : ∀ {left tuple}, Offered network base state left tuple →
      Offered network other after left tuple)
    (within : ∀ {fact}, right id fact → right' id fact) :
    Supports network other right' after id kind tuple := by
  cases kind with
  | join left input tests negated functions =>
      cases negated with
      | true => exact offered supports
      | false =>
          obtain ⟨origin, fact, same, origins, stands⟩ := supports
          exact ⟨origin, fact, same, offered origins, within stands⟩
  | eval => exact offered supports
  | objectType | alpha | terminal => exact supports.elim

/-- A token that is let through is not held back. -/
theorem Coherent.free_of_token (coherent : Coherent network base right state) {id : NodeId}
    {tuple : Tuple} (token : (state.cell network base id tuple).token = true) :
    (state.cell network base id tuple).blocked = none := by
  refine Option.eq_none_iff_forall_ne_some.mpr fun facts blocked => ?_
  exact Bool.false_ne_true ((coherent.exclusive blocked).symm.trans token)

/-- Memories that keep the same tokens and hold back the same are coherent as well, with more facts
on the right and an agenda that tracks no other matches. -/
theorem Coherent.transfer (coherent : Coherent network base right state)
    (seeded : after.memory.seeded = state.memory.seeded)
    (tokens : ∀ id tuple, (after.cell network other id tuple).token =
      (state.cell network base id tuple).token)
    (held : ∀ id tuple, (after.cell network other id tuple).blocked =
      (state.cell network base id tuple).blocked)
    (known : ∀ {found}, (after.agenda other).knows found = true →
      (state.agenda base).knows found = true)
    (within : ∀ {id fact}, right id fact → right' id fact) :
    Coherent network other right' after := by
  have offered : ∀ {left tuple}, Offered network base state left tuple →
      Offered network other after left tuple := Offered.transfer seeded tokens
  refine ⟨⟨fun {id tuple} token => ?_, fun {id tuple facts} blocked => ?_,
    fun {id tuple found} matched => ?_, fun {found} tracked => coherent.tracked (known tracked)⟩,
    fun {id tuple facts} blocked => ?_⟩
  · rw [tokens] at token
    obtain ⟨kind, live, supports⟩ := coherent.token token
    exact ⟨kind, live, supports.mono offered within⟩
  · rw [held] at blocked
    obtain ⟨left, input, tests, functions, live, origins, nonempty, stand⟩ :=
      coherent.blocked blocked
    exact ⟨left, input, tests, functions, live, offered origins, nonempty,
      fun fact member => within (stand fact member)⟩
  · obtain ⟨left, terminal, live, tracked⟩ := Network.matchState?_eq_some.mp matched
    obtain ⟨old, before⟩ := SortedMap.contains_eq_true.mp
      (known (SortedMap.contains_eq_true.mpr ⟨found, tracked⟩))
    obtain ⟨otherLeft, otherTerminal, otherLive, origins⟩ :=
      coherent.matched (Network.matchState?_eq_some.mpr ⟨left, terminal, live, before⟩)
    exact ⟨otherLeft, otherTerminal, otherLive, offered origins⟩
  · rw [held] at blocked
    rw [tokens]
    exact coherent.exclusive blocked

/-- Where nothing that is kept behind the alpha level has changed, more facts on the right leave the
memories coherent. -/
theorem Coherent.mono (coherent : Coherent network base right state)
    (seeded : after.memory.seeded = state.memory.seeded)
    (agenda : after.agenda base = state.agenda base)
    (cells : ∀ id tuple, after.cell network base id tuple = state.cell network base id tuple)
    (within : ∀ {id fact}, right id fact → right' id fact) :
    Coherent network base right' after :=
  coherent.transfer seeded (fun id tuple => congrArg Cell.token (cells id tuple))
    (fun id tuple => congrArg Cell.blocked (cells id tuple)) (fun known => agenda ▸ known) within

end

namespace Grounded

variable {right : NodeId → Handle → Prop}

/-- Memories with grounds have nothing where nothing is kept. -/
theorem tidy (grounded : Grounded network base right state) : Tidy network base state where
  token token := by
    obtain ⟨kind, live, supports⟩ := grounded.token token
    exact ⟨kind, live, supports.isBetaLevel⟩
  blocked blocked := by
    obtain ⟨left, input, tests, functions, live, -⟩ := grounded.blocked blocked
    exact ⟨_, live, rfl⟩

/-- What a live node lets through is supported. -/
theorem supports (grounded : Grounded network base right state) {id : NodeId} {kind : NodeKind}
    (live : network.kind? id = some kind) {tuple : Tuple}
    (token : (state.cell network base id tuple).token = true) :
    Supports network base right state id kind tuple := by
  obtain ⟨_, found, supports⟩ := grounded.token token
  cases live.symm.trans found
  exact supports

/-- Whatever is kept of a tuple came of a tuple that is offered. -/
theorem origin (grounded : Grounded network base right state) {id : NodeId} {tuple : Tuple}
    (kept : state.cell network base id tuple ≠ {}) : ∃ kind left origin,
      network.kind? id = some kind ∧ kind.left? = some left ∧
        Offered network base state left origin ∧ origin <+: tuple := by
  by_cases token : (state.cell network base id tuple).token = true
  · obtain ⟨kind, live, supports⟩ := grounded.token token
    cases kind with
    | join left input tests negated functions =>
        cases negated with
        | true => exact ⟨_, left, tuple, live, rfl, supports, List.prefix_refl _⟩
        | false =>
            obtain ⟨origin, fact, rfl, offered, -⟩ := supports
            exact ⟨_, left, origin, live, rfl, offered, List.prefix_append ..⟩
    | eval left test functions => exact ⟨_, left, tuple, live, rfl, supports, List.prefix_refl _⟩
    | objectType | alpha | terminal => exact supports.elim
  · cases blocked : (state.cell network base id tuple).blocked with
    | some facts =>
        obtain ⟨left, input, tests, functions, live, offered, -⟩ := grounded.blocked blocked
        exact ⟨_, left, tuple, live, rfl, offered, List.prefix_refl _⟩
    | none =>
        cases matched : (state.cell network base id tuple).matched with
        | some found =>
            obtain ⟨left, terminal, live, offered⟩ := grounded.matched matched
            exact ⟨_, left, tuple, live, rfl, offered, List.prefix_refl _⟩
        | none =>
            exact absurd (Cell.ext (Bool.eq_false_iff.mpr token) blocked matched) kept

/-- Only negated joins hold tokens back. -/
theorem unblocked (grounded : Grounded network base right state) {id input : NodeId}
    {left : Option NodeId} {tests : List Expr} {functions : FunctionTable}
    (live : network.kind? id = some (.join left input tests false functions)) (tuple : Tuple) :
    (state.cell network base id tuple).blocked = none := by
  refine Option.eq_none_iff_forall_ne_some.mpr fun facts blocked => ?_
  obtain ⟨_, _, _, _, isNegated, -⟩ := grounded.blocked blocked
  cases live.symm.trans isNegated

/-- All tuples that a left input offers are of one length. -/
theorem length (grounded : Grounded network base right state) {left : Option NodeId} {arity : Nat}
    (isArity : network.Arity left arity) {tuple : Tuple}
    (offered : Offered network base state left tuple) : tuple.length = arity := by
  induction isArity generalizing tuple with
  | root => rw [offered.2, List.length_nil]
  | @join id input left tests negated functions arity live before ih =>
      have supports := grounded.supports live offered
      cases negated with
      | true => exact ih supports
      | false =>
          obtain ⟨origin, fact, rfl, offered, -⟩ := supports
          rw [List.length_append, ih offered]
          rfl
  | eval live before ih => exact ih (grounded.supports live offered)

/-- A tuple that a left input offers is as long as its place says. -/
theorem arity (grounded : Grounded network base right state) (sound : network.Sound)
    {left : Option NodeId} {tuple : Tuple} (offered : Offered network base state left tuple) :
    network.Arity left tuple.length := by
  cases left with
  | none =>
      obtain ⟨-, rfl⟩ := offered
      exact .root
  | some id =>
      obtain ⟨kind, live, supports⟩ := grounded.token offered
      obtain ⟨arity, isArity⟩ :=
        sound.wellFormed.exists_arity_of_beta sound.accounted live supports.isBetaLevel
      rw [grounded.length isArity offered]
      exact isArity

end Grounded

/-- Going down the network, tuples do not get shorter. -/
theorem arity_le_of_feeds {source id : NodeId} (feeds : network.Feeds source id)
    {arity other : Nat} (own : network.Arity (some source) arity)
    (below : network.Arity (some id) other) : arity ≤ other := by
  induction feeds generalizing other with
  | self => exact Nat.le_of_eq (own.unique below)
  | next _ live left ih =>
      cases below with
      | @join _ _ _ _ negated _ inner live' before =>
          cases live.symm.trans live'
          cases left
          have upper := ih before
          cases negated
          · exact Nat.le_succ_of_le upper
          · exact upper
      | eval live' before =>
          cases live.symm.trans live'
          cases left
          exact ih before

section

variable (sound : network.Sound) {right : NodeId → Handle → Prop}

include sound

/-- A stem that is no longer than the tokens of a node is one of their stems wherever it is a stem
behind the node. -/
theorem Grounded.rooted (grounded : Grounded network base right state) {id : NodeId} {arity : Nat}
    (isArity : network.Arity (some id) arity) {stem : Tuple} (short : stem.length ≤ arity) :
    Rooted network base state id stem := by
  intro other tuple feeds different starts kept
  obtain ⟨kind, left, origin, live, isLeft, offered, originStarts⟩ := grounded.origin kept
  obtain same | ⟨lastKind, via, lastLive, lastLeft, earlier⟩ := feeds.cases_last
  · exact absurd same different
  cases live.symm.trans lastLive
  cases isLeft.symm.trans lastLeft
  obtain ⟨length, viaArity⟩ := sound.wellFormed.exists_left_arity sound.accounted live isLeft
  have long : stem.length ≤ origin.length := by
    rw [grounded.length viaArity offered]
    exact Nat.le_trans short (arity_le_of_feeds earlier isArity viaArity)
  exact ⟨kind, via, origin, live, isLeft, List.prefix_of_prefix_length_le starts originStarts long,
    offered⟩

/-- Where a place behind a node is not behind a stem, nothing that is kept for it is. -/
theorem Grounded.not_within (grounded : Grounded network base right state) {id : NodeId}
    {arity : Nat} (isArity : network.Arity (some id) arity) {stem : Tuple}
    (short : stem.length ≤ arity) {other : NodeId} {kind : NodeKind} {left : Option NodeId}
    {tuple longer : Tuple} (live : network.kind? other = some kind)
    (isLeft : kind.left? = some left) (offered : Offered network base state left tuple)
    (different : other ≠ id) (outside : ¬ stem <+: tuple) (extended : tuple <+: longer) :
    ¬ Within network id stem other longer := by
  rintro ⟨feeds, starts⟩
  rcases feeds.cases_last with same | ⟨lastKind, via, lastLive, lastLeft, earlier⟩
  · exact different same
  cases live.symm.trans lastLive
  cases isLeft.symm.trans lastLeft
  obtain ⟨length, viaArity⟩ := sound.wellFormed.exists_left_arity sound.accounted live isLeft
  have long : stem.length ≤ tuple.length := by
    rw [grounded.length viaArity offered]
    exact Nat.le_trans short (arity_le_of_feeds earlier isArity viaArity)
  exact outside (List.prefix_of_prefix_length_le starts extended long)

/-- Nothing came of a token that a node did not let through. -/
theorem Grounded.behind_empty (grounded : Grounded network base right state) {id : NodeId}
    {arity : Nat} (isArity : network.Arity (some id) arity) {token : Tuple}
    (length : token.length = arity) (absent : (state.cell network base id token).token = false)
    {other : NodeId} {tuple : Tuple} (behind : Behind network id token other tuple) :
    state.cell network base other tuple = {} := by
  refine Rooted.behind_empty (grounded.rooted sound isArity (Nat.le_of_eq length))
    (fun {origin} starts => ?_) behind
  refine Bool.eq_false_iff.mpr fun present => ?_
  have same : token = origin :=
    starts.eq_of_length (length.trans (grounded.length isArity present).symm)
  rw [same, present] at absent
  cases absent

end

/-- Other tokens are held back at a negated join, which has nothing to do with the facts on the
right of other joins. -/
theorem Grounded.reblocked {right right' : NodeId → Handle → Prop}
    (grounded : Grounded network base right state) {id input : NodeId} {left : Option NodeId}
    {tests : List Expr} {functions : FunctionTable}
    (live : network.kind? id = some (.join left input tests true functions))
    (seeded : after.memory.seeded = state.memory.seeded)
    (agenda : after.agenda base = state.agenda base)
    {blocked : Tuple → Option (SortedSet Handle)}
    (cells : ∀ other tuple, after.cell network base other tuple =
      if other = id then { state.cell network base other tuple with blocked := blocked tuple }
      else state.cell network base other tuple)
    (others : ∀ {other fact}, other ≠ id → right other fact → right' other fact)
    (each : ∀ {tuple facts}, blocked tuple = some facts →
      Offered network base state left tuple ∧ facts.isEmpty = false ∧
        ∀ fact, facts.contains fact = true → right' id fact) :
    Grounded network base right' after := by
  have tokens : ∀ other tuple, (after.cell network base other tuple).token =
      (state.cell network base other tuple).token := by
    intro other tuple
    rw [cells]
    split <;> rfl
  have offered : ∀ {left : Option NodeId} {tuple : Tuple},
      Offered network base state left tuple → Offered network base after left tuple :=
    Offered.transfer seeded tokens
  refine ⟨fun {other tuple} token => ?_, fun {other tuple facts} held => ?_,
    fun {other tuple found} matched => ?_, fun {found} known => ?_⟩
  · rw [tokens] at token
    obtain ⟨kind, otherLive, supports⟩ := grounded.token token
    refine ⟨kind, otherLive, ?_⟩
    cases kind with
    | join otherLeft otherInput otherTests negated otherFunctions =>
        cases negated with
        | true => exact offered supports
        | false =>
            obtain ⟨origin, fact, same, origins, stands⟩ := supports
            refine ⟨origin, fact, same, offered origins, others ?_ stands⟩
            rintro rfl
            cases live.symm.trans otherLive
    | eval => exact offered supports
    | objectType | alpha | terminal => exact supports.elim
  · rw [cells] at held
    by_cases here : other = id
    · subst here
      rw [if_pos rfl] at held
      obtain ⟨origins, nonempty, stand⟩ := each held
      exact ⟨left, input, tests, functions, live, offered origins, nonempty, stand⟩
    · rw [if_neg here] at held
      obtain ⟨otherLeft, otherInput, otherTests, otherFunctions, otherLive, origins, nonempty,
        stand⟩ := grounded.blocked held
      exact ⟨otherLeft, otherInput, otherTests, otherFunctions, otherLive, offered origins,
        nonempty, fun fact member => others here (stand fact member)⟩
  · have before : (state.cell network base other tuple).matched = some found := by
      rw [cells] at matched
      split at matched <;> exact matched
    obtain ⟨otherLeft, terminal, otherLive, origins⟩ := grounded.matched before
    exact ⟨otherLeft, terminal, otherLive, offered origins⟩
  · rw [agenda] at known
    exact grounded.tracked known

/-- Holding back other tokens at a negated join. -/
theorem Grounded.setBlocked {right : NodeId → Handle → Prop}
    (grounded : Grounded network base right state) {id input : NodeId} {left : Option NodeId}
    {tests : List Expr} {functions : FunctionTable}
    (live : network.kind? id = some (.join left input tests true functions)) {blocked : Blocked}
    (each : ∀ {tuple facts}, blocked.find? tuple = some facts →
      Offered network base state left tuple ∧ facts.isEmpty = false ∧
        ∀ fact, facts.contains fact = true → right id fact) :
    Grounded network base right { state with memory := state.memory.setBlocked id blocked } :=
  grounded.reblocked live rfl rfl (state.cell_setBlocked id blocked) (fun _ stands => stands) each

/-- Holding back one token by other facts. -/
theorem Grounded.insertBlocked {right : NodeId → Handle → Prop}
    (grounded : Grounded network base right state) {id input : NodeId} {left : Option NodeId}
    {tests : List Expr} {functions : FunctionTable}
    (live : network.kind? id = some (.join left input tests true functions)) {token : Tuple}
    (offered : Offered network base state left token) {facts : SortedSet Handle}
    (nonempty : facts.isEmpty = false)
    (stand : ∀ fact, facts.contains fact = true → right id fact) :
    Grounded network base right { state with
      memory := state.memory.setBlocked id ((state.memory.blockedAt id).insert token facts) } := by
  refine grounded.setBlocked live fun {tuple found} stored => ?_
  rw [SortedMap.find?_insert_eq] at stored
  by_cases same : tuple = token
  · subst same
    rw [if_pos rfl] at stored
    cases stored
    exact ⟨offered, nonempty, stand⟩
  · rw [if_neg same] at stored
    have before : (state.cell network base id tuple).blocked = some found := stored
    obtain ⟨_, _, _, _, isNegated, offeredBefore, nonemptyBefore, standBefore⟩ :=
      grounded.blocked before
    cases live.symm.trans isNegated
    exact ⟨offeredBefore, nonemptyBefore, standBefore⟩

/-! ## Withdrawing tokens -/

/-- What dropping the tokens of a node with a stem does: they are gone with everything that came of
them, and everything else stays. -/
structure Retracted (network : Network) (base : Agenda) (state : Matching) (id : NodeId)
    (stem : Tuple) (after : Matching) : Prop where
  seeded : after.memory.seeded = state.memory.seeded
  alpha : after.memory.alpha = state.memory.alpha
  nextSequence : (after.agenda base).nextSequence = (state.agenda base).nextSequence
  firing : (after.agenda base).firing = (state.agenda base).firing
  states : ∀ {found kept}, (after.agenda base).states.find? found = some kept →
    (state.agenda base).states.find? found = some kept
  own : ∀ {tuple}, stem <+: tuple → after.cell network base id tuple =
    { state.cell network base id tuple with token := false }
  behind : ∀ {other tuple}, Behind network id stem other tuple →
    after.cell network base other tuple = {}
  outside : ∀ {other tuple}, ¬ Within network id stem other tuple →
    after.cell network base other tuple = state.cell network base other tuple

namespace Retracted

variable {id : NodeId} {stem : Tuple} (retracted : Retracted network base state id stem after)

include retracted

/-- A token that is left was there before, and is none of those that were dropped. -/
theorem token {other : NodeId} {tuple : Tuple}
    (token : (after.cell network base other tuple).token = true) :
    ¬ Within network id stem other tuple ∧
      (state.cell network base other tuple).token = true := by
  by_cases within : Within network id stem other tuple
  · by_cases here : other = id
    · subst here
      rw [retracted.own within.2] at token
      cases token
    · rw [retracted.behind ⟨within.1, here, within.2⟩] at token
      cases token
  · exact ⟨within, retracted.outside within ▸ token⟩

/-- A token that is held back was so before. -/
theorem blocked {other : NodeId} {tuple : Tuple} {facts : SortedSet Handle}
    (blocked : (after.cell network base other tuple).blocked = some facts) :
    ¬ Behind network id stem other tuple ∧
      (state.cell network base other tuple).blocked = some facts := by
  by_cases behind : Behind network id stem other tuple
  · rw [retracted.behind behind] at blocked
    cases blocked
  refine ⟨behind, ?_⟩
  by_cases within : Within network id stem other tuple
  · have here : other = id := by
      by_contra different
      exact behind ⟨within.1, different, within.2⟩
    subst here
    rwa [retracted.own within.2] at blocked
  · rwa [retracted.outside within] at blocked

end Retracted

section

variable (sound : network.Sound) {right : NodeId → Handle → Prop}

include sound

/-- Taking back what came of a stem at a node leaves the memories grounded. -/
theorem Grounded.retractOutput (grounded : Grounded network base right state) {id : NodeId}
    {kind : NodeKind} (live : network.kind? id = some kind) (beta : kind.isBetaLevel = true)
    {arity : Nat} (isArity : network.Arity (some id) arity) {stem : Tuple}
    (short : stem.length ≤ arity) :
    Retracted network base state id stem (retractOutput network stem state id) := by
  have cleared := retractOutput_cleared sound live beta grounded.tidy
    (grounded.rooted sound isArity short)
  have cells := @Matching.cell_dropTokens network base state id stem
  refine ⟨cleared.seeded.trans ?_, cleared.alpha.trans ?_, cleared.nextSequence, cleared.firing,
    cleared.states, fun {tuple} starts => ?_, fun behind => cleared.inside behind,
    fun {other tuple} outside => ?_⟩
  · exact NetworkMemory.seeded_dropTokens ..
  · exact NetworkMemory.alpha_dropTokens ..
  · rw [cleared.outside fun behind => behind.2.1 rfl, cells, if_pos ⟨rfl, starts⟩]
  · rw [cleared.outside fun behind => outside ⟨behind.1, behind.2.2⟩, cells, if_neg]
    rintro ⟨rfl, starts⟩
    exact outside ⟨.self, starts⟩

/-- Withdrawing tokens leaves the memories coherent; what is held back may before have been let
through as well, if it is withdrawn now. -/
theorem Retracted.coherent {id : NodeId} {stem : Tuple}
    (retracted : Retracted network base state id stem after)
    (grounded : Grounded network base right state)
    (exclusive : ∀ {other tuple facts}, ¬ Within network id stem other tuple →
      (state.cell network base other tuple).blocked = some facts →
      (state.cell network base other tuple).token = false) :
    Coherent network base right after := by
  have offered : ∀ {other kind left origin tuple}, network.kind? other = some kind →
      kind.left? = some left → origin <+: tuple → ¬ Behind network id stem other tuple →
      Offered network base state left origin → Offered network base after left origin := by
    intro other kind left origin tuple live isLeft starts notBehind before
    cases left with
    | none => exact ⟨retracted.seeded.trans before.1, before.2⟩
    | some via =>
        have outside : ¬ Within network id stem via origin := by
          rintro ⟨feeds, originStarts⟩
          refine notBehind ⟨feeds.next live isLeft, ?_, originStarts.trans starts⟩
          rintro rfl
          exact Network.Feeds.not_left sound.accounted live isLeft feeds
        exact (congrArg Cell.token (retracted.outside outside)).trans before
  refine ⟨⟨fun {other tuple} token => ?_, fun {other tuple facts} blocked => ?_,
    fun {other tuple found} matched => ?_, fun {found} known => ?_⟩,
    fun {other tuple facts} blocked => ?_⟩
  · obtain ⟨outside, before⟩ := retracted.token token
    have notBehind : ¬ Behind network id stem other tuple := fun behind =>
      outside ⟨behind.1, behind.2.2⟩
    obtain ⟨kind, live, supports⟩ := grounded.token before
    refine ⟨kind, live, ?_⟩
    cases kind with
    | join left input tests negated functions =>
        cases negated with
        | true => exact offered live rfl (List.prefix_refl _) notBehind supports
        | false =>
            obtain ⟨origin, fact, rfl, origins, stands⟩ := supports
            exact ⟨origin, fact, rfl, offered live rfl (List.prefix_append ..) notBehind origins,
              stands⟩
    | eval left test functions => exact offered live rfl (List.prefix_refl _) notBehind supports
    | objectType | alpha | terminal => exact supports.elim
  · obtain ⟨notBehind, before⟩ := retracted.blocked blocked
    obtain ⟨left, input, tests, functions, live, origins, stands⟩ := grounded.blocked before
    exact ⟨left, input, tests, functions, live,
      offered live rfl (List.prefix_refl _) notBehind origins, stands⟩
  · by_cases behind : Behind network id stem other tuple
    · rw [retracted.behind behind] at matched
      cases matched
    have before : (state.cell network base other tuple).matched = some found := by
      by_cases within : Within network id stem other tuple
      · have here : other = id := by
          by_contra different
          exact behind ⟨within.1, different, within.2⟩
        subst here
        rwa [retracted.own within.2] at matched
      · rwa [retracted.outside within] at matched
    obtain ⟨left, terminal, live, origins⟩ := grounded.matched before
    exact ⟨left, terminal, live, offered live rfl (List.prefix_refl _) behind origins⟩
  · obtain ⟨kept, present⟩ := SortedMap.contains_eq_true.mp known
    exact grounded.tracked (SortedMap.contains_eq_true.mpr ⟨kept, retracted.states present⟩)
  · by_cases within : Within network id stem other tuple
    · refine Bool.eq_false_iff.mpr fun token => ?_
      exact (retracted.token token).1 within
    · rw [retracted.outside within] at blocked ⊢
      exact exclusive within blocked

end

end Rete.Matching
