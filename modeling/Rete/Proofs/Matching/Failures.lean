import Rete.Proofs.Matching.Following
import Rete.Proofs.Matching.Views
import Rete.Proofs.Network.Scoping

/-!
# What ends a propagation

A propagation over live facts ends with an error only if the evaluation of a test of a node did
(`assert_raised`, `retract_raised`, `seed_raised`), on a match in progress that has the facts which
the place of the node counts on (`RaisedInPlace`): facts that the alpha level holds are live, tokens
have a fact for every join on their way (`Shown`), and walks along outputs are no longer than the
network is deep. Each step of propagation is of this kind (`Tame`).
-/

namespace Rete.Matching

variable {network : Network} {view : FactView} {state mid after : Matching}

/-- Evaluating a test of a node has failed. -/
def Raised (network : Network) (view : FactView) (error : Error) : Prop :=
  ∃ id kind own test scope, network.kind? id = some kind ∧ kind.table? = some own ∧
    test ∈ kind.tests ∧ view.holds own scope test = .error error

/-- Evaluating a test of a node has failed, for a match in progress that has the facts which its
place counts on. -/
inductive RaisedInPlace (network : Network) (view : FactView) (error : Error) : Prop
  | test {id : NodeId} {kind : NodeKind} {own : FunctionTable} {test : Expr} {room : Room}
      {scope : MatchScope} (live : network.kind? id = some kind) (isOwn : kind.table? = some own)
      (member : test ∈ kind.tests) (gives : network.Gives kind room) (meets : scope.Meets room)
      (failed : view.holds own scope test = .error error)

/-- The error is that of a test, whatever its match has. -/
theorem RaisedInPlace.forget {error : Error} (inPlace : RaisedInPlace network view error) :
    Raised network view error := by
  cases inPlace with
  | test live isOwn member gives meets failed => exact ⟨_, _, _, _, _, live, isOwn, member, failed⟩

/-- The facts that the alpha level holds are live, and tokens have as many facts as their place
says. -/
structure Shown (network : Network) (view : FactView) (state : Matching) : Prop where
  live : ∀ {id handle}, (state.memory.factsAt id).contains handle = true →
    view.facts.contains handle = true
  arity : ∀ {left tuple}, (state.memory.leftTokens left).contains tuple = true →
    network.Arity left tuple.length

/-- Tokens may be gone, and the alpha level is the same. -/
structure Lessened (state after : Matching) : Prop where
  alpha : after.memory.alpha = state.memory.alpha
  tokens : ∀ {left tuple}, (after.memory.leftTokens left).contains tuple = true →
    (state.memory.leftTokens left).contains tuple = true

namespace Lessened

/-- The alpha level and all tokens are as before. -/
theorem of_same (alpha : after.memory.alpha = state.memory.alpha)
    (beta : after.memory.beta = state.memory.beta)
    (seeded : after.memory.seeded = state.memory.seeded) : Lessened state after where
  alpha := alpha
  tokens {left tuple} present := by
    unfold NetworkMemory.leftTokens NetworkMemory.tokensAt at present ⊢
    rw [beta, seeded] at present
    exact present

/-- Nothing is gone. -/
theorem refl (state : Matching) : Lessened state state := .of_same rfl rfl rfl

/-- Tokens may go in two steps. -/
theorem trans (first : Lessened state mid) (second : Lessened mid after) :
    Lessened state after where
  alpha := second.alpha.trans first.alpha
  tokens present := first.tokens (second.tokens present)

private theorem foldl {ι : Type} {step : Matching → ι → Matching}
    (each : ∀ state item, Lessened state (step state item)) (items : List ι) (state : Matching) :
    Lessened state (items.foldl step state) := by
  apply List.foldlRecOn (motive := Lessened state)
  · exact refl state
  · exact fun later less item _ => less.trans (each later item)

private theorem dropTokens (state : Matching) (id : NodeId) (stem : Tuple) :
    Lessened state { state with memory := (state.memory.dropTokens id stem).2 } where
  alpha := state.memory.alpha_dropTokens id stem
  tokens {left tuple} present := by
    cases left with
    | none =>
        change (if (state.memory.dropTokens id stem).2.seeded then _ else _ : Tokens).contains tuple
          = true at present
        rw [NetworkMemory.seeded_dropTokens] at present
        exact present
    | some other =>
        change ((state.memory.dropTokens id stem).2.tokensAt other).contains tuple = true at present
        rw [NetworkMemory.tokensAt_dropTokens] at present
        split at present
        · next same =>
            subst same
            obtain ⟨value, stored⟩ := SortedMap.contains_eq_true.mp present
            rw [SortedMap.find?_filter] at stored
            exact SortedMap.contains_eq_true.mpr ⟨value, (Option.filter_eq_some_iff.mp stored).1⟩
        · exact present

variable (network)

private theorem retractOutputWith {below : Matching → NodeId → Matching}
    (each : ∀ state id, Lessened state (below state id)) (stem : Tuple) (state : Matching)
    (id : NodeId) : Lessened state (retractOutputWith network below stem state id) := by
  unfold Matching.retractOutputWith
  split
  · exact refl state
  · dsimp only
    split
    · exact (dropTokens state id stem).trans (foldl each _ _)
    · exact dropTokens state id stem

private theorem withdraw (depth : Nat) (stem : Tuple) (state : Matching) (id : NodeId) :
    Lessened state (withdraw network depth stem state id) := by
  induction depth generalizing state id with
  | zero => exact refl state
  | succ depth ih =>
      unfold Matching.withdraw
      split
      · exact refl state
      · exact .of_same rfl rfl rfl
      · refine trans (.of_same ?_ ?_ ?_) (retractOutputWith network ih stem _ id)
        · exact state.memory.alpha_dropBlocked id stem
        · exact state.memory.beta_dropBlocked id stem
        · exact state.memory.seeded_dropBlocked id stem

private theorem retractOutput (stem : Tuple) (state : Matching) (id : NodeId) :
    Lessened state (retractOutput network stem state id) :=
  retractOutputWith network (withdraw network network.depth stem) stem state id

private theorem block (join : NodeId) (token : Tuple) (fact : Handle) (state : Matching) :
    Lessened state (block network join token fact state) := by
  unfold Matching.block
  dsimp only
  split
  · refine trans ?_ (retractOutput network token _ join)
    exact .of_same rfl rfl rfl
  · exact .of_same rfl rfl rfl

end Lessened

namespace Shown

variable (shown : Shown network view state)

include shown

/-- Fewer tokens still have as many facts as their place says. -/
theorem lessened (less : Lessened state after) : Shown network view after where
  live {id handle} held := by
    rw [NetworkMemory.factsAt_congr less.alpha] at held
    exact shown.live held
  arity present := shown.arity (less.tokens present)

private theorem addToken {id : NodeId} {token : Tuple}
    (isArity : network.Arity (some id) token.length) :
    Shown network view { state with memory := state.memory.addToken id token } where
  live held := shown.live held
  arity {left tuple} present := by
    cases left with
    | none => exact @shown.arity none tuple present
    | some other =>
        change ((state.memory.addToken id token).tokensAt other).contains tuple = true at present
        rw [NetworkMemory.tokensAt_addToken] at present
        split at present
        · next same =>
            subst same
            rw [SortedSet.contains_add, Bool.or_eq_true, decide_eq_true_eq] at present
            rcases present with rfl | before
            · exact isArity
            · exact @shown.arity (some other) tuple before
        · exact @shown.arity (some other) tuple present

private theorem addFact (id : NodeId) {handle : Handle} (live : view.facts.contains handle = true) :
    Shown network view { state with memory := state.memory.addFact id handle } where
  live {other held} present := by
    rw [NetworkMemory.factsAt_addFact] at present
    split at present
    · rw [SortedSet.contains_add, Bool.or_eq_true, decide_eq_true_eq] at present
      rcases present with rfl | before
      · exact live
      · exact shown.live before
    · exact shown.live present
  arity present := shown.arity present

end Shown

/-- A step of propagation that only a test can end. -/
abbrev Tame {α : Type} (network : Network) (view : FactView) (operation : MatchM α) : Prop :=
  Safe (Shown network view) (RaisedInPlace network view) operation

/-! ## Tokens on their way down -/

private theorem allHold_error {functions : FunctionTable} {scope : MatchScope} {tests : List Expr}
    {error : Error} (failed : view.allHold functions scope tests = .error error) :
    ∃ test ∈ tests, view.holds functions scope test = .error error := by
  induction tests with
  | nil => cases failed
  | cons test rest ih =>
      replace failed : (do
        if ← view.holds functions scope test then view.allHold functions scope rest
        else return false) = .error error := failed
      cases here : view.holds functions scope test with
      | error other =>
          rw [here] at failed
          cases failed
          exact ⟨test, List.mem_cons_self, here⟩
      | ok holds =>
          rw [here] at failed
          cases holds with
          | true =>
              obtain ⟨other, member, isError⟩ := ih failed
              exact ⟨other, List.mem_cons_of_mem _ member, isError⟩
          | false => cases failed

namespace Tame

/-- Trying the tests of a node. -/
theorem allHold {id : NodeId} {kind : NodeKind} {own : FunctionTable}
    (live : network.kind? id = some kind) (isOwn : kind.table? = some own) {room : Room}
    (gives : network.Gives kind room) {scope : MatchScope} (meets : scope.Meets room) :
    Tame network view (MatchM.liftResult (view.allHold own scope kind.tests)) := by
  apply Safe.lift
  cases failed : view.allHold own scope kind.tests with
  | ok => exact trivial
  | error error =>
      obtain ⟨test, member, isError⟩ := allHold_error failed
      exact .test live isOwn member gives meets isError

/-- Trying the only test of a node. -/
theorem holds {id : NodeId} {kind : NodeKind} {own : FunctionTable} {test : Expr}
    (live : network.kind? id = some kind) (isOwn : kind.table? = some own)
    (member : test ∈ kind.tests) {room : Room} (gives : network.Gives kind room)
    {scope : MatchScope} (meets : scope.Meets room) :
    Tame network view (MatchM.liftResult (view.holds own scope test)) := by
  apply Safe.lift
  cases failed : view.holds own scope test with
  | ok => exact trivial
  | error error => exact .test live isOwn member gives meets failed

/-- Looking at a live fact. -/
theorem fact {handle : Handle} (live : view.facts.contains handle = true) :
    Tame network view (MatchM.liftResult (view.fact handle)) := by
  obtain ⟨object, isObject⟩ := SortedMap.contains_eq_true.mp live
  apply Safe.lift
  rw [FactView.fact_eq_ok.mpr isObject]
  exact trivial

/-- A token that fits its place is let through. -/
theorem emitWith {offer : Tuple → NodeId → MatchM Unit} {id : NodeId} {node : Node}
    (found : network.node? id = some node) {token : Tuple}
    (isArity : network.Arity (some id) token.length)
    (each : ∀ child ∈ node.children, Tame network view (offer token child)) :
    Tame network view (MatchM.emitWith network offer id token) := by
  unfold MatchM.emitWith
  apply Safe.get_bind
  intro state _
  dsimp only
  split
  · exact .pure _
  · simp only [found]
    apply Safe.bind
    · exact .modify fun _ shown => shown.addToken isArity
    · exact fun _ => .forM each

private theorem joinFacts {emit : Tuple → MatchM Unit} {id right : NodeId} {left : Option NodeId}
    {tests : List Expr} {negated : Bool} {own : FunctionTable}
    (live : network.kind? id = some (.join left right tests negated own)) {token : Tuple}
    (isArity : network.Arity left token.length) {facts : List Handle}
    (shown : ∀ handle ∈ facts, view.facts.contains handle = true)
    (emits : ∀ handle, Tame network view (emit (token ++ [handle]))) :
    Tame network view (MatchM.joinFacts view emit own tests token facts) := by
  unfold MatchM.joinFacts
  apply Safe.forM
  intro handle member
  apply Safe.bind (fact (shown handle member))
  intro object
  apply Safe.bind (allHold live rfl (.join isArity) ⟨Nat.le_refl _, fun _ => rfl⟩)
  intro joins
  cases joins with
  | true => exact emits handle
  | false => exact .pure _

private theorem matching {id right : NodeId} {left : Option NodeId} {tests : List Expr}
    {negated : Bool}
    {own : FunctionTable} (live : network.kind? id = some (.join left right tests negated own))
    {token : Tuple} (isArity : network.Arity left token.length) {facts : List Handle}
    (shown : ∀ handle ∈ facts, view.facts.contains handle = true) :
    Tame network view (MatchM.matching view own tests token facts) := by
  induction facts with
  | nil => exact .pure _
  | cons handle rest ih =>
      unfold MatchM.matching
      apply Safe.bind (fact (shown handle List.mem_cons_self))
      intro object
      apply Safe.bind (allHold live rfl (.join isArity) ⟨Nat.le_refl _, fun _ => rfl⟩)
      intro blocks
      apply Safe.bind (ih fun other member => shown other (List.mem_cons_of_mem _ member))
      exact fun others => .pure _

end Tame

/-- A token with a fact more fits behind a join. -/
theorem arity_concat {id right : NodeId} {left : Option NodeId} {tests : List Expr}
    {functions : FunctionTable}
    (live : network.kind? id = some (.join left right tests false functions)) {token : Tuple}
    (isArity : network.Arity left token.length) (handle : Handle) :
    network.Arity (some id) (token ++ [handle]).length := by
  rw [List.length_append]
  exact .join live isArity

section

variable (sound : network.Sound)

include sound

/-- Offering a token to a node. The walk goes no deeper than the network is. -/
theorem leftActivate_tame (depth : Nat) {id : NodeId} {kind : NodeKind} {left : Option NodeId}
    (live : network.kind? id = some kind) (isLeft : kind.left? = some left) {level : Nat}
    (own : network.Level id level) (enough : network.depth ≤ depth + level) {token : Tuple}
    (isArity : network.Arity left token.length) :
    Tame network view (MatchM.leftActivate network view depth token id) := by
  induction depth generalizing id kind left level token with
  | zero =>
      have bound := sound.accounted.level_lt_size own
      rw [Network.depth] at enough
      omega
  | succ depth ih =>
      obtain ⟨node, found, rfl⟩ := Network.kind?_eq_some.mp live
      have isKind : (network.node? id).map Node.kind = some node.kind := live
      have emits : node.kind.isBetaLevel = true → ∀ {token : Tuple},
          network.Arity (some id) token.length → Tame network view
            (MatchM.emitWith network (MatchM.leftActivate network view depth) id token) := by
        intro beta token isArity
        apply Tame.emitWith found isArity
        intro child member
        obtain ⟨childKind, childLive, childLeft⟩ :=
          (sound.wellFormed.mem_children_of_beta found beta).mp member
        exact ih childLive childLeft
          (.under childLive (NodeKind.above?_of_left? childLeft) own) (by omega) isArity
      have shownAt : ∀ state right, Shown network view state →
          ∀ handle ∈ (state.memory.factsAt right).keys, view.facts.contains handle = true :=
        fun state right shown handle member => shown.live (SortedMap.mem_keys.mp member)
      unfold MatchM.leftActivate
      simp only [isKind]
      cases kind : node.kind with
      | objectType | alpha =>
          rw [kind] at isLeft
          cases isLeft
      | join input right tests negated functions =>
          rw [kind] at live emits isLeft
          obtain rfl : input = left := Option.some.inj isLeft
          cases negated with
          | false =>
              apply Safe.get_bind
              intro state shown
              exact Tame.joinFacts live isArity (shownAt state right shown)
                fun handle => emits rfl (arity_concat live isArity handle)
          | true =>
              apply Safe.get_bind
              intro state shown
              apply Safe.bind (Tame.matching live isArity (shownAt state right shown))
              intro blocking
              cases blocking.isEmpty with
              | true => exact emits rfl (.join live isArity)
              | false => exact .modify fun _ shown => shown.lessened (.of_same rfl rfl rfl)
      | eval input test functions =>
          rw [kind] at live emits isLeft
          obtain rfl : input = left := Option.some.inj isLeft
          apply Safe.bind (Tame.holds live rfl (List.mem_singleton_self test) (.eval isArity)
            ⟨Nat.le_refl _, fun current => absurd current Bool.false_ne_true⟩)
          intro isTrue
          cases isTrue with
          | true => exact emits rfl (.eval live isArity)
          | false => exact .pure _
      | terminal input terminal =>
          exact .modify fun _ shown => shown.lessened (.of_same rfl rfl rfl)

/-- Letting a token through a node behind the alpha level. -/
theorem emit_tame {id : NodeId} {kind : NodeKind} (live : network.kind? id = some kind)
    (beta : kind.isBetaLevel = true) {token : Tuple}
    (isArity : network.Arity (some id) token.length) :
    Tame network view (MatchM.emit network view id token) := by
  obtain ⟨node, found, rfl⟩ := Network.kind?_eq_some.mp live
  unfold MatchM.emit
  apply Tame.emitWith found isArity
  intro child member
  obtain ⟨childKind, childLive, childLeft⟩ :=
    (sound.wellFormed.mem_children_of_beta found beta).mp member
  obtain ⟨level, own⟩ := sound.accounted.exists_level childLive
  exact leftActivate_tame sound _ childLive childLeft own (Nat.le_add_right ..) isArity

/-! ## Facts on the right -/

private theorem rightActivateJoin_tame (handle : Handle) (fact : Object) (id : NodeId) :
    Tame network view (MatchM.rightActivateJoin network view handle fact id) := by
  unfold MatchM.rightActivateJoin
  split
  · next left right tests negated functions isKind =>
      have live : network.kind? id = some (.join left right tests negated functions) := isKind
      apply Safe.get_bind
      intro state shown
      apply Safe.forM
      intro token member
      have isArity := shown.arity (SortedMap.mem_keys.mp member)
      apply Safe.bind (Tame.allHold live rfl (.join isArity) ⟨Nat.le_refl _, fun _ => rfl⟩)
      intro joins
      cases joins with
      | false => exact .pure _
      | true =>
          cases negated with
          | true =>
              apply Safe.modify
              exact fun state shown => shown.lessened (.block network id token handle state)
          | false => exact emit_tame sound live rfl (arity_concat live isArity handle)
  · exact .pure _

private theorem rightActivate_tame (handle : Handle) (fact : Object) (id : NodeId) :
    Tame network view (MatchM.rightActivate network view handle fact id) := by
  unfold MatchM.rightActivate
  cases found : network.node? id with
  | none => exact .pure _
  | some node => exact .forM fun join _ => rightActivateJoin_tame sound handle fact join

omit sound in
private theorem rightRetract_tame (handle : Handle) (id : NodeId) :
    Tame network view (MatchM.rightRetract network handle id) := by
  unfold MatchM.rightRetract
  cases found : network.node? id with
  | none => exact .pure _
  | some node =>
      refine Safe.bind (.mapM fun join _ => ?_) fun freed => .pure _
      unfold MatchM.rightRetractJoin
      split
      · apply Safe.get_bind
        intro state _
        cases state.memory.blockers.find? join with
        | none => exact .pure _
        | some blocked =>
            exact Safe.bind (.modify fun _ shown => shown.lessened (.of_same rfl rfl rfl))
              fun _ => .pure _
      · apply Safe.get_bind
        intro state _
        refine Safe.bind (.modify fun state shown => shown.lessened ?_) fun _ => .pure _
        exact .foldl (fun state token => .retractOutput network token state join) _ state
      · exact .pure _

omit sound in
/-- What a fact that is taken back has held back was held back at negated joins. -/
theorem rightRetract_negates {handle : Handle} {id : NodeId} {freed : List (NodeId × Tuple)}
    (run : Ends (MatchM.rightRetract network handle id) state (.ok freed) after) :
    ∀ place ∈ freed, Negates network place.1 := by
  unfold MatchM.rightRetract at run
  cases found : network.node? id with
  | none =>
      rw [found] at run
      obtain ⟨same, -⟩ := (ends_pure _).mp run
      cases same
      exact nofun
  | some node =>
      simp only [found] at run
      rcases ends_bind.mp run with ⟨groups, between, walk, last⟩ | ⟨error, -, failed⟩
      · obtain ⟨same, -⟩ := (ends_pure _).mp last
        cases same
        have each : ∀ group ∈ groups, ∀ place ∈ group, Negates network place.1 := by
          refine walk.mapM_all fun {join before group after} step => ?_
          unfold MatchM.rightRetractJoin at step
          split at step
          · next left right tests functions isKind =>
              rw [ends_get_bind] at step
              cases stored : before.memory.blockers.find? join with
              | none =>
                  simp only [stored] at step
                  obtain ⟨same, -⟩ := (ends_pure _).mp step
                  cases same
                  exact nofun
              | some blocked =>
                  simp only [stored, MatchM.change, ends_modify_bind] at step
                  obtain ⟨same, -⟩ := (ends_pure _).mp step
                  cases same
                  intro place member
                  obtain ⟨token, -, rfl⟩ := List.mem_map.mp member
                  exact ⟨_, _, _, _, isKind⟩
          · rw [ends_get_bind] at step
            simp only [MatchM.change, ends_modify_bind] at step
            obtain ⟨same, -⟩ := (ends_pure _).mp step
            cases same
            exact nofun
          · obtain ⟨same, -⟩ := (ends_pure _).mp step
            cases same
            exact nofun
        intro place member
        obtain ⟨group, inside, here⟩ := List.mem_flatten.mp member
        exact each group inside place here
      · cases failed

private theorem unblock_tame {id : NodeId} (negates : Negates network id) (token : Tuple) :
    Tame network view (MatchM.unblock network view id token) := by
  obtain ⟨left, right, tests, functions, live⟩ := negates
  have isKind : (network.node? id).map Node.kind = some (.join left right tests true functions) :=
    live
  unfold MatchM.unblock
  simp only [isKind]
  apply Safe.get_bind
  intro state shown
  split
  · next offered =>
      exact emit_tame sound live rfl (.join live (shown.arity (Bool.and_eq_true_iff.mp offered).1))
  · exact .pure _

/-! ## Whole propagations -/

private theorem alphaPass_tame {handle : Handle} (here : view.facts.contains handle = true)
    (fact : Object)
    (depth : Nat) {id : NodeId} {kind : NodeKind} (live : network.kind? id = some kind)
    (alpha : kind.isAlphaLevel = true) {level : Nat} (own : network.Level id level)
    (enough : network.depth ≤ depth + level) :
    Tame network view (MatchM.alphaPass network view handle fact depth id) := by
  induction depth generalizing id kind level with
  | zero =>
      have bound := sound.accounted.level_lt_size own
      rw [Network.depth] at enough
      omega
  | succ depth ih =>
      obtain ⟨node, found, rfl⟩ := Network.kind?_eq_some.mp live
      have below : Tame network view (do
          MatchM.change fun state => { state with memory := state.memory.addFact id handle }
          let below ← node.children.mapM (MatchM.alphaPass network view handle fact depth)
          return id :: below.flatten) := by
        refine Safe.bind (.modify fun state shown => shown.addFact id here) fun _ =>
          Safe.bind (.mapM fun child member => ?_) fun _ => .pure _
        obtain ⟨test, functions, childLive⟩ :=
          (sound.wellFormed.mem_children_of_alpha found alpha).mp member
        exact ih childLive rfl (.under childLive rfl own) (by omega)
      unfold MatchM.alphaPass
      simp only [found]
      cases kind : node.kind with
      | alpha parent test functions =>
          rw [kind] at live
          apply Safe.bind (Tame.holds live rfl (List.mem_singleton_self test) .alpha
            ⟨Nat.zero_le _, fun _ => rfl⟩)
          intro passes
          cases passes with
          | false => exact .pure _
          | true => exact below
      | objectType | join | eval | terminal => exact below

/-- Taking a fact out of the alpha level leaves what is kept behind it. -/
theorem alphaHolders_tame (handle : Handle) {id : NodeId} {kind : NodeKind}
    (live : network.kind? id = some kind) (alpha : kind.isAlphaLevel = true)
    (top : network.Level id 0) :
    Tame network view (MatchM.alphaHolders network handle network.depth id) where
  safe run shown := by
    obtain ⟨nodes, rfl, removes⟩ := alphaHolders_removes sound _ top
      (Nat.le_add_right ..) live alpha
      run
    refine ⟨⟨fun {id held} present => ?_, fun {left tuple} present => ?_⟩, trivial⟩
    · exact shown.live ((removes.removed.facts id held).mp present).1
    · apply shown.arity
      unfold NetworkMemory.leftTokens NetworkMemory.tokensAt at present ⊢
      rw [removes.removed.beta, removes.removed.seeded] at present
      exact present

/-- A fact that comes in is followed to the end, unless a test fails. -/
theorem assert_raised (shown : Shown network view state) {handle : Handle}
    (here : view.facts.contains handle = true) {result : Except Error Unit}
    (run : Ends (MatchM.assert network view handle) state result after) :
    Outcome result (fun _ => True) (RaisedInPlace network view) := by
  have tame : Tame network view (MatchM.assert network view handle) := by
    unfold MatchM.assert
    apply Safe.bind (Tame.fact here)
    intro fact
    cases entry : network.objectType? fact.typeName with
    | none => exact .pure _
    | some top =>
        have isTop := sound.wellFormed.objectType.mp entry
        apply Safe.bind
        · exact alphaPass_tame sound here fact _ isTop rfl (.top isTop rfl) (Nat.le_add_right ..)
        · exact fun passed => .forM fun id _ => rightActivate_tame sound handle fact id
  exact (tame.safe run shown).2

/-- A fact is taken back to the end, unless a test fails. -/
theorem retract_raised (shown : Shown network view state) {handle : Handle}
    (here : view.facts.contains handle = true) {result : Except Error Unit}
    (run : Ends (MatchM.retract network view handle) state result after) :
    Outcome result (fun _ => True) (RaisedInPlace network view) := by
  have tame : Tame network view (MatchM.retract network view handle) := by
    unfold MatchM.retract
    apply Safe.bind (Tame.fact here)
    intro fact
    cases entry : network.objectType? fact.typeName with
    | none => exact .pure _
    | some top =>
        have isTop := sound.wellFormed.objectType.mp entry
        apply Safe.bind (alphaHolders_tame sound handle isTop rfl (.top isTop rfl))
        intro holders
        apply Safe.bind_value (.mapM fun id _ => rightRetract_tame handle id)
        · exact fun walk _ => walk.mapM_all rightRetract_negates
        · intro freed negates
          apply Safe.forM
          intro place member
          obtain ⟨group, inside, here⟩ := List.mem_flatten.mp member
          exact unblock_tame sound (negates group inside place here) place.2
  exact (tame.safe run shown).2

/-- The root passes on its token to the end, unless a test fails. -/
theorem seed_raised (shown : Shown network view state) {result : Except Error Unit}
    (run : Ends (MatchM.seed network view) state result after) :
    Outcome result (fun _ => True) (RaisedInPlace network view) := by
  have tame : Tame network view (MatchM.seed network view) := by
    unfold MatchM.seed
    apply Safe.get_bind
    intro before _
    dsimp only
    split
    · exact .pure _
    · apply Safe.bind
      · refine .modify fun state shown => ⟨shown.live, fun {left tuple} present => ?_⟩
        cases left with
        | none =>
            obtain rfl : tuple = [] := by
              simpa [NetworkMemory.leftTokens] using present
            exact .root
        | some id => exact @shown.arity (some id) tuple present
      · intro _
        apply Safe.forM
        intro child member
        obtain ⟨kind, live, isLeft⟩ := sound.wellFormed.mem_rootChildren.mp member
        obtain ⟨level, own⟩ := sound.accounted.exists_level live
        exact leftActivate_tame sound _ live isLeft own (Nat.le_add_right ..) .root
  exact (tame.safe run shown).2

end

end Rete.Matching
