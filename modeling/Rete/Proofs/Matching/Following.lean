import Rete.Proofs.Matching.AlphaLevel
import Rete.Proofs.Matching.RightRetraction

/-!
# How the memories follow the facts

Whatever happens to the facts and whether or not a condition fails, the memories stay intact
(`Intact`): they are coherent, and what the alpha level holds is live. If no condition fails, they
are exact as well (`Exact`): every node holds what its tests say of the facts that came in.
-/

namespace Rete.Matching

variable {network : Network} {base : Agenda} {view : FactView} {right : NodeId → Handle → Prop}
  {facts : Facts} {state mid after : Matching}

/-- The facts on the right of a join are those that its right input holds. -/
def OnRight (network : Network) (memory : NetworkMemory) (id : NodeId) (fact : Handle) : Prop :=
  ∃ input, (network.kind? id).bind NodeKind.right? = some input ∧
    (memory.factsAt input).contains fact = true

/-- The facts on the right are read off the memories. -/
theorem reads_onRight (memory : NetworkMemory) : Reads network (OnRight network memory) memory := by
  intro id kind input live isRight fact
  have isInput : (network.kind? id).bind NodeKind.right? = some input := by rw [live]; exact isRight
  unfold OnRight
  simp only [isInput, Option.some.injEq, exists_eq_left']

/-- The facts on the right depend on what the nodes hold only. -/
theorem onRight_of_factsAt {memory other : NetworkMemory} (same : other.factsAt = memory.factsAt) :
    OnRight network other = OnRight network memory := by
  unfold OnRight
  rw [same]

/-- The facts on the right depend on the alpha level only. -/
theorem onRight_congr {memory other : NetworkMemory} (same : other.alpha = memory.alpha) :
    OnRight network other = OnRight network memory :=
  onRight_of_factsAt (NetworkMemory.factsAt_congr same)

/-- Everything that is kept came of what is offered, and only live facts are held. -/
structure Intact (network : Network) (base : Agenda) (facts : Facts) (state : Matching) : Prop where
  coherent : Coherent network base (OnRight network state.memory) state
  layered : Layered network facts state.memory

/-- The facts of a token are held on the alpha level. -/
theorem Coherent.holds {memory : NetworkMemory}
    (coherent : Coherent network base (OnRight network memory) state) {left : Option NodeId}
    {arity : Nat} (isArity : network.Arity left arity) {tuple : Tuple}
    (offered : Offered network base state left tuple) {handle : Handle} (within : handle ∈ tuple) :
    ∃ id, (memory.factsAt id).contains handle = true := by
  induction isArity generalizing tuple with
  | root =>
      rw [offered.2] at within
      exact absurd within List.not_mem_nil
  | @join id input left tests negated functions arity live before ih =>
      have supports := coherent.supports live offered
      cases negated with
      | true => exact ih supports within
      | false =>
          obtain ⟨origin, fact, rfl, origins, other, -, held⟩ := supports
          rcases List.mem_append.mp within with earlier | last
          · exact ih origins earlier
          · exact ⟨other, List.mem_singleton.mp last ▸ held⟩
  | eval live before ih => exact ih (coherent.supports live offered) within

/-- What a node of the alpha level has to hold. -/
def Admitted (view : FactView) (facts : Facts) (memory : NetworkMemory) (handle : Handle) :
    NodeKind → Prop
  | .objectType typeName => ∃ fact, facts.find? handle = some fact ∧ fact.typeName = typeName
  | .alpha parent test functions => (memory.factsAt parent).contains handle = true ∧
      ∃ fact, view.facts.find? handle = some fact ∧
        view.holds functions { current := fact } test = .ok true
  | .join .. | .eval .. | .terminal .. => False

/-- Every node keeps what its tests say of facts. -/
structure Exact (network : Network) (base : Agenda) (view : FactView) (facts : Facts)
    (state : Matching) : Prop where
  seeded : state.memory.seeded = true
  held : ∀ {id kind}, network.kind? id = some kind → ∀ handle,
    (state.memory.factsAt id).contains handle = true ↔
      Admitted view facts state.memory handle kind
  settled : ∀ {id kind left tuple}, network.kind? id = some kind → kind.left? = some left →
    Offered network base state left tuple →
    Settled network base view (OnRight network state.memory) state id tuple kind

/-! ## Memories that differ on the alpha level -/

/-- Being layered depends on what the nodes hold only. -/
theorem Layered.of_factsAt {memory other : NetworkMemory} (layered : Layered network facts memory)
    (same : ∀ id, other.factsAt id = memory.factsAt id) : Layered network facts other := by
  refine ⟨fun {id handle} here => ?_⟩
  rw [same] at here
  obtain ⟨kind, live, fitting⟩ := layered.fitting here
  refine ⟨kind, live, ?_⟩
  cases kind with
  | alpha parent test functions =>
      change (other.factsAt parent).contains handle = true
      rw [same]
      exact fitting
  | objectType | join | eval | terminal => exact fitting

/-- Being layered depends on the alpha level only. -/
theorem Layered.of_alpha {memory other : NetworkMemory} (layered : Layered network facts memory)
    (same : other.alpha = memory.alpha) : Layered network facts other :=
  layered.of_factsAt fun id => congrFun (NetworkMemory.factsAt_congr same) id

/-- What a node of the alpha level has to hold is read off the alpha level. -/
theorem admitted_congr {memory other : NetworkMemory} (same : other.factsAt = memory.factsAt)
    {id : NodeId} {kind : NodeKind} {handle : Handle}
    (held : (memory.factsAt id).contains handle = true ↔ Admitted view facts memory handle kind) :
    (other.factsAt id).contains handle = true ↔ Admitted view facts other handle kind := by
  rw [same, held]
  cases kind with
  | alpha parent test functions =>
      change (memory.factsAt parent).contains handle = true ∧ _ ↔
        (other.factsAt parent).contains handle = true ∧ _
      rw [same]
  | objectType | join | eval | terminal => exact Iff.rfl

/-- Exact memories hold only facts that came in. -/
theorem Exact.layered (exact : Exact network base view facts state) {others : Facts}
    (layered : Layered network others state.memory) : Layered network facts state.memory := by
  refine ⟨fun {id handle} here => ?_⟩
  obtain ⟨kind, live, -⟩ := layered.fitting here
  refine ⟨kind, live, ?_⟩
  have admitted := (exact.held live handle).mp here
  cases kind with
  | objectType => exact admitted
  | alpha => exact admitted.1
  | join | eval | terminal => exact admitted.elim

/-- Changes behind the alpha level leave the memories intact if they leave them coherent. -/
theorem Keeps.intact (keeps : Keeps network base (OnRight network state.memory) state after)
    (layered : Layered network facts state.memory) : Intact network base facts after where
  coherent := by
    rw [onRight_congr keeps.alpha]
    exact keeps.coherent
  layered := layered.of_alpha keeps.alpha

/-- Exact memories, where one fact more or less makes no difference since no node is there for its
type. -/
theorem Exact.of_noEntry {others : Facts} (exact : Exact network base view facts state)
    (handle : Handle) (same : ∀ {other}, other ≠ handle → others.find? other = facts.find? other)
    (noEntry : ∀ {id typeName fact}, network.kind? id = some (.objectType typeName) →
      fact.typeName = typeName → others.find? handle ≠ some fact ∧ facts.find? handle ≠ some fact) :
    Exact network base view others state where
  seeded := exact.seeded
  held {id kind} live other := by
    rw [exact.held live]
    cases kind with
    | objectType typeName =>
        by_cases here : other = handle
        · subst here
          refine iff_of_false ?_ ?_
          · rintro ⟨fact, isFact, isType⟩
            exact (noEntry live isType).2 isFact
          · rintro ⟨fact, isFact, isType⟩
            exact (noEntry live isType).1 isFact
        · change (∃ fact, facts.find? other = some fact ∧ _) ↔
            ∃ fact, others.find? other = some fact ∧ _
          rw [same here]
    | alpha | join | eval | terminal => exact Iff.rfl
  settled := exact.settled

/-! ## A fact that comes in -/

private theorem AddedTo.onRight {handle : Handle} {nodes : NodeId → Prop}
    (added : AddedTo state handle nodes after) (id : NodeId) (fact : Handle) :
    OnRight network after.memory id fact ↔ OnRight network state.memory id fact ∨
      (fact = handle ∧ ∃ input, (network.kind? id).bind NodeKind.right? = some input ∧
        nodes input) := by
  constructor
  · rintro ⟨input, isRight, here⟩
    rcases (added.facts input fact).mp here with before | ⟨same, within⟩
    · exact .inl ⟨input, isRight, before⟩
    · exact .inr ⟨same, input, isRight, within⟩
  · rintro (⟨input, isRight, here⟩ | ⟨same, input, isRight, within⟩)
    · exact ⟨input, isRight, (added.facts input fact).mpr (.inl here)⟩
    · exact ⟨input, isRight, (added.facts input fact).mpr (.inr ⟨same, within⟩)⟩

/-- What a fact that was sent down the alpha level leaves behind. -/
theorem AddedTo.intact {handle : Handle} {nodes : NodeId → Prop}
    (added : AddedTo state handle nodes after) (intact : Intact network base view.facts state)
    {fact : Object} (isFact : view.facts.find? handle = some fact) {top : NodeId}
    (isTop : network.kind? top = some (.objectType fact.typeName))
    (sifted : Sifted network view fact (· = top) nodes) :
    Intact network base view.facts after where
  coherent := by
    refine intact.coherent.mono added.seeded ?_ (added.cell base) fun {id other} here =>
      (added.onRight id other).mpr (.inl here)
    unfold agenda
    rw [added.changes]
  layered := intact.layered.addedTo isFact isTop added sifted

/-- Where a fact was sent down, a place is settled, or is so without the fact. -/
theorem AddedTo.settledBut {handle : Handle} {nodes : NodeId → Prop}
    (added : AddedTo state handle nodes after) (exact : Exact network base view facts state)
    (absent : ∀ id, (state.memory.factsAt id).contains handle = false) :
    SettledBut network base view (OnRight network after.memory) handle after
      (fun id _ => OnRight network after.memory id handle) := by
  have notBefore : ∀ id, ¬ OnRight network state.memory id handle := by
    rintro id ⟨input, -, here⟩
    exact Bool.false_ne_true ((absent input).symm.trans here)
  refine ⟨fun {id kind left tuple} live isLeft offered => ?_⟩
  have settled : Settled network base view (OnRight network state.memory) after id tuple kind :=
    (exact.settled live isLeft (offered.congr added.seeded.symm
      fun other longer => (added.cell base other longer).symm)).congr
      fun longer _ => added.cell base id longer
  by_cases stands : OnRight network after.memory id handle
  · refine .inr ⟨stands, settled.of_right fun fact => ?_⟩
    constructor
    · rintro ⟨here, different⟩
      exact ((added.onRight id fact).mp here).resolve_right fun new => different new.1
    · intro before
      refine ⟨(added.onRight id fact).mpr (.inl before), ?_⟩
      rintro rfl
      exact notBefore id before
  · refine .inl (settled.of_right fun fact => ?_)
    constructor
    · intro here
      refine ((added.onRight id fact).mp here).resolve_right fun new => ?_
      exact stands (new.1 ▸ here)
    · exact fun before => (added.onRight id fact).mpr (.inl before)

section

variable (sound : network.Sound)

include sound

omit sound in
/-- A fact that was sent down makes no difference for which others a node has to hold. -/
theorem AddedTo.admitted_iff_of_ne {handle other : Handle} {nodes : NodeId → Prop}
    (added : AddedTo state handle nodes after) (different : other ≠ handle) (kind : NodeKind) :
    Admitted view (view.facts.erase handle) state.memory other kind ↔
      Admitted view view.facts after.memory other kind := by
  cases kind with
  | objectType typeName =>
      change (∃ fact, (view.facts.erase handle).find? other = some fact ∧ _) ↔
        ∃ fact, view.facts.find? other = some fact ∧ _
      rw [SortedMap.find?_erase_eq, if_neg different]
  | alpha parent test functions =>
      refine and_congr_left fun _ => ?_
      rw [added.facts, or_iff_left fun new => different new.1]
  | join | eval | terminal => exact Iff.rfl

/-- If no test failed, the nodes that a fact has passed are those that have to hold it. -/
theorem AddedTo.passed_iff {handle : Handle} {nodes : NodeId → Prop}
    (added : AddedTo state handle nodes after)
    (absent : ∀ id, (state.memory.factsAt id).contains handle = false)
    {fact : Object} (isFact : view.facts.find? handle = some fact) {top : NodeId}
    (isTop : network.kind? top = some (.objectType fact.typeName))
    (sifted : Sifted network view fact (· = top) nodes)
    (complete : Complete network view fact (· = top) nodes) {id : NodeId} {kind : NodeKind}
    (live : network.kind? id = some kind) :
    nodes id ↔ Admitted view view.facts after.memory handle kind := by
  have nodeOf : nodes id → (id = top ∨ ∃ parent test functions,
      kind = .alpha parent test functions ∧ nodes parent) := by
    intro within
    refine (sifted id within).2.imp_right ?_
    rintro ⟨parent, test, functions, alphaLive, inside⟩
    exact ⟨parent, test, functions, Option.some.inj (live.symm.trans alphaLive), inside⟩
  cases kind with
  | objectType typeName =>
      constructor
      · intro within
        rcases nodeOf within with rfl | ⟨parent, test, functions, same, -⟩
        · cases isTop.symm.trans live
          exact ⟨fact, isFact, rfl⟩
        · cases same
      · rintro ⟨object, isObject, rfl⟩
        cases isFact.symm.trans isObject
        have same : top = id := Option.some.inj
          ((sound.wellFormed.objectType.mpr isTop).symm.trans
            (sound.wellFormed.objectType.mpr live))
        refine complete.start same.symm fun {parent test functions} alphaLive => ?_
        cases live.symm.trans alphaLive
  | alpha parent test functions =>
      constructor
      · intro within
        rcases nodeOf within with rfl | ⟨parent', test', functions', same, inside⟩
        · cases isTop.symm.trans live
        · cases same
          exact ⟨(added.facts parent handle).mpr (.inr ⟨rfl, inside⟩), fact, isFact,
            (sifted id within).1 live⟩
      · rintro ⟨above, object, isObject, holds⟩
        cases isFact.symm.trans isObject
        have inside : nodes parent := (((added.facts parent handle).mp above).resolve_left
          (Bool.eq_false_iff.mp (absent parent))).2
        refine complete.below inside live fun {parent' test' functions'} alphaLive => ?_
        cases live.symm.trans alphaLive
        exact holds
  | join | eval | terminal =>
      refine iff_of_false (fun within => ?_) (fun none => none)
      rcases nodeOf within with rfl | ⟨parent, test, functions, same, -⟩
      · cases isTop.symm.trans live
      · cases same

/-- The alpha level is exact for a fact that was sent down, if no test failed. -/
theorem AddedTo.held {handle : Handle} {nodes : NodeId → Prop}
    (added : AddedTo state handle nodes after)
    (before : ∀ {id kind}, network.kind? id = some kind → ∀ other,
      (state.memory.factsAt id).contains other = true ↔
        Admitted view (view.facts.erase handle) state.memory other kind)
    (absent : ∀ id, (state.memory.factsAt id).contains handle = false)
    {fact : Object} (isFact : view.facts.find? handle = some fact) {top : NodeId}
    (isTop : network.kind? top = some (.objectType fact.typeName))
    (sifted : Sifted network view fact (· = top) nodes)
    (complete : Complete network view fact (· = top) nodes) {id : NodeId} {kind : NodeKind}
    (live : network.kind? id = some kind) (other : Handle) :
    (after.memory.factsAt id).contains other = true ↔
      Admitted view view.facts after.memory other kind := by
  rw [added.facts]
  by_cases here : other = handle
  · subst here
    rw [absent, or_iff_right Bool.false_ne_true, and_iff_right rfl]
    exact added.passed_iff sound absent isFact isTop sifted complete live
  · rw [or_iff_left fun new => here new.1, before live]
    exact added.admitted_iff_of_ne here kind

/-- Everything that following a fact that comes in can do. -/
inductive Enters (network : Network) (view : FactView) (handle : Handle) (state : Matching) :
    Except Error Unit → Matching → Prop
  | missing {error : Error} (absent : view.facts.contains handle = false) :
      Enters network view handle state (.error error) state
  /-- No node is there for the type of the fact. -/
  | unseen {fact : Object} (isFact : view.facts.find? handle = some fact)
      (noEntry : network.objectType? fact.typeName = none) :
      Enters network view handle state (.ok ()) state
  /-- A test of the alpha level has failed. -/
  | stopped {fact : Object} {top : NodeId} {nodes : NodeId → Prop} {error : Error}
      {after : Matching} (isFact : view.facts.find? handle = some fact)
      (isTop : network.kind? top = some (.objectType fact.typeName))
      (passes : Passes network view handle fact (· = top) state (.error error) nodes after)
      (entered : (after.memory.factsAt top).contains handle = true) :
      Enters network view handle state (.error error) after
  /-- The fact was offered to the joins behind the nodes that it passed. -/
  | sent {fact : Object} {top : NodeId} {nodes : NodeId → Prop} {passed : List NodeId}
      {between after : Matching} {result : Except Error Unit}
      (isFact : view.facts.find? handle = some fact)
      (isTop : network.kind? top = some (.objectType fact.typeName))
      (passes : Passes network view handle fact (· = top) state (.ok passed) nodes between)
      (entered : (between.memory.factsAt top).contains handle = true)
      (run : Ends (passed.forM (MatchM.rightActivate network view handle fact)) between result
        after) : Enters network view handle state result after

/-- A fact that is asserted enters the memories, as far as no condition fails. -/
theorem enters_of_assert {handle : Handle} {result : Except Error Unit}
    (run : Ends (MatchM.assert network view handle) state result after) :
    Enters network view handle state result after := by
  unfold MatchM.assert at run
  rcases ends_lift_bind.mp run with ⟨fact, found, run⟩ | ⟨error, missing, rfl, rfl⟩
  swap
  · exact .missing (FactView.fact_eq_error missing)
  have isFact := FactView.fact_eq_ok.mp found
  cases entry : network.objectType? fact.typeName with
  | none =>
      simp only [entry] at run
      obtain ⟨rfl, rfl⟩ := (ends_pure _).mp run
      exact .unseen isFact entry
  | some top =>
      simp only [entry] at run
      have isTop := sound.wellFormed.objectType.mp entry
      obtain ⟨depth, isDepth⟩ := Nat.exists_eq_succ_of_ne_zero
        (Nat.ne_zero_of_lt (sound.accounted.level_lt_size (.top isTop rfl)))
      have enters : ∀ {walked : Except Error (List NodeId)} {between : Matching},
          Ends (MatchM.alphaPass network view handle fact network.depth top) state walked between →
          (between.memory.factsAt top).contains handle = true := by
        intro walked between walk
        rw [Network.depth, isDepth] at walk
        exact alphaPass_enters sound.wellFormed isTop walk
      rcases ends_bind.mp run with ⟨passed, between, walk, last⟩ | ⟨error, walk, rfl⟩
      · obtain ⟨nodes, passes⟩ := alphaPass_passes sound.wellFormed _ isTop rfl walk
        exact .sent isFact isTop passes (enters walk) last
      · obtain ⟨nodes, passes⟩ := alphaPass_passes sound.wellFormed _ isTop rfl walk
        exact .stopped isFact isTop passes (enters walk)

omit sound in
/-- The nodes that a fact has passed hold it. -/
theorem Passes.holds {handle : Handle} {fact : Object} {starts nodes : NodeId → Prop}
    {passed : List NodeId}
    (passes : Passes network view handle fact starts state (.ok passed) nodes after) :
    ∀ id ∈ passed, (after.memory.factsAt id).contains handle = true := by
  intro id member
  exact (passes.added.facts id handle).mpr (.inr ⟨rfl, ((passes.ok rfl).1 id).mpr member⟩)

/-- Whether or not a condition fails, the memories are intact after a fact has come in; if none
fails, they are exact with the fact when they were exact without it. -/
theorem assert_follows (intact : Intact network base view.facts state) {handle : Handle}
    {result : Except Error Unit}
    (run : Ends (MatchM.assert network view handle) state result after) :
    Intact network base view.facts after ∧
      (result = .ok () → Exact network base view (view.facts.erase handle) state →
        Exact network base view view.facts after) := by
  cases enters_of_assert sound run with
  | missing => exact ⟨intact, nofun⟩
  | unseen isFact noEntry =>
      refine ⟨intact, fun _ exact => exact.of_noEntry handle (fun {other} different => ?_)
        fun {id typeName object} live isType => ⟨fun isObject => ?_, fun isObject => ?_⟩⟩
      · rw [SortedMap.find?_erase_eq, if_neg different]
      · cases isFact.symm.trans isObject
        cases noEntry.symm.trans (isType ▸ sound.wellFormed.objectType.mpr live)
      · rw [SortedMap.find?_erase_eq, if_pos rfl] at isObject
        cases isObject
  | stopped isFact isTop passes =>
      exact ⟨passes.added.intact intact isFact isTop passes.sifted, nofun⟩
  | @sent fact top nodes passed between _ _ isFact isTop passes entered last =>
      obtain ⟨isPassed, complete⟩ := passes.ok rfl
      have added := passes.added
      have sent := added.intact intact isFact isTop passes.sifted
      obtain ⟨keeps, settles⟩ := rightActivate_forM_keeps sound sent.coherent
        (reads_onRight between.memory) isFact passes.holds last
      refine ⟨keeps.intact sent.layered, fun done exact => ?_⟩
      have absent : ∀ id, (state.memory.factsAt id).contains handle = false := by
        refine fun id => Bool.eq_false_iff.mpr fun here => ?_
        have live := (exact.layered intact.layered).live sound.accounted here
        simp only [SortedMap.contains_erase, decide_true, Bool.not_true, Bool.false_and,
          Bool.false_eq_true] at live
      have settledBut := settles done (fun {id kind input} live isRight stands => ?reached)
        (added.settledBut exact absent)
      case reached =>
        obtain ⟨other, isOther, here⟩ := stands
        rw [live] at isOther
        cases isRight.symm.trans isOther
        rcases (added.facts input handle).mp here with before | ⟨-, within⟩
        · exact absurd before (Bool.eq_false_iff.mp (absent input))
        · exact (isPassed input).mp within
      refine ⟨keeps.seeded.trans (added.seeded.trans exact.seeded), fun {id kind} live other => ?_,
        fun {id kind left tuple} live isLeft offered => ?_⟩
      · exact admitted_congr (NetworkMemory.factsAt_congr keeps.alpha)
          (added.held sound exact.held absent isFact isTop passes.sifted complete live other)
      · rw [onRight_congr keeps.alpha]
        exact (settledBut.place live isLeft offered).resolve_right fun partly => partly.1

/-! ## A fact that is taken back -/

omit sound in
private theorem RemovedFrom.onRight {handle : Handle} {nodes : List NodeId}
    (removed : RemovedFrom state handle nodes after) :
    Less (OnRight network state.memory)
      (fun other => ∃ id ∈ nodes, (network.kind? other).bind NodeKind.right? = some id) handle =
        OnRight network after.memory := by
  refine funext fun id => funext fun fact => propext ⟨?_, ?_⟩
  · rintro ⟨⟨input, isRight, here⟩, kept⟩
    refine ⟨input, isRight, (removed.facts input fact).mpr ⟨here, ?_⟩⟩
    rintro ⟨same, member⟩
    exact kept ⟨⟨input, member, isRight⟩, same⟩
  · rintro ⟨input, isRight, here⟩
    obtain ⟨before, kept⟩ := (removed.facts input fact).mp here
    refine ⟨⟨input, isRight, before⟩, ?_⟩
    rintro ⟨⟨other, member, isOther⟩, same⟩
    exact kept ⟨same, Option.some.inj (isRight.symm.trans isOther) ▸ member⟩

omit sound in
/-- The alpha level is exact without a fact that is held nowhere any more. -/
theorem RemovedFrom.holds {handle : Handle} {nodes : List NodeId}
    (removed : RemovedFrom state handle nodes after)
    (nowhere : ∀ id, (after.memory.factsAt id).contains handle = false)
    (exact : Exact network base view view.facts state) {id : NodeId} {kind : NodeKind}
    (live : network.kind? id = some kind) (other : Handle) :
    (after.memory.factsAt id).contains other = true ↔
      Admitted view (view.facts.erase handle) after.memory other kind := by
  by_cases here : other = handle
  · subst here
    refine iff_of_false (Bool.eq_false_iff.mp (nowhere id)) fun admitted => ?_
    cases kind with
    | objectType typeName =>
        obtain ⟨fact, isFact, -⟩ := admitted
        rw [SortedMap.find?_erase_eq, if_pos rfl] at isFact
        cases isFact
    | alpha parent test functions =>
        exact Bool.false_ne_true ((nowhere parent).symm.trans admitted.1)
    | join | eval | terminal => exact admitted
  · have stays : ∀ node, (after.memory.factsAt node).contains other = true ↔
        (state.memory.factsAt node).contains other = true := fun node =>
      (removed.facts node other).trans (and_iff_left fun gone => here gone.1)
    rw [stays, exact.held live]
    cases kind with
    | objectType typeName =>
        change (∃ fact, view.facts.find? other = some fact ∧ _) ↔
          ∃ fact, (view.facts.erase handle).find? other = some fact ∧ _
        rw [SortedMap.find?_erase_eq, if_neg here]
    | alpha parent test functions => exact and_congr_left fun _ => (stays parent).symm
    | join | eval | terminal => exact Iff.rfl

/-- Everything that following a fact that is taken back can do. -/
inductive Leaves (network : Network) (base : Agenda) (view : FactView) (handle : Handle)
    (state : Matching) : Except Error Unit → Matching → Prop
  | missing {error : Error} (absent : view.facts.contains handle = false) :
      Leaves network base view handle state (.error error) state
  /-- No node is there for the type of the fact. -/
  | unseen {fact : Object} (isFact : view.facts.find? handle = some fact)
      (noEntry : network.objectType? fact.typeName = none) :
      Leaves network base view handle state (.ok ()) state
  /-- The fact was taken out of the alpha level and of the joins behind; then what only it held back
  was let through. -/
  | taken {fact : Object} {nodes : List NodeId} {freed : List (NodeId × Tuple)}
      {cleared between after : Matching} {result : Except Error Unit}
      (isFact : view.facts.find? handle = some fact)
      (removed : RemovedFrom state handle nodes cleared)
      (nowhere : ∀ id, (cleared.memory.factsAt id).contains handle = false)
      (relieves : Relieves network base view (OnRight network state.memory)
        (fun other => ∃ id ∈ nodes, (network.kind? other).bind NodeKind.right? = some id) handle
        cleared freed between)
      (run : Ends (freed.forM fun place => MatchM.unblock network view place.1 place.2) between
        result after) : Leaves network base view handle state result after

/-- Following a fact that is taken back; it never fails before tokens are let through. -/
theorem leaves_of_retract (intact : Intact network base view.facts state) {handle : Handle}
    {result : Except Error Unit}
    (run : Ends (MatchM.retract network view handle) state result after) :
    Leaves network base view handle state result after := by
  unfold MatchM.retract at run
  rcases ends_lift_bind.mp run with ⟨fact, found, run⟩ | ⟨error, missing, rfl, rfl⟩
  swap
  · exact .missing (FactView.fact_eq_error missing)
  have isFact := FactView.fact_eq_ok.mp found
  cases entry : network.objectType? fact.typeName with
  | none =>
      simp only [entry] at run
      obtain ⟨rfl, rfl⟩ := (ends_pure _).mp run
      exact .unseen isFact entry
  | some top =>
      simp only [entry] at run
      have isTop := sound.wellFormed.objectType.mp entry
      rcases ends_bind.mp run with ⟨holders, cleared, walk, run⟩ | ⟨error, walk, -⟩
      swap
      · obtain ⟨nodes, same, -⟩ := alphaHolders_removes sound _ (.top isTop rfl)
          (Nat.le_add_right ..)
          isTop rfl walk
        cases same
      obtain ⟨nodes, same, removes⟩ := alphaHolders_removes sound _ (.top isTop rfl)
        (Nat.le_add_right ..) isTop rfl walk
      cases same
      have removed := removes.removed
      have start : Coherent network base (OnRight network state.memory) cleared :=
        intact.coherent.mono removed.seeded (congrArg base.followAll removed.changes)
          (removed.cell base) fun here => here
      rcases ends_bind.mp run with ⟨freed, between, relieving, last⟩ | ⟨error, relieving, -⟩
      swap
      · obtain ⟨_, same, -⟩ := rightRetract_mapM_relieves sound view start relieving
        cases same
      obtain ⟨_, same, relieves⟩ := rightRetract_mapM_relieves sound view start relieving
      cases same
      exact .taken isFact removed (intact.layered.nowhere sound isFact isTop removes) relieves last

/-- A fact for whose type no node is there is held nowhere. -/
theorem Layered.nowhere_of_noEntry (layered : Layered network facts state.memory) {handle : Handle}
    {fact : Object} (isFact : facts.find? handle = some fact)
    (noEntry : network.objectType? fact.typeName = none) (id : NodeId) :
    (state.memory.factsAt id).contains handle = false := by
  refine Bool.eq_false_iff.mpr fun here => ?_
  obtain ⟨object, top, isObject, isTop, -⟩ := layered.entry sound.accounted here
  cases isFact.symm.trans isObject
  cases noEntry.symm.trans (sound.wellFormed.objectType.mpr isTop)

omit sound in
/-- A fact that was taken out of the joins stands nowhere on the right. -/
theorem RemovedFrom.relieved {handle : Handle} {nodes : List NodeId}
    {freed : List (NodeId × Tuple)} (removed : RemovedFrom state handle nodes mid)
    (relieves : Relieves network base view (OnRight network state.memory)
      (fun other => ∃ id ∈ nodes, (network.kind? other).bind NodeKind.right? = some id) handle mid
      freed after) : Coherent network base (OnRight network after.memory) after := by
  have coherent := relieves.coherent
  rwa [removed.onRight, ← onRight_congr relieves.alpha] at coherent

/-- Whether or not a condition fails, the memories are intact after a fact was taken back, and hold
it nowhere; if none fails, they are exact without the fact when they were exact with it. -/
theorem retract_follows (intact : Intact network base view.facts state) {handle : Handle}
    {result : Except Error Unit}
    (run : Ends (MatchM.retract network view handle) state result after) :
    Intact network base view.facts after ∧
      (∀ id, (after.memory.factsAt id).contains handle = false) ∧
      (result = .ok () → Exact network base view view.facts state →
        Exact network base view (view.facts.erase handle) after) := by
  cases leaves_of_retract sound intact run with
  | missing absent =>
      refine ⟨intact, fun id => Bool.eq_false_iff.mpr fun here => ?_, nofun⟩
      exact Bool.false_ne_true (absent.symm.trans (intact.layered.live sound.accounted here))
  | unseen isFact noEntry =>
      refine ⟨intact, intact.layered.nowhere_of_noEntry sound isFact noEntry, fun _ exact =>
        exact.of_noEntry handle (fun {other} different => ?_)
          fun {id typeName object} live isType => ⟨fun isObject => ?_, fun isObject => ?_⟩⟩
      · rw [SortedMap.find?_erase_eq, if_neg different]
      · rw [SortedMap.find?_erase_eq, if_pos rfl] at isObject
        cases isObject
      · cases isFact.symm.trans isObject
        cases noEntry.symm.trans (isType ▸ sound.wellFormed.objectType.mpr live)
  | @taken fact nodes freed cleared between _ _ isFact removed nowhere relieves last =>
      have pays := unblock_forM_pays sound relieves.negates (removed.relieved relieves)
        (reads_onRight between.memory) last
      have keeps := pays.toKeeps
      have alpha : after.memory.alpha = cleared.memory.alpha := keeps.alpha.trans relieves.alpha
      have same := NetworkMemory.factsAt_congr alpha
      have layered := (intact.layered.removedFrom removed nowhere).of_alpha relieves.alpha
      refine ⟨keeps.intact layered, fun id => same ▸ nowhere id, fun done exact =>
        ⟨keeps.seeded.trans (relieves.seeded.trans (removed.seeded.trans exact.seeded)),
          fun {id kind} live other => ?_, fun {id kind left tuple} live isLeft offered => ?_⟩⟩
      · exact admitted_congr same (removed.holds nowhere exact live other)
      · have settled : SettledSave network base view (OnRight network state.memory) cleared [] :=
          ⟨fun {id kind left tuple} live isLeft offered => .inl <| (exact.settled live isLeft
            (offered.congr removed.seeded.symm fun id tuple =>
              (removed.cell base id tuple).symm)).congr
              fun longer _ => removed.cell base id longer⟩
        have owing := relieves.settled settled
        rw [removed.onRight, ← onRight_congr relieves.alpha] at owing
        rw [onRight_congr keeps.alpha]
        exact ((pays.settled done owing).place live isLeft offered).resolve_right fun owed =>
          List.not_mem_nil owed.1

/-! ## The empty token of the root -/

omit sound in
/-- Nothing is offered before the root has passed on its token. -/
theorem Grounded.not_offered_of_unseeded (grounded : Grounded network base right state)
    (unseeded : state.memory.seeded = false) {left : Option NodeId} {arity : Nat}
    (isArity : network.Arity left arity) (tuple : Tuple) :
    ¬ Offered network base state left tuple := by
  induction isArity generalizing tuple with
  | root => exact fun offered => Bool.false_ne_true (unseeded.symm.trans offered.1)
  | @join id input left tests negated functions arity live before ih =>
      intro offered
      have supports := grounded.supports live offered
      cases negated with
      | true => exact ih tuple supports
      | false =>
          obtain ⟨origin, fact, -, origins, -⟩ := supports
          exact ih origin origins
  | eval live before ih => exact fun offered => ih tuple (grounded.supports live offered)

/-- Nothing is kept behind the alpha level before the root has passed on its token. -/
theorem Grounded.cell_of_unseeded (grounded : Grounded network base right state)
    (unseeded : state.memory.seeded = false) (id : NodeId) (tuple : Tuple) :
    state.cell network base id tuple = {} := by
  by_contra kept
  obtain ⟨kind, left, origin, live, isLeft, offered, -⟩ := grounded.origin kept
  obtain ⟨arity, isArity⟩ := sound.wellFormed.exists_left_arity sound.accounted live isLeft
  exact grounded.not_offered_of_unseeded unseeded isArity origin offered

/-- The memories stay intact when the root passes on its token; if no condition fails, everything
behind the root is settled. -/
theorem seed_follows (intact : Intact network base facts state) {result : Except Error Unit}
    (run : Ends (MatchM.seed network view) state result after) :
    Intact network base facts after ∧
      (result = .ok () → state.memory.seeded = false →
        (∀ {id kind}, network.kind? id = some kind → ∀ handle,
          (state.memory.factsAt id).contains handle = true ↔
            Admitted view facts state.memory handle kind) →
        Exact network base view facts after) := by
  unfold MatchM.seed MatchM.change at run
  rw [ends_get_bind] at run
  cases unseeded : state.memory.seeded with
  | true =>
      simp only [unseeded, ↓reduceIte] at run
      obtain ⟨rfl, rfl⟩ := (ends_pure _).mp run
      exact ⟨intact, fun _ impossible => by cases impossible⟩
  | false =>
      simp only [unseeded, Bool.false_eq_true, ↓reduceIte] at run
      rw [ends_modify_bind] at run
      set start : Matching := { state with memory := { state.memory with seeded := true } }
      have empty : ∀ id tuple, start.cell network base id tuple = {} := fun id tuple =>
        intact.coherent.toGrounded.cell_of_unseeded sound unseeded id tuple
      have startCoherent : Coherent network base (OnRight network start.memory) start := by
        refine ⟨⟨fun {id tuple} token => ?_, fun {id tuple facts} blocked => ?_,
          fun {id tuple found} matched => ?_, fun known => intact.coherent.tracked known⟩,
          fun {id tuple facts} blocked => ?_⟩
        · rw [empty] at token
          cases token
        · rw [empty] at blocked
          cases blocked
        · rw [empty] at matched
          cases matched
        · rw [empty] at blocked
          cases blocked
      have offers : Offers network base view (OnRight network start.memory)
          (MatchM.leftActivate network view network.depth) :=
            leftActivate_offers sound network.depth
      have activated := offers.activatedAll sound
        (fun child => sound.wellFormed.mem_rootChildren.mp) sound.wellFormed.rootChildren_nodup
        startCoherent (reads_onRight start.memory) ⟨rfl, rfl⟩
        (fun child _ {other tuple} _ => empty other tuple) run
      have keeps : Keeps network base (OnRight network start.memory) start after :=
        ⟨activated.spread.seeded, activated.spread.alpha, activated.coherent⟩
      refine ⟨keeps.intact (intact.layered.of_alpha rfl), fun done _ admitted =>
        ⟨keeps.seeded, fun {id kind} live handle => ?_,
          fun {id kind left tuple} live isLeft offered => ?_⟩⟩
      · exact admitted_congr (NetworkMemory.factsAt_congr keeps.alpha) (admitted live handle)
      · rw [onRight_congr keeps.alpha]
        obtain ⟨root, rootKind, rootLive, rootLeft, feeds⟩ :=
          sound.wellFormed.exists_root sound.accounted live isLeft
        have isRoot := sound.wellFormed.mem_rootChildren.mpr ⟨rootKind, rootLive, rootLeft⟩
        exact activated.settled done live isLeft ⟨root, isRoot, feeds, List.nil_prefix⟩ offered

end

end Rete.Matching
