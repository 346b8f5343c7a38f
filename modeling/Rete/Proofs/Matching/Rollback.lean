import Rete.Proofs.Matching.BruteForce

/-!
# Taking back what has just come in

A fact that comes in, also up to a failure, and is taken back then leaves everything as it was that
is not kept behind a token that it held back alone (`takesBack_of_retract`). Those tokens are let
through anew: if no condition fails then and the memories were exact, they are exact again
(`TakesBack.exact`), and exact memories of the same facts keep the same (`Exact.cell_unique`).
-/

namespace Rete

/-- A fact that has joined those that hold a tuple back and is taken out again makes no
difference. -/
theorem Cell.Joined.eased {fact : Handle} {before mid after : Cell}
    (joined : before.Joined fact mid) (eased : Matching.Eased fact mid after)
    (nonempty : ∀ {facts}, before.blocked = some facts → facts.isEmpty = false)
    (absent : ∀ {facts}, before.blocked = some facts → facts.contains fact = false)
    (gone : ∀ {facts}, after.blocked = some facts → facts.contains fact = false) :
    after = before := by
  refine Cell.ext (eased.token.trans joined.token) ?_ (eased.matched.trans joined.matched)
  rcases joined.blocked with same | ⟨facts, held, added⟩
  · rcases eased.blocked with kept | loosened
    · exact kept.trans same
    · rw [loosened, same]
      cases held : before.blocked with
      | none => rfl
      | some facts => exact Matching.loosen_of_absent (absent held)
  · rcases eased.blocked with kept | loosened
    · have contains : (facts.add fact).contains fact = true := by
        rw [SortedSet.contains_add, decide_eq_true rfl, Bool.true_or]
      exact absurd contains (Bool.eq_false_iff.mp (gone (kept.trans added)))
    · rw [loosened, added, held]
      have unheld := SortedMap.contains_eq_false.mp (absent held)
      obtain ⟨other, member⟩ := SortedMap.isEmpty_eq_false_iff.mp (nonempty held)
      have kept : Matching.frees fact (facts.add fact) = false := by
        refine Bool.eq_false_iff.mpr fun free => ?_
        have same := (Matching.frees_iff.mp free other).mp (by
          rw [SortedSet.contains_add, member, Bool.or_true])
        exact Bool.false_ne_true ((absent held).symm.trans (same ▸ member))
      change Matching.loosen fact (facts.add fact) = some facts
      rw [Matching.loosen, kept, if_neg Bool.false_ne_true]
      exact congrArg some ((SortedMap.erase_insert ..).trans (SortedMap.erase_of_absent unheld))

namespace Matching

variable {network : Network} {first base : Agenda} {view : FactView} {facts : Facts}
  {fact : Handle} {start mid out after : Matching} {freed : List (NodeId × Tuple)}
  {result : Except Error Unit}

/-- A fact has begun to come in that was held nowhere. -/
structure CameIn (network : Network) (first base : Agenda) (view : FactView) (fact : Handle)
    (start mid : Matching) : Prop extends Confined network first base view fact start mid where
  before : Coherent network first (OnRight network start.memory) start
  absent : ∀ id, (start.memory.factsAt id).contains fact = false
  others : ∀ {id other}, other ≠ fact →
    (mid.memory.factsAt id).contains other = (start.memory.factsAt id).contains other

/-- A fact was taken out of the memories; what it held back alone is not let through yet. -/
structure TakenOut (network : Network) (base : Agenda) (fact : Handle) (mid : Matching)
    (freed : List (NodeId × Tuple)) (out : Matching) : Prop where
  seeded : out.memory.seeded = mid.memory.seeded
  coherent : Coherent network base (OnRight network out.memory) out
  nowhere : ∀ id, (out.memory.factsAt id).contains fact = false
  others : ∀ {id other}, other ≠ fact →
    (out.memory.factsAt id).contains other = (mid.memory.factsAt id).contains other
  eased : ∀ {id tuple}, fact ∉ tuple →
    Eased fact (mid.cell network base id tuple) (out.cell network base id tuple)
  heldOnly : ∀ place ∈ freed, (mid.cell network base place.1 place.2).HeldOnlyBy fact
  /-- What the fact held back alone is held back by nothing now, and remembered. -/
  freed : ∀ {id left input tests functions tuple},
    network.kind? id = some (.join left input tests true functions) →
    Offered network base out left tuple → (mid.cell network base id tuple).HeldOnlyBy fact →
      (id, tuple) ∈ freed ∧ (out.cell network base id tuple).blocked = none

/-- A fact has come in and was taken back. -/
structure TakesBack (network : Network) (first base : Agenda) (fact : Handle)
    (start mid after : Matching) : Prop where
  seeded : after.memory.seeded = start.memory.seeded
  factsAt : after.memory.factsAt = start.memory.factsAt
  place : ∀ {id tuple}, ¬ Stopped network base fact mid id tuple →
    after.cell network base id tuple = start.cell network first id tuple

/-- Nothing is held back by a fact that is held nowhere. -/
theorem Coherent.not_contains {memory : NetworkMemory}
    (coherent : Coherent network base (OnRight network memory) start)
    (nowhere : ∀ id, (memory.factsAt id).contains fact = false) {id : NodeId} {tuple : Tuple}
    {facts : SortedSet Handle} (held : (start.cell network base id tuple).blocked = some facts) :
    facts.contains fact = false := by
  obtain ⟨_, _, _, _, -, -, -, stand⟩ := coherent.blocked held
  refine Bool.eq_false_iff.mpr fun member => ?_
  obtain ⟨input, -, here⟩ := stand fact member
  exact Bool.false_ne_true ((nowhere input).symm.trans here)

section

variable (sound : network.Sound)

include sound

/-- Nothing is kept of a tuple with a fact that is held nowhere. -/
theorem Coherent.cell_of_nowhere {memory : NetworkMemory}
    (coherent : Coherent network base (OnRight network memory) start)
    (nowhere : ∀ id, (memory.factsAt id).contains fact = false) {tuple : Tuple}
    (within : fact ∈ tuple) (id : NodeId) : start.cell network base id tuple = {} := by
  have unoffered : ∀ left, ¬ Offered network base start left tuple := by
    intro left offered
    obtain ⟨node, held⟩ := coherent.holds (coherent.arity sound offered) offered within
    exact Bool.false_ne_true ((nowhere node).symm.trans held)
  refine Cell.ext ?_ ?_ ?_
  · exact Bool.eq_false_iff.mpr (unoffered (some id))
  · refine Option.eq_none_iff_forall_ne_some.mpr fun others held => ?_
    obtain ⟨left, _, _, _, -, offered, -⟩ := coherent.blocked held
    exact unoffered left offered
  · refine Option.eq_none_iff_forall_ne_some.mpr fun found matched => ?_
    obtain ⟨left, _, -, offered⟩ := coherent.matched matched
    exact unoffered left offered

/-- What is stopped at a longer tuple is stopped at the tuple that a node is offered. -/
theorem Stopped.of_longer {right : NodeId → Handle → Prop}
    (coherent : Coherent network base right mid) {id : NodeId} {kind : NodeKind}
    (live : network.kind? id = some kind) {left : Option NodeId} (isLeft : kind.left? = some left)
    {tuple longer : Tuple} (isArity : network.Arity left tuple.length) (starts : tuple <+: longer)
    (stopped : Stopped network base fact mid id longer) :
    Stopped network base fact mid id tuple := by
  obtain ⟨join, token, without, heldOnly, feeds, inside⟩ := stopped
  have ⟨others, blocked, _⟩ := heldOnly
  obtain ⟨joinLeft, input, tests, functions, joinLive, offered, -⟩ := coherent.blocked blocked
  have short : token.length ≤ tuple.length := by
    rcases feeds.cases_last with rfl | ⟨lastKind, via, lastLive, lastLeft, earlier⟩
    · cases live.symm.trans joinLive
      cases isLeft
      exact Nat.le_of_eq (coherent.length isArity offered)
    · cases live.symm.trans lastLive
      cases isLeft.symm.trans lastLeft
      obtain ⟨arity, joinArity⟩ := sound.wellFormed.exists_left_arity sound.accounted joinLive rfl
      rw [coherent.length joinArity offered]
      exact arity_le_of_feeds earlier (.join joinLive joinArity) isArity
  exact ⟨join, token, without, heldOnly, feeds, List.prefix_of_prefix_length_le inside starts short⟩

/-! ## The fact comes in -/

/-- A fact that comes in, also up to a failure, changes only what it may. -/
theorem assert_cameIn (intact : Intact network base view.facts start)
    (absent : ∀ id, (start.memory.factsAt id).contains fact = false)
    (run : Ends (MatchM.assert network view fact) start result mid) :
    CameIn network base base view fact start mid := by
  have free : ∀ id tuple, ¬ (start.cell network base id tuple).HeldOnlyBy fact := by
    rintro id tuple ⟨others, held, only⟩
    exact Bool.false_ne_true
      ((intact.coherent.not_contains absent held).symm.trans ((only fact).mpr rfl))
  have added : ∀ {nodes : NodeId → Prop} {between : Matching}, AddedTo start fact nodes between →
      CameIn network base base view fact start between := fun added =>
    { toConfined := .of_cells added.seeded (added.cell base) free
      before := intact.coherent
      absent
      others := fun different => Bool.eq_iff_iff.mpr
        ((added.facts _ _).trans (or_iff_left fun new => different new.1)) }
  cases enters_of_assert sound run with
  | missing => exact ⟨.of_cells rfl (fun _ _ => rfl) free, intact.coherent, absent, fun _ => rfl⟩
  | unseen => exact ⟨.of_cells rfl (fun _ _ => rfl) free, intact.coherent, absent, fun _ => rfl⟩
  | stopped isFact isTop passes => exact added passes.added
  | @sent object top nodes passed between _ _ isFact isTop passes entered last =>
      have sent := passes.added.intact intact isFact isTop passes.sifted
      have brings := (rightActivate_forM_keeps sound sent.coherent (reads_onRight between.memory)
        isFact passes.holds last).1
      have came := added passes.added
      refine { came with
        toConfined := brings.confined came.toConfined
        others := fun different => ?_ }
      rw [NetworkMemory.factsAt_congr brings.alpha]
      exact came.others different

omit sound in
/-- Changes that were noted may be followed before the fact is taken back. -/
theorem CameIn.restart (came : CameIn network first base view fact start mid) :
    CameIn network first (mid.agenda base) view fact start { memory := mid.memory } where
  seeded := came.seeded
  place := came.place
  stoppable := came.stoppable
  before := came.before
  absent := came.absent
  others := came.others

/-! ## The fact is taken out -/

section

variable {right : NodeId → Handle → Prop} {joins : NodeId → Prop}
  (relieves : Relieves network base view right joins fact mid freed out)
  (coherent : Coherent network base (OnRight network out.memory) out)
  (nowhere : ∀ id, (out.memory.factsAt id).contains fact = false)

include relieves coherent nowhere

omit sound in
/-- What the fact held back alone is held back by nothing when the fact is out. -/
theorem Relieves.blocked_eq_none {id : NodeId} {tuple : Tuple}
    (heldOnly : (mid.cell network base id tuple).HeldOnlyBy fact) :
    (out.cell network base id tuple).blocked = none := by
  obtain ⟨others, held, only⟩ := heldOnly
  refine Option.eq_none_iff_forall_ne_some.mpr fun rest still => ?_
  obtain ⟨earlier, before, less, -⟩ := relieves.blocked still
  cases held.symm.trans before
  obtain ⟨_, _, _, _, -, -, nonempty, -⟩ := coherent.blocked still
  obtain ⟨other, member⟩ := SortedMap.isEmpty_eq_false_iff.mp nonempty
  have same := (only other).mp (less other member)
  exact Bool.false_ne_true ((coherent.not_contains nowhere still).symm.trans (same ▸ member))

/-- What the fact held back alone is remembered, where it is still offered. -/
theorem Relieves.mem_freed (start : Coherent network base right mid) {id input : NodeId}
    {left : Option NodeId} {tests : List Expr} {functions : FunctionTable} {tuple : Tuple}
    (live : network.kind? id = some (.join left input tests true functions))
    (offered : Offered network base out left tuple)
    (heldOnly : (mid.cell network base id tuple).HeldOnlyBy fact) : (id, tuple) ∈ freed := by
  have ⟨others, held, _⟩ := heldOnly
  have excused : Covers network base mid fun id tuple =>
      ¬ (mid.cell network base id tuple).Covered := ⟨fun _ _ => em _⟩
  rcases (relieves.covers excused).place live offered with (present | blocked) | uncovered | member
  · have without : fact ∉ tuple := fun within => by
      rw [coherent.cell_of_nowhere sound nowhere within] at present
      cases present
    rw [(relieves.eased without).token] at present
    exact absurd present (Bool.eq_false_iff.mp (start.exclusive held))
  · exact absurd (relieves.blocked_eq_none coherent nowhere heldOnly) blocked
  · exact absurd (.inr (by rw [held]; exact Option.some_ne_none _)) uncovered
  · exact member

end

/-- Taking a fact back takes it out of the memories and then lets through what it held back. -/
theorem takenOut_of_retract (intact : Intact network base view.facts mid)
    (live : view.facts.contains fact = true)
    (run : Ends (MatchM.retract network view fact) mid result after) :
    ∃ freed out, TakenOut network base fact mid freed out ∧
      PaysAll network base view (OnRight network out.memory) out freed result after := by
  cases leaves_of_retract sound intact run with
  | missing absent => exact absurd live (Bool.eq_false_iff.mp absent)
  | unseen isFact noEntry =>
      have nowhere := intact.layered.nowhere_of_noEntry sound isFact noEntry
      have pays : PaysAll network base view (OnRight network mid.memory) mid [] (.ok ()) mid :=
        unblock_forM_pays sound (fun _ none => absurd none List.not_mem_nil) intact.coherent
          (reads_onRight mid.memory) ((ends_pure _).mpr ⟨rfl, rfl⟩)
      refine ⟨[], mid, ⟨rfl, intact.coherent, nowhere, fun _ => rfl, fun _ => .refl fact _, nofun,
        fun {id left input tests functions tuple} _ _ heldOnly => ?_⟩, pays⟩
      obtain ⟨others, held, only⟩ := heldOnly
      exact absurd ((only fact).mpr rfl)
        (Bool.eq_false_iff.mp (intact.coherent.not_contains nowhere held))
  | @taken object nodes freed cleared out _ _ isFact removed nowhere relieves last =>
      have coherent := removed.relieved relieves
      have cells (id : NodeId) (tuple : Tuple) :
          cleared.cell network base id tuple = mid.cell network base id tuple :=
        removed.cell base id tuple
      have gone : ∀ id, (out.memory.factsAt id).contains fact = false := by
        rw [NetworkMemory.factsAt_congr relieves.alpha]
        exact nowhere
      refine ⟨freed, out, ⟨relieves.seeded.trans removed.seeded, coherent, gone,
        fun {id other} different => ?_, fun without => cells _ _ ▸ relieves.eased without,
        fun place member => cells _ _ ▸ relieves.heldOnly place member,
        fun {id left input tests functions tuple} live offered heldOnly => ?_⟩,
        unblock_forM_pays sound relieves.negates coherent (reads_onRight out.memory) last⟩
      · rw [NetworkMemory.factsAt_congr relieves.alpha]
        exact Bool.eq_iff_iff.mpr
          ((removed.facts id other).trans (and_iff_left fun gone => different gone.1))
      · rw [← cells] at heldOnly
        have start : Coherent network base (OnRight network mid.memory) cleared :=
          intact.coherent.mono removed.seeded (congrArg base.followAll removed.changes) cells
            fun here => here
        exact ⟨relieves.mem_freed sound coherent gone start live offered heldOnly,
          relieves.blocked_eq_none coherent gone heldOnly⟩

namespace TakenOut

variable (came : CameIn network first base view fact start mid)
  (taken : TakenOut network base fact mid freed out)

include came taken

omit sound in
/-- The alpha level holds what it held before. -/
theorem factsAt : out.memory.factsAt = start.memory.factsAt := by
  refine funext fun id => SortedSet.ext_contains fun other => ?_
  by_cases same : other = fact
  · subst same
    exact (taken.nowhere id).trans (came.absent id).symm
  · exact (taken.others same).trans (came.others same)

/-- What was not stopped is as before. -/
theorem cell {id : NodeId} {tuple : Tuple}
    (free : ¬ Stopped network base fact mid id tuple) :
    out.cell network base id tuple = start.cell network first id tuple := by
  by_cases within : fact ∈ tuple
  · rw [taken.coherent.cell_of_nowhere sound taken.nowhere within,
      came.before.cell_of_nowhere sound came.absent within]
  · refine (came.place within free).eased (taken.eased within) (fun held => ?_)
      (came.before.not_contains came.absent) (taken.coherent.not_contains taken.nowhere)
    obtain ⟨_, _, _, _, -, -, nonempty, -⟩ := came.before.blocked held
    exact nonempty

/-- When the fact is out, every place is settled if all were before, or is to be let through. -/
theorem settledSave (intact : Intact network base view.facts mid)
    (exact : Exact network first view facts start) :
    SettledSave network base view (OnRight network out.memory) out freed := by
  refine ⟨fun {id kind left tuple} live isLeft offered => ?_⟩
  have isArity := taken.coherent.arity sound offered
  have right : ∀ other, OnRight network out.memory id other ↔
      OnRight network start.memory id other := fun other => by
    rw [onRight_of_factsAt (taken.factsAt came)]
  by_cases stopped : Stopped network base fact mid id tuple
  · have without : fact ∉ tuple := fun within => by
      obtain ⟨node, held⟩ := taken.coherent.holds isArity offered within
      exact Bool.false_ne_true ((taken.nowhere node).symm.trans held)
    have offeredMid : Offered network base mid left tuple := by
      cases left with
      | none => exact ⟨taken.seeded.symm.trans offered.1, offered.2⟩
      | some via => exact (taken.eased without).token.symm.trans offered
    have heldOnly := intact.coherent.heldOnly_of_stopped sound live isLeft offeredMid stopped
    obtain ⟨joinLeft, input, tests, functions, joinLive, startOffered, unheld, -⟩ :=
      came.stoppable without heldOnly
    cases live.symm.trans joinLive
    cases isLeft
    obtain ⟨member, free⟩ := taken.freed live offered heldOnly
    obtain ⟨others, held, -⟩ := heldOnly
    refine .inr ⟨member, free, ?_, fun other both => ?_⟩
    · exact (taken.eased without).token.trans (intact.coherent.exclusive held)
    · obtain ⟨blockers, blocked, -⟩ :=
        ((exact.settled live rfl startOffered).1 other).mpr ⟨(right other).mp both.1, both.2⟩
      cases unheld.symm.trans blocked
  · have startOffered : Offered network first start left tuple := by
      cases left with
      | none => exact ⟨came.seeded.symm.trans (taken.seeded.symm.trans offered.1), offered.2⟩
      | some via =>
          refine (congrArg Cell.token (taken.cell sound came fun earlier => stopped ?_)).symm.trans
            offered
          exact earlier.within ⟨.next .self live isLeft, List.prefix_refl _⟩
    refine .inl (((exact.settled live isLeft startOffered).congr fun longer starts => ?_).of_right
      right)
    exact taken.cell sound came (mt (Stopped.of_longer sound intact.coherent live isLeft isArity
      starts) stopped)

end TakenOut

/-! ## What the fact held back is let through -/

/-- What was not stopped while the fact came in is as before, whether or not taking the fact back
fails. If it does not fail, memories that were exact are exact again. -/
theorem takesBack_of_retract (came : CameIn network first base view fact start mid)
    (intact : Intact network base view.facts mid) (live : view.facts.contains fact = true)
    (run : Ends (MatchM.retract network view fact) mid result after) :
    TakesBack network first base fact start mid after ∧
      (result = .ok () → Exact network first view facts start →
        Exact network base view facts after) := by
  obtain ⟨freed, out, taken, pays⟩ := takenOut_of_retract sound intact live run
  have alpha := NetworkMemory.factsAt_congr pays.alpha
  have factsAt : after.memory.factsAt = start.memory.factsAt := alpha.trans (taken.factsAt came)
  have seeded : after.memory.seeded = start.memory.seeded :=
    pays.seeded.trans (taken.seeded.trans came.seeded)
  refine ⟨⟨seeded, factsAt, fun {id tuple} free => ?_⟩, fun done exact =>
    ⟨seeded.trans exact.seeded, fun live handle => admitted_congr factsAt (exact.held live handle),
      fun {id kind left tuple} live isLeft offered => ?_⟩⟩
  · by_cases within : fact ∈ tuple
    · rw [pays.coherent.cell_of_nowhere sound taken.nowhere within,
        came.before.cell_of_nowhere sound came.absent within]
    · refine (pays.outside fun place member inside => free ?_).trans (taken.cell sound came free)
      exact ⟨place.1, place.2, mt (fun here => inside.2.subset here) within,
        taken.heldOnly place member, inside⟩
  · rw [onRight_of_factsAt alpha]
    have settled := pays.settled done (taken.settledSave sound came intact exact)
    exact (settled.place live isLeft offered).resolve_right fun owed => List.not_mem_nil owed.1

/-! ## What exact memories keep -/

section

variable (exact : Exact network first view facts start)
  (coherent : Coherent network first (OnRight network start.memory) start)
  (again : Exact network base view facts after)
  (coherentAgain : Coherent network base (OnRight network after.memory) after)
  (factsAt : after.memory.factsAt = start.memory.factsAt)

include exact coherent again coherentAgain factsAt

omit sound in
/-- Exact memories of the same facts offer the same. -/
theorem Exact.offered_unique {left : Option NodeId} {arity : Nat}
    (isArity : network.Arity left arity) (tuple : Tuple) :
    Offered network base after left tuple ↔ Offered network first start left tuple := by
  have right : OnRight network after.memory = OnRight network start.memory :=
    onRight_of_factsAt factsAt
  induction isArity generalizing tuple with
  | root => exact and_congr_left' (iff_of_true again.seeded exact.seeded)
  | @join id input left tests negated functions arity live before ih =>
      cases negated with
      | true =>
          refine (again.token_iff_of_negated coherentAgain live).trans
            (.trans ?_ (exact.token_iff_of_negated coherent live).symm)
          simp only [ih, right]
      | false =>
          refine (again.token_iff_of_join coherentAgain live).trans
            (.trans ?_ (exact.token_iff_of_join coherent live).symm)
          simp only [ih, right]
  | eval live before ih =>
      refine (again.token_iff_of_eval coherentAgain live).trans
        (.trans ?_ (exact.token_iff_of_eval coherent live).symm)
      exact and_congr_left' (ih tuple)

/-- Exact memories of the same facts hold back the same. -/
theorem Exact.blocked_of_blocked {id : NodeId} {tuple : Tuple} {held : SortedSet Handle}
    (blocked : (start.cell network first id tuple).blocked = some held) :
    (after.cell network base id tuple).blocked = some held := by
  obtain ⟨left, input, tests, functions, live, offered, nonempty, -⟩ := coherent.blocked blocked
  have settled := exact.settled live rfl offered
  have settledAgain := again.settled live rfl
    ((exact.offered_unique coherent again coherentAgain factsAt (coherent.arity sound offered)
      tuple).mpr offered)
  rw [onRight_of_factsAt factsAt] at settledAgain
  have members : ∀ other, (∃ others, (after.cell network base id tuple).blocked = some others ∧
      others.contains other = true) ↔ held.contains other = true := by
    intro other
    rw [settledAgain.1, ← settled.1, blocked]
    simp only [Option.some.injEq, exists_eq_left']
  obtain ⟨one, member⟩ := SortedMap.isEmpty_eq_false_iff.mp nonempty
  obtain ⟨others, isOthers, -⟩ := (members one).mpr member
  rw [isOthers] at members ⊢
  simp only [Option.some.injEq, exists_eq_left'] at members
  exact congrArg some (SortedSet.ext_contains fun other => Bool.eq_iff_iff.mpr (members other))

/-- Exact memories of the same facts keep the same tokens, hold back the same and have the same
complete matches. -/
theorem Exact.cell_unique (id : NodeId) (tuple : Tuple) :
    (after.cell network base id tuple).token = (start.cell network first id tuple).token ∧
      (after.cell network base id tuple).blocked = (start.cell network first id tuple).blocked ∧
      ((after.cell network base id tuple).matched ≠ none ↔
        (start.cell network first id tuple).matched ≠ none) := by
  have offered {left : Option NodeId} {arity : Nat} (isArity : network.Arity left arity) :=
    exact.offered_unique coherent again coherentAgain factsAt isArity tuple
  have held {state : Matching} {base : Agenda}
      (coherent : Coherent network base (OnRight network state.memory) state)
      (token : (state.cell network base id tuple).token = true) :
      network.Arity (some id) tuple.length := coherent.arity sound token
  refine ⟨Bool.eq_iff_iff.mpr ⟨fun token => ?_, fun token => ?_⟩, ?_, fun matched => ?_,
    fun matched => ?_⟩
  · exact (offered (held coherentAgain token)).mp token
  · exact (offered (held coherent token)).mpr token
  · cases before : (start.cell network first id tuple).blocked with
    | some held => exact exact.blocked_of_blocked sound coherent again coherentAgain factsAt before
    | none =>
        refine Option.eq_none_iff_forall_ne_some.mpr fun held blocked => ?_
        cases before.symm.trans
          (again.blocked_of_blocked sound coherentAgain exact coherent factsAt.symm blocked)
  · obtain ⟨state, found⟩ := Option.ne_none_iff_exists'.mp matched
    obtain ⟨left, terminal, live, isOffered⟩ := coherentAgain.matched found
    exact exact.settled live rfl ((offered (coherentAgain.arity sound isOffered)).mp isOffered)
  · obtain ⟨state, found⟩ := Option.ne_none_iff_exists'.mp matched
    obtain ⟨left, terminal, live, isOffered⟩ := coherent.matched found
    exact again.settled live rfl ((offered (coherent.arity sound isOffered)).mpr isOffered)

end

end

end Matching

end Rete
