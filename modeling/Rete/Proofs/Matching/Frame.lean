import Rete.Proofs.Agenda
import Rete.Proofs.Computation

/-!
# The matches that a fact concerns

Whatever tests say, the network notes only changes at its terminal nodes, finds only matches with a
fact when the fact comes in (`assert_notes`), and loses only matches with it when it is taken back
(`retract_notes`). What the agenda tracks of other matches is carried over: none is new after the
first, and all stay in their states after the second (`Agenda.Carries`).
-/

namespace Rete

/-! ## Changes of the complete matches -/

namespace MatchChange

/-- If matches are found, they have the fact. -/
def FindsOnlyWith (handle : Handle) : MatchChange → Prop
  | .found _ tuple => handle ∈ tuple
  | .lost .. => True

/-- If matches are lost, they have the fact. -/
def LosesOnlyWith (handle : Handle) : MatchChange → Prop
  | .found .. => True
  | .lost _ stem => handle ∈ stem

/-- The rule whose matches change. -/
def rule : MatchChange → RuleId
  | .found terminal _ => terminal.rule
  | .lost rule _ => rule

end MatchChange

namespace Agenda

/-- What one agenda tracks of matches without a fact, another one tracks in the same states. -/
structure Carries (handle : Handle) (agenda after : Agenda) : Prop where
  states : ∀ {found state}, handle ∉ found.tuple → agenda.states.find? found = some state →
    after.states.find? found = some state

namespace Carries

variable {handle : Handle} {agenda mid after : Agenda}

/-- An agenda carries what it tracks itself. -/
theorem refl (handle : Handle) (agenda : Agenda) : Carries handle agenda agenda :=
  ⟨fun _ tracked => tracked⟩

private theorem trans (first : Carries handle agenda mid) (second : Carries handle mid after) :
    Carries handle agenda after :=
  ⟨fun without tracked => second.states without (first.states without tracked)⟩

/-- A match that was found was not tracked before, or it has the fact. -/
theorem of_findsOnlyWith {change : MatchChange} (finds : change.FindsOnlyWith handle)
    (agenda : Agenda) : Carries handle (agenda.follow change) agenda where
  states {found state} without tracked := by
    cases change with
    | found terminal tuple =>
        obtain ⟨_, states, -, -⟩ := agenda.find?_activate terminal tuple
        rw [follow, states, if_neg] at tracked
        · exact tracked
        · rintro rfl
          exact without finds
    | lost rule stem =>
        rw [follow, find?_deactivate] at tracked
        split at tracked
        · cases tracked
        · exact tracked

/-- Matches stay in their states while others are found, and while matches with the fact are
lost. -/
theorem of_losesOnlyWith {change : MatchChange} (loses : change.LosesOnlyWith handle)
    (agenda : Agenda) : Carries handle agenda (agenda.follow change) where
  states {found state} without tracked := by
    cases change with
    | found terminal tuple =>
        obtain ⟨now, states, known, -⟩ := agenda.find?_activate terminal tuple
        rw [follow, states]
        split
        · next same => rw [known state (same ▸ tracked)]
        · exact tracked
    | lost rule stem =>
        rw [follow, find?_deactivate, if_neg, tracked]
        intro within
        exact without ((Match.isWithin_iff.mp within).2.subset loses)

/-- If changes find matches with a fact only, nothing else is tracked that was not tracked so
before. -/
theorem of_forall_findsOnlyWith {changes : List MatchChange}
    (finds : ∀ change ∈ changes, change.FindsOnlyWith handle) (agenda : Agenda) :
    Carries handle (agenda.followAll changes) agenda := by
  induction changes generalizing agenda with
  | nil => exact .refl handle agenda
  | cons change rest ih =>
      obtain ⟨first, others⟩ := List.forall_mem_cons.mp finds
      exact (ih others (agenda.follow change)).trans (.of_findsOnlyWith first agenda)

/-- If changes lose matches with a fact only, all others stay tracked in their states. -/
theorem of_forall_losesOnlyWith {changes : List MatchChange}
    (loses : ∀ change ∈ changes, change.LosesOnlyWith handle) (agenda : Agenda) :
    Carries handle agenda (agenda.followAll changes) := by
  induction changes generalizing agenda with
  | nil => exact .refl handle agenda
  | cons change rest ih =>
      obtain ⟨first, others⟩ := List.forall_mem_cons.mp loses
      exact (of_losesOnlyWith first agenda).trans (ih others (agenda.follow change))

end Carries

end Agenda

/-! ## What propagation notes -/

namespace Matching

variable {only : MatchChange → Prop} {network : Network} {state mid after : Matching}

/-- Only some changes of the complete matches were noted. -/
structure Notes (only : MatchChange → Prop) (state after : Matching) : Prop where
  exists_append : ∃ noted, after.changes = state.changes ++ noted ∧ ∀ change ∈ noted, only change

namespace Notes

/-- Nothing noted is within every bound. -/
theorem of_eq (same : after.changes = state.changes) : Notes only state after :=
  ⟨[], same.trans (List.append_nil _).symm, nofun⟩

/-- Changes noted one after the other. -/
theorem trans (first : Notes only state mid) (second : Notes only mid after) :
    Notes only state after := by
  obtain ⟨noted, same, each⟩ := first.exists_append
  obtain ⟨others, last, eachOther⟩ := second.exists_append
  refine ⟨noted ++ others, ?_, List.forall_mem_append.mpr ⟨each, eachOther⟩⟩
  rw [last, same, List.append_assoc]

private theorem note {change : MatchChange} (allowed : only change) : Notes only state
    (state.note change) :=
  ⟨[change], rfl, List.forall_mem_singleton.mpr allowed⟩

private theorem foldl {α : Type} {step : Matching → α → Matching} {items : List α}
    (each : ∀ item ∈ items, ∀ state, Notes only state (step state item)) (state : Matching) :
    Notes only state (items.foldl step state) := by
  induction items generalizing state with
  | nil => exact .of_eq rfl
  | cons item rest ih =>
      obtain ⟨first, others⟩ := List.forall_mem_cons.mp each
      exact (first state).trans (ih others (step state item))

end Notes

/-- Matches of rules at terminal nodes may be found if their tuples are such. -/
def MayFind (network : Network) (only : MatchChange → Prop) (such : Tuple → Prop) : Prop :=
  ∀ {id left terminal tuple}, (network.node? id).map Node.kind = some (.terminal left terminal) →
    such tuple →
    only (.found terminal tuple)

/-- Matches of rules at terminal nodes may be lost if their stems are such. -/
def MayLose (network : Network) (only : MatchChange → Prop) (such : Tuple → Prop) : Prop :=
  ∀ {id left terminal stem}, (network.node? id).map Node.kind = some (.terminal left terminal) →
    such stem →
    only (.lost terminal.rule stem)

variable {stem : Tuple}

private theorem retractOutputWith_notes {below : Matching → NodeId → Matching}
    (each : ∀ child state, Notes only state (below state child)) (stem : Tuple) (state : Matching)
    (id : NodeId) : Notes only state (retractOutputWith network below stem state id) := by
  unfold retractOutputWith
  split
  · exact .of_eq rfl
  · next node found =>
    dsimp only
    split
    · have dropping : Notes only state
          { state with memory := (state.memory.dropTokens id stem).2 } := .of_eq rfl
      exact dropping.trans (.foldl (fun child _ => each child) _)
    · exact .of_eq rfl

private theorem withdraw_notes (loses : MayLose network only (· = stem)) (depth : Nat)
    (state : Matching) (id : NodeId) : Notes only state (withdraw network depth stem state id) := by
  induction depth generalizing state id with
  | zero => exact .of_eq rfl
  | succ depth ih =>
      unfold withdraw
      split
      · exact .of_eq rfl
      · next live => exact .note (loses live rfl)
      · have dropping : Notes only state
            { state with memory := state.memory.dropBlocked id stem } := .of_eq rfl
        exact dropping.trans (retractOutputWith_notes (fun child state => ih state child) stem _ id)

private theorem retractOutput_notes (loses : MayLose network only (· = stem)) (state : Matching)
    (id : NodeId) : Notes only state (retractOutput network stem state id) :=
  retractOutputWith_notes (fun child state => withdraw_notes loses network.depth state child) stem
    state id

private theorem block_notes {token : Tuple} (loses : MayLose network only (· = token)) (id : NodeId)
    (fact : Handle) (state : Matching) : Notes only state (block network id token fact state) := by
  unfold block
  dsimp only
  have blocking (blocked : Blocked) : Notes only state
      { state with memory := state.memory.setBlocked id blocked } := .of_eq rfl
  split
  · exact (blocking _).trans (retractOutput_notes loses _ id)
  · exact blocking _

end Matching

namespace MatchM

variable {α β : Type} {only : MatchChange → Prop} {network : Network} {view : FactView}

/-- An operation notes only some changes of the complete matches, whether or not it fails. -/
structure Noting (only : MatchChange → Prop) (operation : MatchM α) : Prop where
  notes : ∀ {state result after}, Ends operation state result after →
    Matching.Notes only state after

namespace Noting

/-- Yielding a value notes nothing. -/
theorem pure (a : α) : Noting only (Pure.pure a : MatchM α) where
  notes run := by
    obtain ⟨-, rfl⟩ := (ends_pure _).mp run
    exact .of_eq rfl

/-- Failing notes nothing. -/
theorem throw (error : Error) : Noting only (throw error : MatchM α) where
  notes run := by
    obtain ⟨-, rfl⟩ := (ends_throw _).mp run
    exact .of_eq rfl

/-- A result that was computed elsewhere notes nothing. -/
theorem lift (given : Except Error α) : Noting only (liftResult given) where
  notes run := by
    obtain ⟨-, rfl⟩ := (ends_lift _).mp run
    exact .of_eq rfl

/-- A change of the state notes what it notes in each. -/
theorem change {step : Matching → Matching}
    (each : ∀ state, Matching.Notes only state (step state)) : Noting only (change step) where
  notes run := by
    obtain ⟨-, rfl⟩ := (ends_modify _).mp run
    exact each _

/-- Operations that note such changes do so one after the other. -/
theorem bind {first : MatchM β} {next : β → MatchM α} (one : Noting only first)
    (two : ∀ value, Noting only (next value)) : Noting only (first >>= next) where
  notes run := by
    rcases ends_bind.mp run with ⟨value, between, start, rest⟩ | ⟨error, start, -⟩
    · exact (one.notes start).trans ((two value).notes rest)
    · exact one.notes start

/-- An operation may note changes that depend on the state. -/
theorem get_bind {next : Matching → MatchM α} (each : ∀ state, Noting only (next state)) :
    Noting only (get >>= next) where
  notes run := (each _).notes (ends_get_bind.mp run)

/-- What an operation notes when nothing has been noted yet. -/
theorem changes {operation : MatchM α} (noting : Noting only operation) {memory : NetworkMemory}
    {result : Except Error α} {after : Matching} (run : Ends operation { memory } result after) :
    ∀ change ∈ after.changes, only change := by
  obtain ⟨noted, same, each⟩ := (noting.notes run).exists_append
  rw [show after.changes = noted from same]
  exact each

/-- Steps that note such changes do so over a list. -/
theorem forM {ι : Type} {step : ι → MatchM Unit} {items : List ι}
    (each : ∀ item ∈ items, Noting only (step item)) : Noting only (items.forM step) := by
  induction items with
  | nil => exact .pure _
  | cons item rest ih =>
      obtain ⟨first, others⟩ := List.forall_mem_cons.mp each
      exact first.bind fun _ => ih others

/-- Steps that note such changes do so over a list and yield their values. -/
theorem mapM {ι : Type} {step : ι → MatchM β} {items : List ι}
    (each : ∀ item ∈ items, Noting only (step item)) : Noting only (items.mapM step) := by
  induction items with
  | nil =>
      rw [List.mapM_nil]
      exact .pure _
  | cons item rest ih =>
      obtain ⟨first, others⟩ := List.forall_mem_cons.mp each
      rw [List.mapM_cons]
      exact first.bind fun _ => (ih others).bind fun _ => .pure _

/-- Whichever branch is taken, only such changes are noted. -/
theorem ite {condition : Prop} [Decidable condition] {one other : MatchM α}
    (first : Noting only one) (second : Noting only other) :
    Noting only (if condition then one else other) := by
  split
  · exact first
  · exact second

end Noting

/-! ## Tokens -/

private theorem emitWith_noting {offer : Tuple → NodeId → MatchM Unit} {token : Tuple}
    (each : ∀ child, Noting only (offer token child)) (id : NodeId) :
    Noting only (emitWith network offer id token) := by
  unfold emitWith
  refine .get_bind fun state => .ite (.pure _) (.bind (.change fun _ => .of_eq rfl) fun _ => ?_)
  split
  · exact .pure _
  · exact .forM fun child _ => each child

private theorem joinFacts_noting {emit : Tuple → MatchM Unit} {functions : FunctionTable}
    {tests : List Expr} {token : Tuple} {facts : List Handle}
    (each : ∀ handle, Noting only (emit (token ++ [handle]))) :
    Noting only (joinFacts view emit functions tests token facts) :=
  .forM fun handle _ => .bind (.lift _) fun _ => .bind (.lift _) fun _ =>
    .ite (each handle) (.pure _)

private theorem matching_noting (functions : FunctionTable) (tests : List Expr) (token : Tuple)
    (facts : List Handle) : Noting only (matching view functions tests token facts) := by
  induction facts with
  | nil => exact .pure _
  | cons handle rest ih =>
      exact .bind (.lift _) fun _ => .bind (.lift _) fun _ => ih.bind fun _ => .pure _

/-- What comes of a token starts with it. -/
theorem leftActivate_noting {token : Tuple} (finds : Matching.MayFind network only (token <+: ·))
    (depth : Nat) (id : NodeId) : Noting only (leftActivate network view depth token id) := by
  induction depth generalizing token id with
  | zero => exact .throw _
  | succ depth ih =>
      have emits : ∀ longer, token <+: longer → Noting only
          (emitWith network (leftActivate network view depth) id longer) :=
        fun longer starts => emitWith_noting
          (fun child => ih (fun live within => finds live (starts.trans within)) child) id
      unfold leftActivate
      dsimp only
      split
      · exact .pure _
      · exact .get_bind fun _ => joinFacts_noting fun handle => emits _ (List.prefix_append ..)
      · exact .get_bind fun _ => .bind (matching_noting ..) fun _ =>
          .ite (emits _ (List.prefix_refl _)) (.change fun _ => .of_eq rfl)
      · exact .bind (.lift _) fun _ => .ite (emits _ (List.prefix_refl _)) (.pure _)
      · next live => exact .change fun _ => .note (finds live (List.prefix_refl _))
      · exact .throw _
      · exact .throw _

private theorem emit_noting {token : Tuple} (finds : Matching.MayFind network only (token <+: ·))
    (id : NodeId) : Noting only (emit network view id token) :=
  emitWith_noting (fun child => leftActivate_noting finds _ child) id

/-! ## A fact that comes in -/

variable {handle : Handle}

private theorem alphaPass_noting (fact : Object) (depth : Nat) (id : NodeId) :
    Noting only (alphaPass network view handle fact depth id) := by
  induction depth generalizing id with
  | zero => exact .throw _
  | succ depth ih =>
      unfold alphaPass
      split
      · exact .pure _
      · dsimp only
        split
        · exact .bind (.lift _) fun _ => .ite (.pure _) <|
            .bind (.change fun _ => .of_eq rfl) fun _ =>
              .bind (.mapM fun child _ => ih child) fun _ => .pure _
        · exact .bind (.pure _) fun _ => .ite (.pure _) <|
            .bind (.change fun _ => .of_eq rfl) fun _ =>
              .bind (.mapM fun child _ => ih child) fun _ => .pure _

section

variable (finds : Matching.MayFind network only (handle ∈ ·))
  (loses : Matching.MayLose network only fun _ => True)

include finds loses

private theorem rightActivateJoin_noting (fact : Object) (id : NodeId) :
    Noting only (rightActivateJoin network view handle fact id) := by
  unfold rightActivateJoin
  split
  · refine .get_bind fun _ => .forM fun token _ => .bind (.lift _) fun _ =>
      .ite (.ite (.change fun state => ?_) (emit_noting (fun live starts => ?_) _)) (.pure _)
    · exact Matching.block_notes (fun live _ => loses live trivial) _ handle state
    · have last : handle ∈ token ++ [handle] :=
        List.mem_append_right _ (List.mem_singleton_self _)
      exact finds live (starts.subset last)
  · exact .pure _

private theorem rightActivate_noting (fact : Object) (id : NodeId) :
    Noting only (rightActivate network view handle fact id) := by
  unfold rightActivate
  split
  · exact .pure _
  · exact .forM fun join _ => rightActivateJoin_noting finds loses fact join

/-- All matches that are found when a fact comes in have the fact. -/
theorem assert_noting : Noting only (assert network view handle) := by
  refine .bind (.lift _) fun fact => ?_
  split
  · exact .pure _
  · exact .bind (alphaPass_noting ..) fun passed =>
      .forM fun id _ => rightActivate_noting finds loses fact id

end

/-! ## A fact that is taken back -/

private theorem alphaHolders_noting (depth : Nat) (id : NodeId) :
    Noting only (alphaHolders network handle depth id) := by
  induction depth generalizing id with
  | zero => exact .throw _
  | succ depth ih =>
      unfold alphaHolders
      refine .get_bind fun _ => .ite (.pure _) (.bind (.change fun _ => .of_eq rfl) fun _ => ?_)
      split
      · exact .pure _
      · exact .bind (.mapM fun child _ => ih child) fun _ => .pure _

section

variable (finds : Matching.MayFind network only fun _ => True)
  (loses : Matching.MayLose network only (handle ∈ ·))

include loses

private theorem rightRetractJoin_noting (id : NodeId) :
    Noting only (rightRetractJoin network handle id) := by
  unfold rightRetractJoin
  split
  · refine .get_bind fun _ => ?_
    split
    · exact .pure _
    · exact .bind (.change fun _ => .of_eq rfl) fun _ => .pure _
  · refine .get_bind fun before => .bind (.change fun state => ?_) fun _ => .pure _
    -- The tokens that are dropped end with the fact.
    refine .foldl (fun token member state => ?_) state
    have last := beq_iff_eq.mp (List.mem_filter.mp member).2
    refine Matching.retractOutput_notes (fun {_ _ _ stem} live same => ?_) state id
    exact loses live (same ▸ List.mem_of_getLast? last)
  · exact .pure _

private theorem rightRetract_noting (id : NodeId) :
    Noting only (rightRetract network handle id) := by
  unfold rightRetract
  split
  · exact .pure _
  · exact .bind (.mapM fun join _ => rightRetractJoin_noting loses join) fun _ => .pure _

omit loses in
include finds in
private theorem unblock_noting (id : NodeId) (token : Tuple) :
    Noting only (unblock network view id token) := by
  unfold unblock
  split
  · exact .get_bind fun _ => .ite (emit_noting (fun live _ => finds live trivial) id) (.pure _)
  · exact .pure _

include finds in
/-- All matches that are lost when a fact is taken back have the fact. -/
theorem retract_noting : Noting only (retract network view handle) := by
  refine .bind (.lift _) fun fact => ?_
  split
  · exact .pure _
  · exact .bind (alphaHolders_noting ..) fun holders =>
      .bind (.mapM fun id _ => rightRetract_noting loses id) fun freed =>
        .forM fun place _ => unblock_noting finds place.1 place.2

end

/-! ## Changes of the complete matches -/

/-- Asserting a fact finds no match without it. -/
theorem assert_notes :
    Noting (MatchChange.FindsOnlyWith handle) (assert network view handle) :=
  assert_noting (fun _ within => within) fun _ _ => trivial

/-- Retracting a fact loses no match without it. -/
theorem retract_notes :
    Noting (MatchChange.LosesOnlyWith handle) (retract network view handle) :=
  retract_noting (fun _ _ => trivial) fun _ within => within

end MatchM

end Rete
