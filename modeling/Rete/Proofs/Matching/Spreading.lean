import Rete.Proofs.Matching.Coherence

/-!
# What propagation adds

A token that goes down the network adds to what is kept behind the node that let it through, and to
nothing else (`Spread`). A place, which is a node with a tuple offered on its left, is settled if
what is kept for it is what its tests say of the facts on its right (`Settled`); a place whose
cells stay is as settled as it was (`Settled.congr`).
-/

namespace Rete

/-- A fact matches a tuple at a join. -/
def FactView.Joins (view : FactView) (functions : FunctionTable) (tests : List Expr)
    (tuple : Tuple) (fact : Handle) : Prop :=
  ∃ object, view.facts.find? fact = some object ∧
    view.allHold functions ⟨tuple, some object⟩ tests = .ok true

namespace Matching

variable {network : Network} {base : Agenda} {state mid after : Matching}

/-! ## Spreading -/

/-- Something is added to a part of what is kept. -/
structure Spread (network : Network) (base : Agenda) (state : Matching)
    (region : NodeId → Tuple → Prop) (after : Matching) : Prop where
  seeded : after.memory.seeded = state.memory.seeded
  alpha : after.memory.alpha = state.memory.alpha
  firing : (after.agenda base).firing = (state.agenda base).firing
  nextSequence : (state.agenda base).nextSequence ≤ (after.agenda base).nextSequence
  token : ∀ {id tuple}, (state.cell network base id tuple).token = true →
    (after.cell network base id tuple).token = true
  blocked : ∀ {id tuple facts}, (state.cell network base id tuple).blocked = some facts →
    (after.cell network base id tuple).blocked = some facts
  matched : ∀ {id tuple found}, (state.cell network base id tuple).matched = some found →
    (after.cell network base id tuple).matched = some found
  /-- A new match waits under a new number, or is suppressed. -/
  new : ∀ {id tuple found}, (after.cell network base id tuple).matched = some found →
    (state.cell network base id tuple).matched = some found ∨ found = .settled .suppressed ∨
      ∃ key, found = .pending key ∧ (state.agenda base).nextSequence ≤ key.sequence ∧
        key.sequence < (after.agenda base).nextSequence
  known : ∀ {found}, (after.agenda base).knows found = true →
    (state.agenda base).knows found = true ∨ ∃ id left terminal,
      network.kind? id = some (.terminal left terminal) ∧ terminal.rule = found.rule
  outside : ∀ {id tuple}, ¬ region id tuple →
    after.cell network base id tuple = state.cell network base id tuple

namespace Spread

variable {region other : NodeId → Tuple → Prop}

/-- Nothing is added. -/
theorem refl (state : Matching) : Spread network base state region state where
  seeded := rfl
  alpha := rfl
  firing := rfl
  nextSequence := Nat.le_refl _
  token here := here
  blocked here := here
  matched here := here
  new here := .inl here
  known here := .inl here
  outside _ := rfl

/-- Something is added in two steps. -/
theorem trans (first : Spread network base state region mid)
    (second : Spread network base mid region after) :
    Spread network base state region after where
  seeded := second.seeded.trans first.seeded
  alpha := second.alpha.trans first.alpha
  firing := second.firing.trans first.firing
  nextSequence := Nat.le_trans first.nextSequence second.nextSequence
  token here := second.token (first.token here)
  blocked here := second.blocked (first.blocked here)
  matched here := second.matched (first.matched here)
  new {id tuple found} here := by
    rcases second.new here with before | suppressed | ⟨key, pending, from_, below⟩
    · rcases first.new before with old | suppressed | ⟨key, pending, from_, below⟩
      · exact .inl old
      · exact .inr (.inl suppressed)
      · exact .inr (.inr ⟨key, pending, from_, Nat.lt_of_lt_of_le below second.nextSequence⟩)
    · exact .inr (.inl suppressed)
    · exact .inr (.inr ⟨key, pending, Nat.le_trans first.nextSequence from_, below⟩)
  known here := (second.known here).elim first.known .inr
  outside outside := (second.outside outside).trans (first.outside outside)

/-- What is added to a part is added to every larger one. -/
theorem mono (spread : Spread network base state region after)
    (within : ∀ {id tuple}, region id tuple → other id tuple) :
    Spread network base state other after :=
  { spread with outside := fun outside => spread.outside (mt within outside) }

/-- What was offered still is. -/
theorem offered (spread : Spread network base state region after) {left : Option NodeId}
    {tuple : Tuple} (offered : Offered network base state left tuple) :
    Offered network base after left tuple := by
  cases left with
  | none => exact ⟨spread.seeded.trans offered.1, offered.2⟩
  | some id => exact spread.token offered

/-- Outside of the part, nothing new is offered. -/
theorem offered_before (spread : Spread network base state region after) {left : Option NodeId}
    {tuple : Tuple} (offered : Offered network base after left tuple)
    (outside : ∀ id, left = some id → ¬ region id tuple) :
    Offered network base state left tuple := by
  cases left with
  | none => exact ⟨spread.seeded.symm.trans offered.1, offered.2⟩
  | some id => exact (congrArg Cell.token (spread.outside (outside id rfl))).symm.trans offered

/-- Adding something takes no support from a tuple. -/
theorem supports (spread : Spread network base state region after)
    {right : NodeId → Handle → Prop} {id : NodeId} {kind : NodeKind} {tuple : Tuple}
    (supports : Supports network base right state id kind tuple) :
    Supports network base right after id kind tuple :=
  supports.mono spread.offered fun stands => stands

end Spread

/-- The facts on the right of joins are those that the memories hold. -/
def Reads (network : Network) (right : NodeId → Handle → Prop) (memory : NetworkMemory) : Prop :=
  ∀ {id kind input}, network.kind? id = some kind → kind.right? = some input → ∀ fact,
    right id fact ↔ (memory.factsAt input).contains fact = true

/-- The facts on the right are read off the alpha level only. -/
theorem Reads.congr {right : NodeId → Handle → Prop} {memory other : NetworkMemory}
    (reads : Reads network right memory) (same : other.alpha = memory.alpha) :
    Reads network right other := by
  intro id kind input live isRight fact
  rw [reads live isRight, NetworkMemory.factsAt_congr same]

/-! ## Settled places -/

/-- What is kept for a tuple that a node is offered is what its tests say. -/
def Settled (network : Network) (base : Agenda) (view : FactView)
    (right : NodeId → Handle → Prop) (state : Matching) (id : NodeId) (tuple : Tuple) :
    NodeKind → Prop
  | .join _ _ tests false functions => ∀ fact,
      (state.cell network base id (tuple ++ [fact])).token = true ↔
        right id fact ∧ view.Joins functions tests tuple fact
  | .join _ _ tests true functions =>
      (∀ fact, (∃ facts, (state.cell network base id tuple).blocked = some facts ∧
          facts.contains fact = true) ↔ right id fact ∧ view.Joins functions tests tuple fact) ∧
        ((state.cell network base id tuple).token = true ↔
          (state.cell network base id tuple).blocked = none)
  | .eval _ test functions => (state.cell network base id tuple).token = true ↔
      view.holds functions { tuple } test = .ok true
  | .terminal .. => (state.cell network base id tuple).matched ≠ none
  | .objectType _ | .alpha .. => True

/-- What is kept for a tuple at a node decides whether the place is settled. -/
theorem Settled.congr {other : Agenda} {view : FactView} {right : NodeId → Handle → Prop}
    {id : NodeId} {tuple : Tuple} {kind : NodeKind}
    (settled : Settled network base view right state id tuple kind)
    (same : ∀ longer, tuple <+: longer →
      after.cell network other id longer = state.cell network base id longer) :
    Settled network other view right after id tuple kind := by
  have own := same tuple (List.prefix_refl _)
  cases kind with
  | join left input tests negated functions =>
      cases negated with
      | true =>
          obtain ⟨blocked, token⟩ := settled
          exact ⟨own ▸ blocked, own ▸ token⟩
      | false =>
          intro fact
          rw [same (tuple ++ [fact]) (List.prefix_append ..)]
          exact settled fact
  | eval left test functions =>
      change (after.cell network other id tuple).token = true ↔ _
      rw [own]
      exact settled
  | terminal left terminal =>
      change (after.cell network other id tuple).matched ≠ none
      rw [own]
      exact settled
  | objectType | alpha => exact trivial

/-- Which facts stand on the right of a node is all that matters of the right. -/
theorem Settled.of_right {view : FactView} {right right' : NodeId → Handle → Prop} {id : NodeId}
    {tuple : Tuple} {kind : NodeKind}
    (settled : Settled network base view right state id tuple kind)
    (same : ∀ fact, right' id fact ↔ right id fact) :
    Settled network base view right' state id tuple kind := by
  cases kind with
  | join left input tests negated functions =>
      cases negated with
      | true =>
          refine ⟨fun fact => ?_, settled.2⟩
          rw [same]
          exact settled.1 fact
      | false =>
          intro fact
          rw [same]
          exact settled fact
  | eval | terminal | objectType | alpha => exact settled

/-! ## Tokens at negated joins -/

/-- A negated join lets every tuple on its left through or holds it back, except where excused. -/
structure Covers (network : Network) (base : Agenda) (state : Matching)
    (excused : NodeId → Tuple → Prop) : Prop where
  place : ∀ {id left input tests functions tuple},
    network.kind? id = some (.join left input tests true functions) →
    Offered network base state left tuple →
    (state.cell network base id tuple).Covered ∨ excused id tuple

/-- What is excused may turn out to be covered, or to be excused otherwise. -/
theorem Covers.resolve {excused more : NodeId → Tuple → Prop}
    (covers : Covers network base state excused)
    (each : ∀ {id left input tests functions tuple},
      network.kind? id = some (.join left input tests true functions) →
      Offered network base state left tuple → excused id tuple →
        (state.cell network base id tuple).Covered ∨ more id tuple) :
    Covers network base state more :=
  ⟨fun live offered => (covers.place live offered).elim .inl (each live offered)⟩

/-- With more excused, less has to be covered. -/
theorem Covers.mono {excused more : NodeId → Tuple → Prop}
    (covers : Covers network base state excused)
    (within : ∀ {id tuple}, excused id tuple → more id tuple) : Covers network base state more :=
  covers.resolve fun _ _ here => .inr (within here)

/-- The tuples that a fact is part of, and others. -/
def Along (excused : NodeId → Tuple → Prop) (fact : Handle) (id : NodeId) (tuple : Tuple) : Prop :=
  excused id tuple ∨ fact ∈ tuple

/-- Where the same is kept, the same is covered. -/
theorem Covers.congr {other : Agenda} {excused : NodeId → Tuple → Prop}
    (covers : Covers network base state excused)
    (seeded : after.memory.seeded = state.memory.seeded)
    (tokens : ∀ id tuple, (after.cell network other id tuple).token =
      (state.cell network base id tuple).token)
    (held : ∀ id tuple, (after.cell network other id tuple).blocked =
      (state.cell network base id tuple).blocked) : Covers network other after excused := by
  refine ⟨fun {id left input tests functions tuple} live offered => ?_⟩
  have before : Offered network base state left tuple :=
    offered.transfer seeded.symm fun via longer => (tokens via longer).symm
  refine (covers.place live before).imp_left fun covered => ?_
  rw [Cell.Covered, tokens, held]
  exact covered

/-- What is added takes nothing away. -/
theorem Spread.covered {region : NodeId → Tuple → Prop}
    (spread : Spread network base state region after) {id : NodeId} {tuple : Tuple}
    (covered : (state.cell network base id tuple).Covered) :
    (after.cell network base id tuple).Covered := by
  refine covered.imp spread.token fun held => ?_
  obtain ⟨facts, blocked⟩ := Option.ne_none_iff_exists'.mp held
  exact Option.ne_none_iff_exists'.mpr ⟨facts, spread.blocked blocked⟩

/-- A tuple that is settled at a negated join is let through or held back. -/
theorem Settled.covered {view : FactView} {right : NodeId → Handle → Prop} {id input : NodeId}
    {left : Option NodeId} {tests : List Expr} {functions : FunctionTable} {tuple : Tuple}
    (settled : Settled network base view right state id tuple
      (.join left input tests true functions)) : (state.cell network base id tuple).Covered := by
  by_cases free : (state.cell network base id tuple).blocked = none
  · exact .inl (settled.2.mpr free)
  · exact .inr free

end Matching

end Rete
