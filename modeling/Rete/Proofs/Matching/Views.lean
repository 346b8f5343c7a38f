import Rete.Proofs.Evaluation
import Rete.Proofs.Knowledge
import Rete.Proofs.Matching.Following

/-!
# Memories under other views

Where no rule reads a global (`Rule.Quiet`), neither does a node (`Network.Proper.quiet`), and what
its tests say does not change with the globals or with facts that the network does not hold
(`FactView.Shares`). So exact memories stay exact under such a view, and with the same globals
whatever the rules read (`Exact.transfer`).
-/

namespace Rete

/-- The tests of a condition. -/
def Condition.tests : Condition → List Expr
  | pattern given => given.alpha ++ given.beta
  | eval test => [test]

/-- No condition of the rule reads a global, nor does a function that it leads to. -/
def Rule.Quiet (rule : Rule) : Prop :=
  ∀ condition ∈ rule.conditions, ∀ test ∈ condition.tests, rule.functions.Quiet test

/-! ## Views that show the same -/

namespace FactView

variable {view other : FactView} {shown : Handle → Prop}

/-- Two views show the same of some facts; their globals may be others. -/
structure Shares (view other : FactView) (shown : Handle → Prop) : Prop where
  catalog : view.catalog = other.catalog
  callDepth : view.callDepth = other.callDepth
  facts : ∀ handle, shown handle → view.facts.find? handle = other.facts.find? handle

private theorem Shares.tupleFact_congr (shares : view.Shares other shown)
    {functions others : FunctionTable}
    {depth limit : Nat} {scope : MatchScope} (within : ∀ handle ∈ scope.tuple, shown handle)
    (index : Nat) :
    Evaluation.tupleFact ⟨view.catalog, functions, depth, view.facts, .readOnly⟩ scope index =
      Evaluation.tupleFact ⟨other.catalog, others, limit, other.facts, .readOnly⟩ scope index := by
  unfold Evaluation.tupleFact
  cases found : scope.tuple[index]? with
  | none => rfl
  | some handle =>
      simp only [shares.facts handle (within handle (List.mem_of_getElem? found))]

/-- A quiet test says the same of facts that two views share. -/
theorem Shares.holds_congr (shares : view.Shares other shown) {functions others : FunctionTable}
    {test : Expr} (quiet : functions.Quiet test)
    (table : functions = others ∨ test.callsLocal = false) {scope elsewhere : MatchScope}
    (current : scope.current = elsewhere.current)
    (tuple : test.readsTuple = true →
      scope.tuple = elsewhere.tuple ∧ ∀ handle ∈ scope.tuple, shown handle) :
    view.holds functions scope test = other.holds others elsewhere test := by
  unfold holds
  apply Evaluation.test_congr quiet shares.catalog shares.callDepth table current
  intro reads index
  obtain ⟨same, within⟩ := tuple reads
  rw [shares.tupleFact_congr within index]
  unfold Evaluation.tupleFact
  rw [same]

/-- A test says the same of facts that two views share, if it is quiet or the globals are the
same. -/
theorem Shares.holds_same (shares : view.Shares other shown) {functions : FunctionTable}
    {test : Expr} (quiet : view.globals = other.globals ∨ functions.Quiet test)
    {scope : MatchScope} (within : ∀ handle ∈ scope.tuple, shown handle) :
    view.holds functions scope test = other.holds functions scope test := by
  rcases quiet with globals | quiet
  · unfold holds
    rw [globals]
    apply Evaluation.test_congr_of_globals
    · exact shares.catalog
    · rfl
    · exact shares.callDepth
    · exact shares.tupleFact_congr within
  · exact shares.holds_congr quiet (.inl rfl) rfl fun _ => ⟨rfl, within⟩

/-- All tests hold if each of them does. -/
theorem allHold_eq_true {functions : FunctionTable} {scope : MatchScope} {tests : List Expr} :
    view.allHold functions scope tests = .ok true ↔
      ∀ test ∈ tests, view.holds functions scope test = .ok true := by
  induction tests with
  | nil => exact iff_of_true rfl fun test none => absurd none List.not_mem_nil
  | cons test rest ih =>
      rw [List.forall_mem_cons, ← ih]
      change (do
        if ← view.holds functions scope test then view.allHold functions scope rest
        else return false) = _ ↔ _
      cases view.holds functions scope test with
      | error error => exact iff_of_false (fun same => by cases same) fun both => by cases both.1
      | ok holds =>
          cases holds with
          | true => exact (and_iff_right rfl).symm
          | false => exact iff_of_false (fun same => by cases same) fun both => by cases both.1

private theorem Shares.joins_congr (shares : view.Shares other shown) {functions : FunctionTable}
    {tests : List Expr}
    (quiet : ∀ test ∈ tests, view.globals = other.globals ∨ functions.Quiet test) {tuple : Tuple}
    (within : ∀ handle ∈ tuple, shown handle) {fact : Handle} (here : shown fact) :
    view.Joins functions tests tuple fact ↔ other.Joins functions tests tuple fact := by
  unfold Joins
  rw [shares.facts fact here]
  refine exists_congr fun object => and_congr_right fun _ => ?_
  rw [allHold_eq_true, allHold_eq_true]
  refine forall_congr' fun test => forall_congr' fun member => ?_
  rw [shares.holds_same (quiet test member) within]

end FactView

/-! ## Networks that read no globals -/

namespace Network

variable {network : Network}

/-- No node reads a global. -/
def Quiet (network : Network) : Prop :=
  ∀ {id kind own}, network.kind? id = some kind → kind.table? = some own →
    ∀ test ∈ kind.tests, own.Quiet test

/-- Tests that are quiet with the functions of a rule are so with those of a node of its scope. -/
theorem SameScope.quiet {own functions : FunctionTable} {tests : List Expr}
    (scope : SameScope own functions tests)
    (unique : own.package = functions.package → own = functions)
    (quiet : ∀ test ∈ tests, functions.Quiet test) : ∀ test ∈ tests, own.Quiet test := by
  intro test member
  rcases scope.table unique with same | none
  · exact same ▸ quiet test member
  · exact (quiet test member).of_not_callsLocal (none test member)

/-- The nodes read no global if the rules do not. -/
theorem Proper.quiet {provided : FunctionTable → Prop} (proper : network.Proper provided)
    (unique : ∀ {own other}, provided own → provided other → own.package = other.package →
      own = other)
    (rules : ∀ {id rule}, network.rule? id = some rule → rule.Quiet) : network.Quiet := by
  intro id kind own live isOwn
  obtain ⟨rule, entry, found, explains⟩ := proper.sound.explained live
  have quiet : entry.rule.Quiet := by
    apply rules
    rw [rule?, found]
    rfl
  have same := unique (proper.node live isOwn) (proper.rule found).2
  cases kind with
  | objectType | terminal => cases isOwn
  | alpha parent test functions =>
      cases isOwn
      obtain ⟨⟨pattern, member, isTest⟩, scope⟩ := explains
      apply scope.quiet same
      intro other isOther
      rw [List.mem_singleton.mp isOther]
      exact quiet _ member test (List.mem_append_left _ isTest)
  | join left right tests negated functions =>
      cases isOwn
      obtain ⟨⟨pattern, member, rfl, -⟩, scope⟩ := explains
      apply scope.quiet same
      intro test isTest
      exact quiet _ member test (List.mem_append_right _ isTest)
  | eval left test functions =>
      cases isOwn
      obtain ⟨member, scope⟩ := explains
      apply scope.quiet same
      intro other isOther
      rw [List.mem_singleton.mp isOther]
      exact quiet _ member test (List.mem_singleton_self test)

end Network

/-! ## Exact memories -/

namespace Matching

variable {network : Network} {base elsewhere : Agenda} {view other : FactView} {facts : Facts}
  {state after : Matching}

/-- A place that is settled stays so with an agenda that tracks the same matches, under a view that
shows the same of the facts that its tests are on. -/
theorem Settled.transfer {right : NodeId → Handle → Prop} {shown : Handle → Prop} {id : NodeId}
    {kind : NodeKind} {tuple : Tuple}
    (settled : Settled network base view right state id tuple kind)
    (quiet : ∀ {own}, kind.table? = some own → ∀ test ∈ kind.tests,
      view.globals = other.globals ∨ own.Quiet test)
    (shares : view.Shares other shown) (within : ∀ handle ∈ tuple, shown handle)
    (stands : ∀ {fact}, right id fact → shown fact) (memory : after.memory = state.memory)
    (known : ∀ found, (state.agenda base).knows found = true →
      (after.agenda elsewhere).knows found = true) :
    Settled network elsewhere other right after id tuple kind := by
  have tokens := token_cell_of_memory network base elsewhere memory
  have blockeds := blocked_cell_of_memory network base elsewhere memory
  cases kind with
  | join left right' tests negated functions =>
      have joins : ∀ fact, right id fact ∧ view.Joins functions tests tuple fact ↔
          right id fact ∧ other.Joins functions tests tuple fact := fun fact =>
        and_congr_right fun here => shares.joins_congr (quiet rfl) within (stands here)
      cases negated with
      | true =>
          obtain ⟨blocked, token⟩ := settled
          refine ⟨fun fact => ?_, ?_⟩
          · rw [← joins, blockeds]
            exact blocked fact
          · rw [tokens, blockeds]
            exact token
      | false =>
          intro fact
          rw [tokens, ← joins]
          exact settled fact
  | eval left test functions =>
      change (after.cell network elsewhere id tuple).token = true ↔ _
      rw [tokens, ← shares.holds_same (quiet rfl test (List.mem_singleton_self test)) within]
      exact settled
  | terminal left terminal =>
      intro none
      refine settled ?_
      cases found : (state.cell network base id tuple).matched with
      | none => rfl
      | some kept =>
          obtain ⟨_, isTerminal, isLive, tracked⟩ := Network.matchState?_eq_some.mp found
          obtain ⟨later, isLater⟩ := SortedMap.contains_eq_true.mp
            (known _ (SortedMap.contains_eq_true.mpr ⟨kept, tracked⟩))
          have matched : (after.cell network elsewhere id tuple).matched = some later :=
            Network.matchState?_eq_some.mpr ⟨_, isTerminal, isLive, isLater⟩
          cases none.symm.trans matched
  | objectType | alpha => exact trivial

/-- Exact memories stay exact with an agenda that tracks the same matches, under a view that shows
the same of the facts that are held. -/
theorem Exact.transfer (exact : Exact network base view facts state) (sound : network.Sound)
    (coherent : Coherent network base (OnRight network state.memory) state)
    (quiet : view.globals = other.globals ∨ network.Quiet)
    (shares : view.Shares other fun handle =>
      ∃ id, (state.memory.factsAt id).contains handle = true)
    (memory : after.memory = state.memory)
    (known : ∀ found, (state.agenda base).knows found = true →
      (after.agenda elsewhere).knows found = true) :
    Exact network elsewhere other facts after where
  seeded := by
    rw [memory]
    exact exact.seeded
  held {id kind} live handle := by
    rw [memory, exact.held live]
    cases kind with
    | alpha parent test functions =>
        apply and_congr_right
        intro above
        rw [shares.facts handle ⟨parent, above⟩]
        refine exists_congr fun fact => and_congr_right fun _ => ?_
        have isQuiet := quiet.imp_right fun quiet => quiet live rfl test
          (List.mem_singleton_self test)
        rw [shares.holds_same isQuiet fun _ none => absurd none List.not_mem_nil]
    | objectType | join | eval | terminal => exact Iff.rfl
  settled {id kind left tuple} live isLeft offered := by
    have before : Offered network base state left tuple :=
      offered.transfer (by rw [memory]) fun id tuple =>
        (token_cell_of_memory network base elsewhere memory id tuple).symm
    obtain ⟨arity, isArity⟩ := sound.wellFormed.exists_left_arity sound.accounted live isLeft
    have within : ∀ handle ∈ tuple, ∃ id, (state.memory.factsAt id).contains handle = true :=
      fun handle member => coherent.holds isArity before member
    rw [memory]
    refine (exact.settled live isLeft before).transfer
      (fun isOwn test member => quiet.imp_right fun quiet => quiet live isOwn test member) shares
      within ?_ memory known
    rintro fact ⟨input, -, held⟩
    exact ⟨input, held⟩

end Matching

end Rete
