import Rete.Proofs.Matching.Views

/-!
# Matching by brute force

The tuples that a rule matches, found by going through all live facts for one condition after the
other (`Rule.bruteForce`). Exact memories offer the same tuples behind the nodes of the conditions
(`Exact.offered_iff_bruteForce`), so the two ways to match can be compared.
-/

namespace Rete

/-- Whether a test is true; a test that fails is not. -/
def FactView.isTrue (view : FactView) (functions : FunctionTable) (scope : MatchScope)
    (test : Expr) : Bool :=
  match view.holds functions scope test with
  | .ok holds => holds
  | .error _ => false

private theorem FactView.isTrue_iff {view : FactView} {functions : FunctionTable}
    {scope : MatchScope} {test : Expr} : view.isTrue functions scope test = true ↔
      view.holds functions scope test = .ok true := by
  unfold isTrue
  cases view.holds functions scope test with
  | error error => exact iff_of_false Bool.false_ne_true fun same => by cases same
  | ok holds => exact ⟨fun isTrue => congrArg _ isTrue, fun same => Except.ok.inj same⟩

/-- Whether a fact is of the type of a pattern and passes all its tests, behind the facts that
were matched before. -/
def Pattern.admits (pattern : Pattern) (view : FactView) (functions : FunctionTable)
    (tuple : Tuple) (fact : Object) : Bool :=
  fact.typeName == pattern.type.fullName &&
    (pattern.alpha ++ pattern.beta).all (view.isTrue functions ⟨tuple, some fact⟩)

/-- The live facts that a pattern admits behind a tuple. -/
def Pattern.admitted (pattern : Pattern) (view : FactView) (functions : FunctionTable)
    (tuple : Tuple) : List Handle :=
  (view.facts.filter fun _ fact => pattern.admits view functions tuple fact).keys

namespace Condition

/-- The tuples that a condition makes of those that matched the conditions before it: a pattern
extends each by every fact that it admits, a negated one keeps those behind which it admits none,
and a test keeps those for which it is true. -/
def extend (view : FactView) (functions : FunctionTable) (tuples : List Tuple) :
    Condition → List Tuple
  | .pattern given =>
    if given.negated then
      tuples.filter fun tuple => (given.admitted view functions tuple).isEmpty
    else
      tuples.flatMap fun tuple =>
        (given.admitted view functions tuple).map fun handle => tuple ++ [handle]
  | .eval test => tuples.filter fun tuple => view.isTrue functions { tuple } test

/-- The tuples that match conditions, from the empty one on. -/
def matching (view : FactView) (functions : FunctionTable) (conditions : List Condition) :
    List Tuple :=
  conditions.foldl (extend view functions) [[]]

private theorem matching_concat (view : FactView) (functions : FunctionTable)
    (conditions : List Condition) (last : Condition) :
    matching view functions (conditions ++ [last]) =
      extend view functions (matching view functions conditions) last := by
  unfold matching
  rw [List.foldl_append]
  rfl

end Condition

/-- The tuples that a rule matches. -/
def Rule.bruteForce (view : FactView) (rule : Rule) : List Tuple :=
  Condition.matching view rule.functions rule.conditions

private theorem Pattern.mem_admitted {pattern : Pattern} {view : FactView}
    {functions : FunctionTable} {tuple : Tuple} {handle : Handle} :
    handle ∈ pattern.admitted view functions tuple ↔ ∃ fact, view.facts.find? handle = some fact ∧
      fact.typeName = pattern.type.fullName ∧ ∀ test ∈ pattern.alpha ++ pattern.beta,
        view.holds functions ⟨tuple, some fact⟩ test = .ok true := by
  unfold admitted
  rw [SortedMap.mem_keys, SortedMap.contains_eq_true]
  apply exists_congr
  intro fact
  rw [SortedMap.find?_filter, Option.filter_eq_some_iff]
  apply and_congr_right
  intro _
  unfold admits
  rw [Bool.and_eq_true, beq_iff_eq, List.all_eq_true]
  simp only [FactView.isTrue_iff]

namespace Matching

variable {network : Network} {base : Agenda} {view : FactView} {state : Matching}
  {functions : FunctionTable}

/-! ## What exact memories let through -/

namespace Exact

variable {id right : NodeId} {left : Option NodeId} {tests : List Expr} {test : Expr}
  {tuple : Tuple} {facts : Facts} (exact : Exact network base view facts state)
  (coherent : Coherent network base (OnRight network state.memory) state)

include exact coherent

/-- A join extends what it is offered by each fact on its right for which the tests hold. -/
theorem token_iff_of_join
    (live : network.kind? id = some (.join left right tests false functions)) :
    (state.cell network base id tuple).token = true ↔
      ∃ origin, Offered network base state left origin ∧ ∃ handle,
        (OnRight network state.memory id handle ∧ view.Joins functions tests origin handle) ∧
          origin ++ [handle] = tuple := by
  constructor
  · intro token
    obtain ⟨origin, handle, rfl, offered, -⟩ := coherent.supports live token
    exact ⟨origin, offered, handle, (exact.settled live rfl offered handle).mp token, rfl⟩
  · rintro ⟨origin, offered, handle, joins, rfl⟩
    exact (exact.settled live rfl offered handle).mpr joins

/-- A negated join lets through what it is offered, unless the tests hold for a fact on its
right. -/
theorem token_iff_of_negated
    (live : network.kind? id = some (.join left right tests true functions)) :
    (state.cell network base id tuple).token = true ↔ Offered network base state left tuple ∧
      ∀ handle, ¬ (OnRight network state.memory id handle ∧
        view.Joins functions tests tuple handle) := by
  constructor
  · intro token
    have offered := coherent.supports live token
    obtain ⟨blocked, -⟩ := exact.settled live rfl offered
    refine ⟨offered, fun handle joins => ?_⟩
    obtain ⟨facts, isBlocked, -⟩ := (blocked handle).mpr joins
    cases (coherent.free_of_token token).symm.trans isBlocked
  · rintro ⟨offered, none⟩
    obtain ⟨blocked, free⟩ := exact.settled live rfl offered
    refine free.mpr (Option.eq_none_iff_forall_ne_some.mpr fun facts isBlocked => ?_)
    obtain ⟨_, _, _, _, _, _, nonempty, _⟩ := coherent.blocked isBlocked
    obtain ⟨handle, present⟩ := SortedMap.isEmpty_eq_false_iff.mp nonempty
    exact none handle ((blocked handle).mp ⟨facts, isBlocked, present⟩)

/-- A test lets through what it is offered and is true for. -/
theorem token_iff_of_eval (live : network.kind? id = some (.eval left test functions)) :
    (state.cell network base id tuple).token = true ↔ Offered network base state left tuple ∧
      view.holds functions { tuple } test = .ok true := by
  constructor
  · intro token
    have offered := coherent.supports live token
    exact ⟨offered, (exact.settled live rfl offered).mp token⟩
  · rintro ⟨offered, holds⟩
    exact (exact.settled live rfl offered).mpr holds

end Exact

/-! ## Exact memories and brute force -/

section

variable (quiet : network.Quiet)
  (tables : ∀ {id kind own}, network.kind? id = some kind → kind.table? = some own →
    own.package = functions.package → own = functions)

include quiet tables

/-- A test says the same at its node and in the rule that the node is there for. -/
theorem holds_of_node {id : NodeId} {kind : NodeKind} {own : FunctionTable}
    (live : network.kind? id = some kind) (isOwn : kind.table? = some own)
    (scope : Network.SameScope own functions kind.tests) {test : Expr} (member : test ∈ kind.tests)
    {here there : MatchScope} (current : here.current = there.current)
    (tuple : test.readsTuple = true → here.tuple = there.tuple) :
    view.holds own here test = view.holds functions there test := by
  have shares : view.Shares view fun _ => True := ⟨rfl, rfl, fun _ _ => rfl⟩
  apply shares.holds_congr (quiet live isOwn test member) _ current
  · exact fun reads => ⟨tuple reads, fun _ _ => trivial⟩
  · exact (scope.table (tables live isOwn)).imp_right fun none => none test member

variable (exact : Exact network base view view.facts state)

include exact

/-- A node on the alpha level holds the live facts of its type for which the tests above hold. -/
theorem held_iff_of_carries {typeName : String} {id : NodeId} {tests : List Expr}
    (carries : Network.CarriesTests network functions typeName id tests)
    (split : ∀ test ∈ tests, test.readsTuple = false) (tuple : Tuple) (handle : Handle) :
    (state.memory.factsAt id).contains handle = true ↔ ∃ fact,
      view.facts.find? handle = some fact ∧ fact.typeName = typeName ∧ ∀ test ∈ tests,
        view.holds functions ⟨tuple, some fact⟩ test = .ok true := by
  induction carries with
  | entry live =>
      rw [exact.held live]
      refine exists_congr fun fact => and_congr_right fun _ => ?_
      exact (and_iff_left fun test none => absurd none List.not_mem_nil).symm
  | @test id parent tests test own above live scope ih =>
      have same : ∀ fact, view.holds own { current := some fact } test =
          view.holds functions ⟨tuple, some fact⟩ test := by
        intro fact
        refine holds_of_node quiet tables live rfl scope (List.mem_singleton_self test) rfl ?_
        intro reads
        exact absurd reads (Bool.eq_false_iff.mp (split test List.mem_concat_self))
      rw [exact.held live]
      constructor
      · intro admitted
        obtain ⟨inParent, object, isObject, holds⟩ := admitted
        obtain ⟨fact, isFact, isType, each⟩ := (ih fun other member =>
          split other (List.mem_append_left _ member)).mp inParent
        obtain rfl : object = fact := Option.some.inj (isObject.symm.trans isFact)
        refine ⟨object, isFact, isType, ?_⟩
        intro other member
        rcases List.mem_append.mp member with earlier | last
        · exact each other earlier
        · rw [List.mem_singleton.mp last, ← same]
          exact holds
      · intro found
        obtain ⟨fact, isFact, isType, each⟩ := found
        refine ⟨(ih fun other member => split other (List.mem_append_left _ member)).mpr
          ⟨fact, isFact, isType, fun other member => each other (List.mem_append_left _ member)⟩,
          fact, isFact, ?_⟩
        rw [same]
        exact each test List.mem_concat_self

/-- A fact on the right of a join that matches a token on its left is one that the pattern of the
join admits behind the token. -/
theorem mem_admitted_iff {pattern : Pattern} {id right : NodeId} {left : Option NodeId}
    {own : FunctionTable}
    (carries : Network.CarriesTests network functions pattern.type.fullName right pattern.alpha)
    (live : network.kind? id = some (.join left right pattern.beta pattern.negated own))
    (scope : Network.SameScope own functions pattern.beta)
    (split : ∀ test ∈ pattern.alpha, test.readsTuple = false) {tuple : Tuple} {handle : Handle} :
    handle ∈ pattern.admitted view functions tuple ↔ OnRight network state.memory id handle ∧
      view.Joins own pattern.beta tuple handle := by
  have same : ∀ fact, ∀ test ∈ pattern.beta, view.holds own ⟨tuple, some fact⟩ test =
      view.holds functions ⟨tuple, some fact⟩ test := by
    intro fact test member
    exact holds_of_node quiet tables live rfl scope member rfl fun _ => rfl
  rw [reads_onRight state.memory live rfl,
    held_iff_of_carries quiet tables exact carries split tuple, Pattern.mem_admitted]
  unfold FactView.Joins
  simp only [FactView.allHold_eq_true, List.forall_mem_append]
  constructor
  · intro admitted
    obtain ⟨fact, isFact, isType, alpha, beta⟩ := admitted
    refine ⟨⟨fact, isFact, isType, alpha⟩, fact, isFact, ?_⟩
    intro test member
    rw [same fact test member]
    exact beta test member
  · intro both
    obtain ⟨⟨fact, isFact, isType, alpha⟩, object, isObject, beta⟩ := both
    cases isFact.symm.trans isObject
    refine ⟨fact, isFact, isType, alpha, ?_⟩
    intro test member
    rw [← same fact test member]
    exact beta test member

/-- Exact memories offer the tuples behind the nodes of conditions that brute force finds. -/
theorem Exact.offered_iff_bruteForce
    (coherent : Coherent network base (OnRight network state.memory) state)
    {left : Option NodeId} {conditions : List Condition}
    (realizes : Network.Realizes network functions left conditions)
    (split : ∀ pattern, .pattern pattern ∈ conditions →
      ∀ test ∈ pattern.alpha, test.readsTuple = false) (tuple : Tuple) :
    Offered network base state left tuple ↔
      tuple ∈ Condition.matching view functions conditions := by
  induction realizes generalizing tuple with
  | root => exact (and_iff_right exact.seeded).trans List.mem_singleton.symm
  | @pattern id right left conditions pattern own before carries live scope ih =>
      have isPattern : Condition.pattern pattern ∈ conditions ++ [.pattern pattern] :=
        List.mem_concat_self
      have earlier := ih fun other member => split other (List.mem_append_left _ member)
      have admitted : ∀ {origin handle}, handle ∈ pattern.admitted view functions origin ↔
          OnRight network state.memory id handle ∧ view.Joins own pattern.beta origin handle :=
        mem_admitted_iff quiet tables exact carries live scope (split pattern isPattern)
      rw [Condition.matching_concat]
      cases negated : pattern.negated with
      | true =>
          rw [negated] at live
          refine (exact.token_iff_of_negated coherent live).trans ?_
          simp only [Condition.extend, negated, ↓reduceIte, List.mem_filter, List.isEmpty_iff,
            List.eq_nil_iff_forall_not_mem, earlier, admitted]
      | false =>
          rw [negated] at live
          refine (exact.token_iff_of_join coherent live).trans ?_
          simp only [Condition.extend, negated, Bool.false_eq_true, ↓reduceIte, List.mem_flatMap,
            List.mem_map, earlier, admitted]
  | @eval id left conditions test own before live scope ih =>
      have earlier := ih fun other member => split other (List.mem_append_left _ member)
      have same : view.holds own { tuple } test = view.holds functions { tuple } test :=
        holds_of_node quiet tables live rfl scope (List.mem_singleton_self test) rfl fun _ => rfl
      rw [Condition.matching_concat]
      refine (exact.token_iff_of_eval coherent live).trans ?_
      simp only [Condition.extend, List.mem_filter, FactView.isTrue_iff, earlier, same]

end

end Matching

end Rete
