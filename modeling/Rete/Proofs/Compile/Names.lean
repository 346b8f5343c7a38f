import Mathlib.Data.List.Induction
import Rete.Proofs.Compile.Rule

/-!
# What names are compiled to

What a name was bound to last can be read off a rule as it is written: the fact of a pattern, a
field of it, or the value of a statement (`Origin`). That is what the name is compiled to
(`Bindings.Stands`), between the conditions (`RuleDraft.mirrors_of`), inside a pattern
(`RuleDraft.enter_stands`) and between the statements (`Bindings.Stands.afterAll`).
-/

namespace Rete

/-! ## Names as they are written -/

/-- What a name was bound to. -/
inductive Origin where
  /-- The fact at an index, by the pattern that matched it. -/
  | fact (index : Nat)
  /-- A field, by a constraint of the pattern at a place among the conditions. The index is that of
  the fact that the pattern matches; a negated pattern has none. -/
  | field (place : Nat) (index : Option Nat) (name : String)
  /-- The value of a statement, counting those that introduce a variable. -/
  | stored (index : Nat)
  deriving DecidableEq

/-- Names with what they were bound to, the last binding first. -/
abbrev Names : Type := List (String × Origin)

/-- The fields that constraints bind. -/
def Constraint.names (place : Nat) (index : Option Nat) (constraints : List Constraint) : Names :=
  (constraints.filterMap fun
    | .bind var field => some (var, .field place index field)
    | .test _ => none).reverse

/-- What a pattern binds: fields while it is tried, then the fact that it matched. -/
def PatternDecl.names (place : Nat) (index : Option Nat) (pattern : PatternDecl) : Names :=
  (pattern.binding.bind fun var => index.map fun index => (var, Origin.fact index)).toList ++
    Constraint.names place index pattern.constraints

/-- The pattern of a condition, and whether it is negated. -/
def ConditionDecl.signed? : ConditionDecl → Option (PatternDecl × Bool)
  | .pattern given => some (given, false)
  | .absent given => some (given, true)
  | .eval _ => none

/-- What conditions bind. -/
structure Named where
  /-- The number of conditions. -/
  place : Nat := 0
  /-- The number of facts that they match. -/
  facts : Nat := 0
  names : Names := []

/-- What is bound after one more condition. -/
def Named.add (named : Named) : ConditionDecl → Named
  | .pattern pattern =>
    ⟨named.place + 1, named.facts + 1,
      pattern.names named.place (some named.facts) ++ named.names⟩
  | .absent pattern => ⟨named.place + 1, named.facts, pattern.names named.place none ++ named.names⟩
  | .eval _ => ⟨named.place + 1, named.facts, named.names⟩

private theorem Named.add_of_signed {condition : ConditionDecl} {pattern : PatternDecl}
    {negated : Bool} (isPattern : condition.signed? = some (pattern, negated)) (named : Named) :
    named.add condition =
      { place := named.place + 1, facts := if negated then named.facts else named.facts + 1
        names := pattern.names named.place (if negated then none else some named.facts) ++
          named.names } := by
  cases condition <;> cases isPattern <;> rfl

/-- What is bound after conditions. -/
def Named.of (conditions : List ConditionDecl) : Named := conditions.foldl Named.add {}

/-- The variables that statements introduce. -/
def Statement.names (statements : List Statement) : Names :=
  statements.foldl (fun names statement =>
    match statement with
    | .bind name _ => (name, .stored names.length) :: names
    | _ => names) []

/-! ## What names are compiled to -/

/-- What a variable is compiled to. -/
def Variable.expr : Variable → Expr
  | .fact index _ => .fact index
  | .factField index field _ => .factField index field
  | .currentField field _ => .currentField field
  | .slot index _ => .slot index

/-- What a name is compiled to that was bound so. A field of a pattern is read from the fact under
test inside the pattern, and from the fact that it matched later on. -/
def Origin.expr? (inside : Option Nat) : Origin → Option Expr
  | .fact index => some (.fact index)
  | .field place index name =>
    if inside = some place then some (.currentField name) else index.map (.factField · name)
  | .stored index => some (.slot index)

/-- What stands for nothing inside a pattern does so at the end of it. -/
theorem Origin.leave_none {origin : Origin} {place : Nat}
    (isNone : origin.expr? (some place) = none) : origin.expr? none = none := by
  cases origin with
  | fact | stored => cases isNone
  | field there index name =>
      by_cases here : some place = some there
      · rw [expr?, if_pos here] at isNone
        cases isNone
      · rw [expr?, if_neg here] at isNone
        exact isNone

/-- At the end of a pattern a variable goes on standing for what it was bound to, as long as fields
of the pattern were bound for the fact that it matches. -/
theorem Origin.leave {origin : Origin} {place : Nat} {index : Option Nat} {meaning : Variable}
    (isExpr : origin.expr? (some place) = some meaning.expr)
    (own : ∀ other name, origin = .field place other name → other = index) :
    (meaning.leavePattern index).map Variable.expr = origin.expr? none := by
  cases origin with
  | fact i | stored i =>
      cases meaning <;> cases isExpr
      rfl
  | field there other name =>
      by_cases here : some place = some there
      · cases here
        obtain rfl := own other name rfl
        rw [expr?, if_pos rfl] at isExpr
        cases meaning <;> cases isExpr
        cases other <;> rfl
      · rw [expr?, if_neg here] at isExpr
        obtain ⟨i, rfl, same⟩ := Option.map_eq_some_iff.mp isExpr
        cases meaning <;> cases same
        rfl

/-- The variables in scope are those that were bound, as they were bound last. -/
def Bindings.Stands (bindings : Bindings) (inside : Option Nat) (names : Names) : Prop :=
  ∀ name, (bindings.vars.find? name).map Variable.expr =
    (names.lookup name).bind (Origin.expr? inside)

/-- A name in scope compiles to the expression of its variable. -/
theorem Bindings.compile_name {bindings : Bindings} {name : String} {meaning : Variable}
    (found : bindings.vars.find? name = some meaning) (table : SymbolTable) :
    ∃ type, bindings.compile table (.name name) = .ok ⟨meaning.expr, type⟩ := by
  rw [Bindings.compile, Bindings.compileName, found]
  cases meaning <;> exact ⟨_, rfl⟩

/-- What a name was bound to last is among what it was bound to. -/
theorem Names.mem_of_lookup {names : Names} {name : String} {origin : Origin}
    (found : names.lookup name = some origin) : (name, origin) ∈ names := by
  obtain ⟨later, earlier, rfl, -⟩ := List.lookup_eq_some_iff.mp found
  exact List.mem_append_right _ List.mem_cons_self

namespace Bindings.Stands

variable {bindings after : Bindings} {inside : Option Nat} {names : Names}

/-- A name that is bound once more. -/
theorem bind (stands : bindings.Stands inside names) {name : String} {meaning : Variable}
    (vars : after.vars = bindings.vars.insert name meaning) {origin : Origin}
    (isExpr : origin.expr? inside = some meaning.expr) :
    after.Stands inside ((name, origin) :: names) := by
  intro other
  rw [vars, SortedMap.find?_insert_eq, List.lookup_cons]
  by_cases same : other = name
  · rw [if_pos same, beq_iff_eq.mpr same]
    exact isExpr.symm
  · rw [if_neg same, beq_eq_false_iff_ne.mpr same]
    exact stands other

private theorem bindFact (stands : bindings.Stands inside names) (name : String) (index : Nat)
    (type : RecordType) :
    (bindings.bindFact name index type).Stands inside ((name, .fact index) :: names) := by
  have isExpr : (Origin.fact index).expr? inside = some (Variable.fact index type).expr := rfl
  exact stands.bind rfl isExpr

private theorem bindSlot (stands : bindings.Stands inside names) (name : String)
    (type : ValueType) :
    (bindings.bindSlot name type).2.Stands inside
      ((name, .stored bindings.frameSize) :: names) := by
  have isExpr : (Origin.stored bindings.frameSize).expr? inside =
    some (Variable.slot bindings.frameSize type).expr := rfl
  exact stands.bind rfl isExpr

/-- At the beginning of a pattern nothing is bound in it. -/
theorem enter (stands : bindings.Stands none names) (vars : after.vars = bindings.vars)
    {place : Nat} (earlier : ∀ entry ∈ names, ∀ own index name,
      entry.2 = .field own index name → own ≠ place) : after.Stands (some place) names := by
  intro name
  rw [vars, stands name]
  cases found : names.lookup name with
  | none => rfl
  | some origin =>
      cases origin with
      | fact | stored => rfl
      | field own index field =>
          have different : some place ≠ some own := fun same =>
            earlier _ (Names.mem_of_lookup found) own index field rfl (Option.some.inj same).symm
          simp only [Option.bind_some, Origin.expr?, if_neg different, reduceCtorEq, ↓reduceIte]

/-- At the end of a pattern its fields are those of the fact that it matched, if it matched one. -/
theorem leave {place : Nat} (stands : bindings.Stands (some place) names) {index : Option Nat}
    (own : ∀ entry ∈ names, ∀ other name, entry.2 = .field place other name → other = index) :
    (bindings.leavePattern index).Stands none names := by
  intro name
  change ((bindings.vars.filterMap fun _ meaning => meaning.leavePattern index).find? name).map
    Variable.expr = _
  have before := stands name
  rw [SortedMap.find?_filterMap]
  cases found : names.lookup name with
  | none =>
      rw [found] at before
      rw [Option.map_eq_none_iff.mp before]
      rfl
  | some origin =>
      rw [found] at before
      cases isMeaning : bindings.vars.find? name with
      | none =>
          rw [isMeaning] at before
          exact (Origin.leave_none before.symm).symm
      | some meaning =>
          rw [isMeaning] at before
          exact Origin.leave before.symm fun other field same =>
            own _ (Names.mem_of_lookup found) other field same

end Bindings.Stands

/-! ## Conditions -/

/-- It was bound by a condition before a place, where so many facts are matched. -/
def Origin.Below (place facts : Nat) : Origin → Prop
  | .fact index => index < facts
  | .field own index _ => own < place ∧ ∀ i, index = some i → i < facts
  | .stored _ => False

private theorem Origin.Below.mono {origin : Origin} {place facts later more : Nat}
    (below : origin.Below place facts) (grows : place ≤ later) (gains : facts ≤ more) :
    origin.Below later more := by
  cases origin with
  | fact => exact Nat.lt_of_lt_of_le below gains
  | field => exact ⟨Nat.lt_of_lt_of_le below.1 grows,
      fun i isIndex => Nat.lt_of_lt_of_le (below.2 i isIndex) gains⟩
  | stored => exact below.elim

/-- Between conditions, the variables in scope are those that the conditions have bound. -/
structure Bindings.Tracks (bindings : Bindings) (named : Named) : Prop where
  stands : bindings.Stands none named.names
  below : ∀ entry ∈ named.names, entry.2.Below named.place named.facts
  slots : bindings.frameSize = 0

private theorem Bindings.bindField_eq_ok {bindings after : Bindings} {name field : String}
    (bound : bindings.bindField name field = .ok after) :
    after.frameSize = bindings.frameSize ∧
      ∃ type, after.vars = bindings.vars.insert name (.currentField field type) := by
  unfold bindField at bound
  split at bound
  · cases bound
  · next type _ =>
      split at bound
      · cases bound
      · next declared isDeclared =>
          cases bound
          have same : (declared.name == field) = true :=
            List.find?_some (p := fun other : FieldDef => other.name == field) isDeclared
          exact ⟨rfl, declared.type, by rw [beq_iff_eq.mp same]⟩

private theorem Constraint.names_concat_bind (place : Nat) (index : Option Nat)
    (constraints : List Constraint) (var field : String) :
    Constraint.names place index (constraints ++ [.bind var field]) =
      (var, .field place index field) :: Constraint.names place index constraints := by
  simp [Constraint.names]

private theorem Constraint.names_concat_test (place : Nat) (index : Option Nat)
    (constraints : List Constraint) (condition : Term) :
    Constraint.names place index (constraints ++ [.test condition]) =
      Constraint.names place index constraints := by
  simp [Constraint.names]

/-- Inside a pattern, names are bound to fields of its fact only. -/
theorem Constraint.eq_field_of_mem_names {place : Nat} {index : Option Nat}
    {constraints : List Constraint} {entry : String × Origin}
    (member : entry ∈ Constraint.names place index constraints) :
    ∃ name, entry.2 = .field place index name := by
  obtain ⟨constraint, -, isEntry⟩ := List.mem_filterMap.mp (List.mem_reverse.mp member)
  cases constraint with
  | bind var field =>
      cases isEntry
      exact ⟨field, rfl⟩
  | test => cases isEntry

namespace RuleDraft

variable {table : SymbolTable} {draft : RuleDraft} {named : Named}

/-- What a constraint without problems adds to a pattern. -/
theorem PatternDraft.addConstraint_clean {pattern : PatternDraft} {constraint : Constraint}
    (clean : (pattern.addConstraint table constraint).problems = []) :
    pattern.problems = [] ∧ pattern.alpha ⊆ (pattern.addConstraint table constraint).alpha ∧
      pattern.beta ⊆ (pattern.addConstraint table constraint).beta ∧
      match constraint with
      | .bind var field =>
        pattern.bindings.bindField var field = .ok (pattern.addConstraint table constraint).bindings
      | .test condition =>
        (pattern.addConstraint table constraint).bindings = pattern.bindings ∧
          ∃ e, pattern.bindings.compileCondition table condition = .ok e ∧
            (e ∈ (pattern.addConstraint table constraint).alpha ∧ e.readsTuple = false ∨
              e ∈ (pattern.addConstraint table constraint).beta) := by
  cases constraint with
  | bind var field =>
      unfold addConstraint at clean ⊢
      cases bound : pattern.bindings.bindField var field with
      | ok bindings =>
          simp only [bound] at clean ⊢
          exact ⟨clean, List.Subset.refl _, List.Subset.refl _, trivial⟩
      | error problem =>
          simp only [bound, List.append_eq_nil_iff, List.cons_ne_nil, and_false] at clean
  | test condition =>
      unfold addConstraint at clean ⊢
      cases compiled : pattern.bindings.compileCondition table condition with
      | error problem =>
          simp only [compiled, List.append_eq_nil_iff, List.cons_ne_nil, and_false] at clean
      | ok e =>
          cases reads : e.readsTuple with
          | true =>
              simp only [compiled, reads, ↓reduceIte] at clean ⊢
              exact ⟨clean, List.Subset.refl _, List.subset_append_left _ _, trivial, e, rfl,
                .inr (List.mem_append_right _ (List.mem_singleton_self e))⟩
          | false =>
              simp only [compiled, reads, Bool.false_eq_true, ↓reduceIte] at clean ⊢
              exact ⟨clean, List.subset_append_left _ _, List.Subset.refl _, trivial, e, rfl,
                .inl ⟨List.mem_append_right _ (List.mem_singleton_self e), reads⟩⟩

/-- The constraints after some have problems of their own only, and add to the tests. -/
theorem enter_append {type : RecordType} {done rest : List Constraint}
    (clean : (draft.enter table type (done ++ rest)).problems = []) :
    (draft.enter table type done).problems = [] ∧
      (draft.enter table type done).alpha ⊆ (draft.enter table type (done ++ rest)).alpha ∧
      (draft.enter table type done).beta ⊆ (draft.enter table type (done ++ rest)).beta := by
  induction rest using List.reverseRecOn with
  | nil =>
      rw [List.append_nil] at clean ⊢
      exact ⟨clean, List.Subset.refl _, List.Subset.refl _⟩
  | append_singleton rest last ih =>
      have same : draft.enter table type (done ++ (rest ++ [last])) =
          (draft.enter table type (done ++ rest)).addConstraint table last := by
        rw [← List.append_assoc]
        exact List.foldl_concat ..
      rw [same] at clean ⊢
      obtain ⟨earlier, alpha, beta, -⟩ := PatternDraft.addConstraint_clean clean
      obtain ⟨problems, alphas, betas⟩ := ih earlier
      exact ⟨problems, List.Subset.trans alphas alpha, List.Subset.trans betas beta⟩

/-- Inside a pattern, the variables in scope are those that its constraints have bound, and those of
the conditions before. -/
theorem enter_stands (tracks : draft.bindings.Tracks named) (index : Option Nat)
    {type : RecordType} {constraints : List Constraint}
    (clean : (draft.enter table type constraints).problems = []) :
    (draft.enter table type constraints).bindings.Stands (some named.place)
        (Constraint.names named.place index constraints ++ named.names) ∧
      (draft.enter table type constraints).bindings.frameSize = 0 := by
  induction constraints using List.reverseRecOn with
  | nil =>
      refine ⟨tracks.stands.enter rfl fun entry member own i name same => ?_, tracks.slots⟩
      have below := tracks.below entry member
      rw [same] at below
      exact Nat.ne_of_lt below.1
  | append_singleton done last ih =>
      have same : draft.enter table type (done ++ [last]) =
          (draft.enter table type done).addConstraint table last := List.foldl_concat ..
      obtain ⟨stands, slots⟩ := ih (enter_append clean).1
      rw [same] at clean ⊢
      obtain ⟨-, -, -, adds⟩ := PatternDraft.addConstraint_clean clean
      cases last with
      | bind var field =>
          obtain ⟨size, fieldType, vars⟩ := Bindings.bindField_eq_ok adds
          rw [Constraint.names_concat_bind]
          exact ⟨stands.bind vars (if_pos rfl), size.trans slots⟩
      | test condition =>
          rw [Constraint.names_concat_test, adds.1]
          exact ⟨stands, slots⟩

/-- After a pattern without problems, its fields and the fact that it matched are bound. -/
theorem leave_stands (tracks : draft.bindings.Tracks named) {pattern : PatternDecl}
    {index : Option Nat} {type : RecordType} {outside : PatternDraft}
    (isOutside : outside =
      (draft.enter table type pattern.constraints).leave pattern.binding index type)
    (clean : outside.problems = []) :
    (draft.enter table type pattern.constraints).problems = [] ∧
      outside.alpha = (draft.enter table type pattern.constraints).alpha ∧
      outside.beta = (draft.enter table type pattern.constraints).beta ∧
      outside.bindings.Stands none (pattern.names named.place index ++ named.names) ∧
      outside.bindings.frameSize = 0 := by
  have left : (draft.enter table type pattern.constraints).problems = [] →
      ((draft.enter table type pattern.constraints).bindings.leavePattern index).Stands none
        (Constraint.names named.place index pattern.constraints ++ named.names) ∧
      (draft.enter table type pattern.constraints).bindings.frameSize = 0 := by
    intro within
    obtain ⟨stands, slots⟩ := enter_stands tracks index within
    refine ⟨stands.leave fun entry member other name same => ?_, slots⟩
    rcases List.mem_append.mp member with here | earlier
    · obtain ⟨field, isField⟩ := Constraint.eq_field_of_mem_names here
      rw [isField] at same
      cases same
      rfl
    · have below := tracks.below entry earlier
      rw [same] at below
      exact absurd below.1 (Nat.lt_irrefl _)
  subst isOutside
  unfold PatternDraft.leave PatternDraft.bindMatch at clean ⊢
  unfold PatternDecl.names
  cases binding : pattern.binding with
  | none =>
      simp only [binding] at clean ⊢
      obtain ⟨stands, slots⟩ := left clean
      exact ⟨clean, trivial, trivial, stands, slots⟩
  | some var =>
      cases index with
      | none =>
          simp only [binding, List.append_eq_nil_iff, List.cons_ne_nil, and_false] at clean
      | some i =>
          simp only [binding] at clean ⊢
          obtain ⟨stands, slots⟩ := left clean
          exact ⟨clean, trivial, trivial, stands.bindFact var i type, slots⟩

/-- Positive and negated patterns are compiled alike, but for their sign. -/
theorem addCondition_of_signed {condition : ConditionDecl} {pattern : PatternDecl} {negated : Bool}
    (isPattern : condition.signed? = some (pattern, negated)) (draft : RuleDraft) :
    draft.addCondition table condition = draft.addPattern table pattern negated := by
  cases condition <;> cases isPattern <;> rfl

/-- What a test without problems adds to a rule. -/
theorem addCondition_eval {draft : RuleDraft} {condition : Term}
    (clean : (draft.addCondition table (.eval condition)).problems = []) :
    ∃ e, draft.bindings.compileCondition table condition = .ok e ∧
      draft.addCondition table (.eval condition) =
        { draft with conditions := draft.conditions ++ [.eval e] } := by
  unfold addCondition at clean ⊢
  cases compiled : draft.bindings.compileCondition table condition with
  | error problem =>
      simp only [compiled, List.append_eq_nil_iff, List.cons_ne_nil, and_false] at clean
  | ok e => exact ⟨e, rfl, by simp only [compiled]⟩

/-- The draft has a condition for each one that is written, and the variables that they bind. -/
structure Mirrors (draft : RuleDraft) (conditions : List ConditionDecl) : Prop where
  tracks : draft.bindings.Tracks (.of conditions)
  place : (Named.of conditions).place = conditions.length
  facts : (Named.of conditions).facts = draft.arity
  length : draft.conditions.length = conditions.length
  arity : draft.arity = Condition.positives draft.conditions

private theorem mirrors_nil : ({} : RuleDraft).Mirrors [] where
  tracks := ⟨fun _ => rfl, fun _ none => absurd none List.not_mem_nil, rfl⟩
  place := rfl
  facts := rfl
  length := rfl
  arity := rfl

/-- Conditions are added one after the other. -/
theorem of_concat (table : SymbolTable) (conditions : List ConditionDecl)
    (condition : ConditionDecl) : RuleDraft.of table (conditions ++ [condition]) =
      (RuleDraft.of table conditions).addCondition table condition :=
  List.foldl_concat ..

private theorem named_of_concat (conditions : List ConditionDecl) (condition : ConditionDecl) :
    Named.of (conditions ++ [condition]) = (Named.of conditions).add condition :=
  List.foldl_concat ..

/-- A pattern without problems, negated or not. -/
theorem Mirrors.pattern {conditions : List ConditionDecl} {condition : ConditionDecl}
    (mirrors : draft.Mirrors conditions) {pattern : PatternDecl} {negated : Bool}
    (isPattern : condition.signed? = some (pattern, negated)) {type : RecordType}
    {outside : PatternDraft} {after : RuleDraft}
    (adds : AddsPattern table draft pattern negated type outside after) :
    after.Mirrors (conditions ++ [condition]) := by
  have next : Named.of (conditions ++ [condition]) =
      { place := (Named.of conditions).place + 1, facts := after.arity
        names := pattern.names (Named.of conditions).place (draft.nextIndex negated) ++
          (Named.of conditions).names } := by
    rw [named_of_concat, Named.add_of_signed isPattern, mirrors.facts, adds.arity]
    rfl
  obtain ⟨-, -, -, stands, slots⟩ := leave_stands mirrors.tracks adds.isOutside adds.clean
  refine ⟨⟨?_, ?_, ?_⟩, ?_, ?_, ?_, ?_⟩
  · rw [next, adds.bindings]
    exact stands
  · rw [next]
    intro entry member
    rcases List.mem_append.mp member with here | earlier
    · rcases List.mem_append.mp here with fact | field
      · obtain ⟨var, -, isFact⟩ := Option.bind_eq_some_iff.mp (Option.mem_toList.mp fact)
        obtain ⟨i, isIndex, rfl⟩ := Option.map_eq_some_iff.mp isFact
        exact adds.nextIndex_lt isIndex
      · obtain ⟨name, same⟩ := Constraint.eq_field_of_mem_names field
        rw [same]
        exact ⟨Nat.lt_succ_self _, fun _ => adds.nextIndex_lt⟩
    · exact (mirrors.tracks.below entry earlier).mono (Nat.le_succ _)
        (Nat.le_trans (Nat.le_of_eq mirrors.facts) adds.arity_le)
  · rw [adds.bindings]
    exact slots
  · rw [next, List.length_append, mirrors.place]
    rfl
  · rw [next]
  · rw [adds.conditions, List.length_append, List.length_append, mirrors.length]
    rfl
  · rw [adds.arity, adds.conditions, Condition.positives_concat_pattern, mirrors.arity]

private theorem Mirrors.eval {conditions : List ConditionDecl} (mirrors : draft.Mirrors conditions)
    (condition : Term) (e : Expr) :
    Mirrors { draft with conditions := draft.conditions ++ [.eval e] }
      (conditions ++ [.eval condition]) := by
  have next := named_of_concat conditions (.eval condition)
  refine ⟨⟨?_, ?_, mirrors.tracks.slots⟩, ?_, ?_, ?_, ?_⟩
  · rw [next]
    exact mirrors.tracks.stands
  · rw [next]
    exact fun entry member =>
      (mirrors.tracks.below entry member).mono (Nat.le_succ _) (Nat.le_refl _)
  · rw [next, List.length_append, Named.add, mirrors.place]
    rfl
  · rw [next, Named.add, mirrors.facts]
  · rw [List.length_append, List.length_append, mirrors.length]
    rfl
  · rw [Condition.positives_concat_eval]
    exact mirrors.arity

/-- A condition without problems adds one to the draft. -/
theorem Mirrors.addCondition {conditions : List ConditionDecl}
    (mirrors : draft.problems = [] → draft.Mirrors conditions) {condition : ConditionDecl}
    (clean : (draft.addCondition table condition).problems = []) :
    draft.problems = [] ∧ (draft.addCondition table condition).Mirrors (conditions ++ [condition]) ∧
      draft.conditions <+: (draft.addCondition table condition).conditions := by
  cases isPattern : condition.signed? with
  | some signed =>
      rw [addCondition_of_signed isPattern] at clean ⊢
      obtain ⟨type, outside, -, adds⟩ := addsPattern_of_clean clean
      exact ⟨adds.problems.1, (mirrors adds.problems.1).pattern isPattern adds,
        _, adds.conditions.symm⟩
  | none =>
      cases condition with
      | pattern | absent => cases isPattern
      | eval condition =>
          obtain ⟨e, -, adds⟩ := addCondition_eval clean
          rw [adds] at clean ⊢
          exact ⟨clean, (mirrors clean).eval condition e, List.prefix_append _ _⟩

/-- Conditions that compile without problems leave a draft that mirrors them. -/
theorem mirrors_of (conditions : List ConditionDecl)
    (clean : (RuleDraft.of table conditions).problems = []) :
    (RuleDraft.of table conditions).Mirrors conditions := by
  induction conditions using List.reverseRecOn with
  | nil => exact mirrors_nil
  | append_singleton conditions last ih =>
      rw [of_concat] at clean ⊢
      exact (Mirrors.addCondition ih clean).2.1

/-- The conditions before others have no problems of their own, and come first in the rule. -/
theorem of_append {before after : List ConditionDecl}
    (clean : (RuleDraft.of table (before ++ after)).problems = []) :
    (RuleDraft.of table before).problems = [] ∧
      (RuleDraft.of table before).conditions <+:
        (RuleDraft.of table (before ++ after)).conditions := by
  induction after using List.reverseRecOn with
  | nil =>
      rw [List.append_nil] at clean ⊢
      exact ⟨clean, List.prefix_refl _⟩
  | append_singleton after last ih =>
      rw [← List.append_assoc, of_concat] at clean ⊢
      obtain ⟨earlier, -, first⟩ := Mirrors.addCondition (mirrors_of _) clean
      exact ⟨(ih earlier).1, (ih earlier).2.trans first⟩

end RuleDraft

/-! ## Statements -/

/-- Only a statement that stores a value binds a name. -/
theorem Statement.names_concat (statements : List Statement) (last : Statement) :
    Statement.names (statements ++ [last]) =
      match last with
      | .bind name _ =>
        (name, .stored (Statement.names statements).length) :: Statement.names statements
      | _ => Statement.names statements :=
  List.foldl_concat ..

/-- Statements bind values only, counted in order. -/
theorem Statement.eq_stored_of_mem_names {statements : List Statement} {entry : String × Origin}
    (member : entry ∈ Statement.names statements) :
    ∃ index, entry.2 = .stored index ∧ index < (Statement.names statements).length := by
  induction statements using List.reverseRecOn with
  | nil => cases member
  | append_singleton statements last ih =>
      rw [Statement.names_concat] at member ⊢
      cases last with
      | bind name value =>
          rcases List.mem_cons.mp member with rfl | earlier
          · exact ⟨_, rfl, Nat.lt_succ_self _⟩
          · obtain ⟨index, same, within⟩ := ih earlier
            exact ⟨index, same, Nat.lt_succ_of_lt within⟩
      | eval | insert | modify | retract | setGlobal | halt => exact ih member

/-- The slot that an action stores a value in. -/
def Action.slot? : Action → Option Nat
  | .bind slot _ => some slot
  | .eval _ | .insert _ | .modify .. | .retract .. | .setGlobal .. | .halt => none

namespace Bindings

variable {table : SymbolTable} {bindings : Bindings}

/-- The variables in scope after statements. -/
def afterAll (table : SymbolTable) (bindings : Bindings) (statements : List Statement) : Bindings :=
  statements.foldl (afterStatement table) bindings

private theorem afterAll_concat (statements : List Statement) (last : Statement) :
    bindings.afterAll table (statements ++ [last]) =
      (bindings.afterAll table statements).afterStatement table last :=
  List.foldl_concat ..

/-- Every variable that a statement introduces has a slot of its own. -/
theorem frameSize_afterAll (bindings : Bindings) (statements : List Statement) :
    (bindings.afterAll table statements).frameSize =
      bindings.frameSize + (Statement.names statements).length := by
  induction statements using List.reverseRecOn with
  | nil => rfl
  | append_singleton statements last ih =>
      rw [afterAll_concat, Statement.names_concat]
      cases last with
      | bind name value =>
          rw [List.length_cons, ← Nat.add_assoc, ← ih]
          rfl
      | eval | insert | modify | retract | setGlobal | halt => exact ih

/-- After statements, the variables in scope are those that they have bound, and those before. -/
theorem Stands.afterAll {names : Names} (stands : bindings.Stands none names)
    (slots : bindings.frameSize = 0) (statements : List Statement) :
    (bindings.afterAll table statements).Stands none (Statement.names statements ++ names) := by
  induction statements using List.reverseRecOn with
  | nil => exact stands
  | append_singleton statements last ih =>
      rw [afterAll_concat, Statement.names_concat]
      cases last with
      | bind name value =>
          set before := bindings.afterAll table statements with isBefore
          have size : before.frameSize = (Statement.names statements).length := by
            rw [isBefore, frameSize_afterAll, slots, Nat.zero_add]
          dsimp only [List.cons_append]
          rw [← size]
          exact ih.bindSlot name _
      | eval | insert | modify | retract | setGlobal | halt => exact ih

/-- A statement is compiled in front of the others, which see the names it binds. -/
theorem compileStatements_cons (bindings : Bindings) (statement : Statement)
    (rest : List Statement) : compileStatements table bindings (statement :: rest) =
      let others := compileStatements table (bindings.afterStatement table statement) rest
      match bindings.compilePlain table statement with
      | .ok action => (action :: others.1, others.2.1, others.2.2)
      | .error problem => (others.1, problem :: others.2.1, others.2.2) := rfl

/-- Statements are compiled one after the other. -/
theorem compileStatements_append (table : SymbolTable) (bindings : Bindings)
    (done rest : List Statement) :
    (compileStatements table bindings (done ++ rest)).1 =
        (compileStatements table bindings done).1 ++
          (compileStatements table (bindings.afterAll table done) rest).1 ∧
      (compileStatements table bindings (done ++ rest)).2.1 =
        (compileStatements table bindings done).2.1 ++
          (compileStatements table (bindings.afterAll table done) rest).2.1 := by
  induction done generalizing bindings with
  | nil => exact ⟨rfl, rfl⟩
  | cons statement done ih =>
      obtain ⟨actions, problems⟩ := ih (bindings.afterStatement table statement)
      have further : bindings.afterAll table (statement :: done) =
        (bindings.afterStatement table statement).afterAll table done := rfl
      rw [further, List.cons_append, compileStatements_cons, compileStatements_cons]
      dsimp only
      cases bindings.compilePlain table statement with
      | ok action => exact ⟨congrArg (action :: ·) actions, problems⟩
      | error problem => exact ⟨actions, congrArg (problem :: ·) problems⟩

/-- Without problems, every statement becomes an action. -/
theorem compileStatements_singleton {statement : Statement}
    (clean : (compileStatements table bindings [statement]).2.1 = []) :
    ∃ action, bindings.compilePlain table statement = .ok action ∧
      (compileStatements table bindings [statement]).1 = [action] := by
  rw [compileStatements_cons] at clean ⊢
  dsimp only at clean ⊢
  cases compiled : bindings.compilePlain table statement with
  | ok action => exact ⟨action, rfl, rfl⟩
  | error problem =>
      rw [compiled] at clean
      cases clean

/-- Without problems, there is one action for each statement. -/
theorem length_compileStatements {statements : List Statement}
    (clean : (compileStatements table bindings statements).2.1 = []) :
    (compileStatements table bindings statements).1.length = statements.length := by
  induction statements using List.reverseRecOn with
  | nil => rfl
  | append_singleton statements last ih =>
      obtain ⟨actions, problems⟩ := compileStatements_append table bindings statements [last]
      rw [problems, List.append_eq_nil_iff] at clean
      obtain ⟨action, -, one⟩ := compileStatements_singleton clean.2
      rw [actions, one, List.length_append, List.length_append, ih clean.1]
      rfl

/-- The action of a statement, behind those of the statements before it. -/
theorem action_of_split {done rest : List Statement} {statement : Statement}
    (clean : (compileStatements table bindings (done ++ statement :: rest)).2.1 = []) :
    ∃ action, (bindings.afterAll table done).compilePlain table statement = .ok action ∧
      (compileStatements table bindings (done ++ statement :: rest)).1[done.length]? =
        some action := by
  obtain ⟨actions, problems⟩ := compileStatements_append table bindings done (statement :: rest)
  rw [problems, List.append_eq_nil_iff] at clean
  obtain ⟨before, here⟩ := clean
  rw [compileStatements_cons] at here actions
  dsimp only at here actions
  cases compiled : (bindings.afterAll table done).compilePlain table statement with
  | ok action =>
      rw [compiled] at actions
      exact ⟨action, rfl, by rw [actions, ← length_compileStatements before]; simp⟩
  | error problem =>
      rw [compiled] at here
      cases here

/-- A consequence that compiles has the actions of its statements, none of which has a problem. -/
theorem actions_of_compileConsequence {statements : List Statement} {consequence : Consequence}
    (compiled : (bindings.compileConsequence table statements).1 = .ok consequence) :
    (compileStatements table { bindings with mayUpdate := true } statements).2.1 = [] ∧
      consequence.actions =
        (compileStatements table { bindings with mayUpdate := true } statements).1 := by
  unfold compileConsequence at compiled
  dsimp only at compiled
  split at compiled
  · next clean =>
      cases compiled
      exact ⟨List.isEmpty_iff.mp clean, rfl⟩
  · cases compiled

/-- Only the introduction of a variable stores a value, in the next slot. -/
theorem slot?_compilePlain (table : SymbolTable) (bindings : Bindings) (statement : Statement) :
    Outcome (bindings.compilePlain table statement)
      (fun action => action.slot? = match statement with
        | .bind _ _ => some bindings.frameSize
        | _ => none) fun _ => True := by
  cases statement with
  | eval e => exact Outcome.bind (.trivial _) fun typed _ => rfl
  | bind name value => exact Outcome.bind (.trivial _) fun typed _ => rfl
  | insert fact =>
      refine Outcome.bind (.trivial _) fun typed _ => ?_
      split
      · exact rfl
      · exact rfl
      · exact trivial
  | modify var assignments =>
      exact Outcome.bind (.trivial _) fun found _ => Outcome.bind (.trivial _) fun values _ => rfl
  | retract var => exact Outcome.bind (.trivial _) fun found _ => rfl
  | setGlobal name value =>
      rw [compilePlain]
      split
      · exact trivial
      · refine Outcome.bind (.trivial _) fun typed _ => ?_
        split
        · exact rfl
        · exact trivial
  | halt => exact rfl

/-- The actions of a consequence store values in the slots of the frame in order. -/
theorem filterMap_slot? (slots : bindings.frameSize = 0) {statements : List Statement}
    (clean : (compileStatements table bindings statements).2.1 = []) :
    (compileStatements table bindings statements).1.filterMap Action.slot? =
      List.range (Statement.names statements).length := by
  induction statements using List.reverseRecOn with
  | nil => rfl
  | append_singleton statements last ih =>
      obtain ⟨actions, problems⟩ := compileStatements_append table bindings statements [last]
      rw [problems, List.append_eq_nil_iff] at clean
      obtain ⟨action, compiled, one⟩ := compileStatements_singleton clean.2
      have slot := slot?_compilePlain table (bindings.afterAll table statements) last
      rw [compiled, outcome_ok, frameSize_afterAll, slots, Nat.zero_add] at slot
      rw [actions, one, List.filterMap_append, ih clean.1, Statement.names_concat]
      cases last with
      | bind name value =>
          rw [List.length_cons, List.range_succ, List.filterMap_cons, slot]
          rfl
      | eval | insert | modify | retract | setGlobal | halt =>
          rw [List.filterMap_cons, slot, List.filterMap_nil, List.append_nil]

end Bindings

end Rete
