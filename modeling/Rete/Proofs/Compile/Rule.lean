import Rete.Proofs.Compile.Scope
import Rete.Proofs.SortedMap

/-!
# The scope of compiled rules

A condition refers to the facts that the conditions before it match, a consequence to those of a
complete match and to the slots of its frame (`Rule.Scoped`). This holds of every rule that compiles
(`RuleDecl.scoped_of_compile`). What a field binding stands for moves from the fact under test into
the tuple when its pattern ends, and a negated pattern adds no fact.
-/

namespace Rete

/-! ## Statements -/

/-- What an action refers to is there. -/
def Action.Fits (room : Room) : Action → Prop
  | .eval e | .insert e | .setGlobal _ e => e.Fits room
  | .bind slot e => slot < room.slots ∧ e.Fits room
  | .modify index _ assignments =>
    index < room.facts ∧ ∀ assignment ∈ assignments, assignment.2.Fits room
  | .retract index _ => index < room.facts
  | .halt => True

namespace Bindings

variable {table : SymbolTable}

private theorem Fits.bindSlot (room : Room) {bindings : Bindings}
    (fits : bindings.Fits { room with slots := bindings.frameSize }) (name : String)
    (type : ValueType) : (bindings.bindSlot name type).2.Fits
      { room with slots := bindings.frameSize + 1 } where
  vars {other meaning} found := by
    change (bindings.vars.insert name _).find? other = some meaning at found
    rw [SortedMap.find?_insert_eq] at found
    split at found
    next =>
      cases found
      exact Nat.lt_succ_self _
    next =>
      exact (fits.vars found).mono ⟨Nat.le_refl _, Nat.le_succ _, id, Nat.le_refl _, id⟩
  current := fits.current
  updates := fits.updates

section

variable {room : Room}

private theorem factOf_fits {bindings : Bindings} (fits : bindings.Fits room) (var : String) :
    Compiles (bindings.factOf var) fun found => found.1 < room.facts := by
  unfold factOf
  split
  · next found => exact fits.vars found
  · rfl
  · rfl

private theorem compileAssignments_fit {bindings : Bindings}
    (declared : table.declared.length ≤ room.functions) (fits : bindings.Fits room)
    (type : RecordType) (assignments : List (String × Term)) :
    Compiles (bindings.compileAssignments table type assignments)
      fun compiled => ∀ assignment ∈ compiled, assignment.2.Fits room := by
  induction assignments with
  | nil => exact fun _ none => absurd none List.not_mem_nil
  | cons assignment rest ih =>
      unfold compileAssignments
      dsimp only
      split
      · rfl
      · refine Outcome.bind (compile_fits declared fits assignment.2) fun value here => ?_
        split
        · rfl
        · refine Outcome.bind ih fun others each => ?_
          exact List.forall_mem_cons.mpr ⟨here, each⟩

/-- A statement other than a field binding compiles to an action that stays within the room. -/
theorem compilePlain_fits {bindings : Bindings}
    (declared : table.declared.length ≤ room.functions) (fits : bindings.Fits room)
    (statement : Statement)
    (enough : (bindings.afterStatement table statement).frameSize ≤ room.slots) :
    Compiles (bindings.compilePlain table statement) (Action.Fits room) := by
  cases statement with
  | eval e => exact Outcome.bind (compile_fits declared fits e) fun typed here => here
  | bind name value =>
      exact Outcome.bind (compile_fits declared fits value) fun typed here => ⟨enough, here⟩
  | insert fact =>
      refine Outcome.bind (compile_fits declared fits fact) fun typed here => ?_
      split
      · exact here
      · exact here
      · rfl
  | modify var assignments =>
      refine Outcome.bind (factOf_fits fits var) fun found live => ?_
      refine Outcome.bind (compileAssignments_fit declared fits found.2 assignments) ?_
      exact fun compiled each => ⟨live, each⟩
  | retract var => exact Outcome.bind (factOf_fits fits var) fun found live => live
  | setGlobal name value =>
      unfold compilePlain
      dsimp only
      split
      · rfl
      · refine Outcome.bind (compile_fits declared fits value) fun typed here => ?_
        split
        · exact here
        · rfl
  | halt => exact trivial

end

/-- Statements only add slots, and each action fits in what there is at the end. -/
theorem compileStatements_fit (room : Room) (declared : table.declared.length ≤ room.functions)
    (statements : List Statement) {bindings : Bindings}
    (fits : bindings.Fits { room with slots := bindings.frameSize }) :
    bindings.frameSize ≤ (compileStatements table bindings statements).2.2.frameSize ∧
      ∀ action ∈ (compileStatements table bindings statements).1, action.Fits
        { room with slots := (compileStatements table bindings statements).2.2.frameSize } := by
  induction statements generalizing bindings with
  | nil => exact ⟨Nat.le_refl _, fun _ none => absurd none List.not_mem_nil⟩
  | cons statement rest ih =>
      have after : bindings.frameSize ≤ (bindings.afterStatement table statement).frameSize ∧
          (bindings.afterStatement table statement).Fits
            { room with slots := (bindings.afterStatement table statement).frameSize } := by
        cases statement with
        | bind name value => exact ⟨Nat.le_succ _, fits.bindSlot room name _⟩
        | eval | insert | modify | retract | setGlobal | halt => exact ⟨Nat.le_refl _, fits⟩
      obtain ⟨grows, each⟩ := ih after.2
      unfold compileStatements compileStatement
      set last := compileStatements table (bindings.afterStatement table statement) rest
      let wider : Room := { room with slots := last.2.2.frameSize }
      have enough : table.declared.length ≤ wider.functions := declared
      have widened : bindings.Fits wider :=
        fits.mono ⟨Nat.le_refl _, Nat.le_trans after.1 grows, id, Nat.le_refl _, id⟩
      have first := compilePlain_fits enough widened statement grows
      dsimp only
      split
      · next action compiled =>
          exact ⟨Nat.le_trans after.1 grows, List.forall_mem_cons.mpr ⟨first.of_ok compiled, each⟩⟩
      · exact ⟨Nat.le_trans after.1 grows, each⟩

/-- A consequence refers to the facts of the match and to the slots of its frame. -/
theorem compileConsequence_fits (room : Room)
    (declared : table.declared.length ≤ room.functions) {bindings : Bindings}
    (fits : bindings.Fits { room with slots := bindings.frameSize })
    {statements : List Statement} {consequence : Consequence}
    (compiled : (bindings.compileConsequence table statements).1 = .ok consequence) :
    ∀ action ∈ consequence.actions, action.Fits
      { room with slots := consequence.frameSize, updates := true } := by
  unfold compileConsequence at compiled
  dsimp only at compiled
  split at compiled
  · cases compiled
    have updating : Fits { room with slots := bindings.frameSize, updates := true }
        { bindings with mayUpdate := true } := ⟨fits.vars, fits.current, fun _ => rfl⟩
    exact (compileStatements_fit { room with updates := true } declared _ updating).2
  · cases compiled

end Bindings

/-! ## Functions -/

/-- What the bodies of functions refer to is there: parameters, and functions of the package. -/
def FunctionTable.Scoped (functions : FunctionTable) : Prop :=
  ∀ function ∈ functions.functions, function.body.Fits
    { slots := function.frameSize, functions := functions.functions.length }

/-- The body of a compiled function stays within its frame and the functions declared. -/
theorem FunctionDecl.compile_fits (function : FunctionDecl) {table : SymbolTable} {count : Nat}
    (declared : table.declared.length ≤ count) (signature : Signature) :
    Compiles (function.compile table signature)
      fun compiled => compiled.body.Fits { slots := compiled.frameSize, functions := count } := by
  unfold compile
  dsimp only
  set bindings := (function.params.zip signature.params).foldl _ ({} : Bindings) with isBindings
  have fits : bindings.Fits { slots := bindings.frameSize, functions := count } := by
    rw [isBindings]
    apply List.foldlRecOn (motive := fun bindings : Bindings =>
      bindings.Fits { slots := bindings.frameSize, functions := count })
    · exact ⟨fun found => (by cases found), nofun, nofun⟩
    · intro bindings fits param _
      exact fits.bindSlot { functions := count } param.1.1 param.2
  refine Outcome.bind (Bindings.compile_fits declared fits function.body) fun body here => ?_
  split
  · rfl
  · exact here

/-! ## Conditions -/

namespace Condition

/-- The number of conditions that match a fact. -/
def positives (conditions : List Condition) : Nat :=
  conditions.countP fun
    | .pattern given => !given.negated
    | .eval _ => false

/-- No condition matches no fact. -/
@[simp] theorem positives_nil : positives [] = 0 := rfl

/-- A pattern matches one more fact, unless it is negated. -/
theorem positives_concat_pattern (conditions : List Condition) (given : Pattern) :
    positives (conditions ++ [.pattern given]) =
      if given.negated then positives conditions else positives conditions + 1 := by
  unfold positives
  rw [List.countP_append, List.countP_singleton]
  cases negated : given.negated <;> simp only [negated, Bool.not_true, Bool.not_false,
    Bool.false_eq_true, ↓reduceIte, Nat.add_zero]

/-- A test matches no further fact. -/
theorem positives_concat_eval (conditions : List Condition) (test : Expr) :
    positives (conditions ++ [.eval test]) = positives conditions := by
  unfold positives
  rw [List.countP_append, List.countP_singleton]
  rfl

end Condition

/-- What the tests of a pattern refer to is there. Those that look at one fact only refer to no fact
that is matched. -/
structure Pattern.Fits (room : Room) (pattern : Pattern) : Prop where
  alpha : ∀ test ∈ pattern.alpha, test.Fits { room with facts := 0, current := true }
  beta : ∀ test ∈ pattern.beta, test.Fits { room with current := true }

/-- What the tests of a condition refer to is there. -/
def Condition.Fits (room : Room) : Condition → Prop
  | .pattern given => given.Fits room
  | .eval test => test.Fits room

/-- What a rule refers to is there: in a condition the facts that the conditions before it match, in
its consequence those of a complete match. -/
structure Rule.Scoped (rule : Rule) : Prop where
  arity : rule.arity = Condition.positives rule.conditions
  conditions : ∀ {before condition}, before ++ [condition] <+: rule.conditions →
    condition.Fits
      { facts := Condition.positives before, functions := rule.functions.functions.length }
  actions : ∀ action ∈ rule.consequence.actions, action.Fits
    { facts := rule.arity, slots := rule.consequence.frameSize,
      functions := rule.functions.functions.length, updates := true }

/-- The tests that are to look at one fact do not read those that are matched. -/
theorem Rule.Scoped.readsTuple_alpha {rule : Rule} (isScoped : rule.Scoped) {pattern : Pattern}
    (member : .pattern pattern ∈ rule.conditions) :
    ∀ test ∈ pattern.alpha, test.readsTuple = false := by
  intro test isTest
  obtain ⟨before, rest, split⟩ := List.append_of_mem member
  have place : before ++ [.pattern pattern] <+: rule.conditions :=
    ⟨rest, by rw [split, List.append_assoc, List.singleton_append]⟩
  exact ((isScoped.conditions place).alpha test isTest).readsTuple rfl

/-! ## Compiled conditions -/

section

variable {table : SymbolTable} {facts count : Nat}

/-- A field binding goes on standing for a field of the fact that its pattern matched, if it matched
one. -/
theorem Bindings.Fits.leavePattern {bindings : Bindings} {index : Option Nat} {more : Nat}
    (fits : bindings.Fits { facts, current := true, functions := count }) (grows : facts ≤ more)
    (place : ∀ i, index = some i → i < more) :
    (bindings.leavePattern index).Fits { facts := more, functions := count } where
  vars {name meaning} found := by
    change (bindings.vars.filterMap _).find? name = some meaning at found
    rw [SortedMap.find?_filterMap] at found
    obtain ⟨old, isOld, leaves⟩ := Option.bind_eq_some_iff.mp found
    have here := fits.vars isOld
    cases old with
    | currentField field type =>
        obtain ⟨i, isIndex, rfl⟩ := Option.map_eq_some_iff.mp leaves
        exact place i isIndex
    | fact | factField =>
        cases leaves
        exact Nat.lt_of_lt_of_le here grows
    | slot =>
        cases leaves
        exact here
  current := nofun
  updates may := absurd (fits.updates may) Bool.false_ne_true

private theorem Bindings.Fits.bindFact {bindings : Bindings} {room : Room}
    (fits : bindings.Fits room)
    (name : String) {index : Nat} (place : index < room.facts) (type : RecordType) :
    (bindings.bindFact name index type).Fits room where
  vars {other meaning} found := by
    change (bindings.vars.insert name _).find? other = some meaning at found
    rw [SortedMap.find?_insert_eq] at found
    split at found
    next =>
      cases found
      exact place
    next => exact fits.vars found
  current := fits.current
  updates := fits.updates

/-- A field can be bound only where there is a fact under test. -/
theorem Bindings.Fits.bindField {bindings : Bindings} {room : Room} (fits : bindings.Fits room)
    (name field : String) : Compiles (bindings.bindField name field) (·.Fits room) := by
  unfold Bindings.bindField
  cases isCurrent : bindings.current with
  | none => rfl
  | some type =>
      have current := fits.current (isCurrent ▸ rfl)
      dsimp only
      split
      · rfl
      · refine ⟨fun {other meaning} found => ?_, fun _ => current, fits.updates⟩
        rw [SortedMap.find?_insert_eq] at found
        split at found
        next =>
          cases found
          exact current
        next => exact fits.vars found

namespace RuleDraft

/-- What a pattern refers to while it is compiled is there. -/
structure PatternDraft.Fits (facts count : Nat) (draft : PatternDraft) : Prop where
  bindings : draft.bindings.Fits { facts, current := true, functions := count }
  alpha : ∀ test ∈ draft.alpha, test.Fits { current := true, functions := count }
  beta : ∀ test ∈ draft.beta, test.Fits { facts, current := true, functions := count }

private theorem PatternDraft.Fits.addConstraint {draft : PatternDraft}
    (fits : draft.Fits facts count)
    (declared : table.declared.length ≤ count) (constraint : Constraint) :
    (draft.addConstraint table constraint).Fits facts count := by
  cases constraint with
  | bind var field =>
      unfold PatternDraft.addConstraint
      dsimp only
      split
      · next bound =>
          exact ⟨(fits.bindings.bindField var field).of_ok bound, fits.alpha, fits.beta⟩
      · exact ⟨fits.bindings, fits.alpha, fits.beta⟩
  | test condition =>
      have judged := Bindings.compileCondition_fits declared fits.bindings condition
      unfold PatternDraft.addConstraint
      dsimp only
      split
      · next test compiled =>
          have here := judged.of_ok compiled
          cases reads : test.readsTuple with
          | true =>
              exact ⟨fits.bindings, fits.alpha, List.forall_mem_append.mpr
                ⟨fits.beta, List.forall_mem_singleton.mpr here⟩⟩
          | false =>
              exact ⟨fits.bindings, List.forall_mem_append.mpr
                ⟨fits.alpha, List.forall_mem_singleton.mpr (here.of_not_readsTuple reads)⟩,
                fits.beta⟩
      · exact ⟨fits.bindings, fits.alpha, fits.beta⟩

private theorem PatternDraft.Fits.foldl {draft : PatternDraft} (fits : draft.Fits facts count)
    (declared : table.declared.length ≤ count) (constraints : List Constraint) :
    (constraints.foldl (PatternDraft.addConstraint table) draft).Fits facts count := by
  induction constraints generalizing draft with
  | nil => exact fits
  | cons constraint rest ih => exact ih (fits.addConstraint declared constraint)

/-- What the conditions compiled so far refer to is there. -/
structure Fits (count : Nat) (draft : RuleDraft) : Prop where
  bindings : draft.bindings.Fits { facts := draft.arity, functions := count }
  arity : draft.arity = Condition.positives draft.conditions
  conditions : ∀ {before condition}, before ++ [condition] <+: draft.conditions →
    condition.Fits { facts := Condition.positives before, functions := count }

/-- A condition is added behind those that it refers to. -/
theorem Fits.concat {draft : RuleDraft} (fits : draft.Fits count) {last : Condition}
    (here : last.Fits { facts := draft.arity, functions := count }) {before : List Condition}
    {condition : Condition} (isPrefix : before ++ [condition] <+: draft.conditions ++ [last]) :
    condition.Fits { facts := Condition.positives before, functions := count } := by
  rcases List.prefix_concat_iff.mp isPrefix with whole | earlier
  · obtain ⟨rfl, same⟩ := List.append_inj' whole rfl
    cases same
    exact fits.arity ▸ here
  · exact fits.conditions earlier

private theorem PatternDraft.bindMatch_fits {draft : PatternDraft} {room : Room}
    (fits : draft.bindings.Fits room) (binding : Option String) {index : Option Nat}
    (place : ∀ i, index = some i → i < room.facts) (type : RecordType) :
    (draft.bindMatch binding index type).bindings.Fits room := by
  cases binding with
  | none => exact fits
  | some var =>
      cases index with
      | none => exact fits
      | some i => exact fits.bindFact var (place i rfl) type

private theorem PatternDraft.alpha_bindMatch (draft : PatternDraft) (binding : Option String)
    (index : Option Nat) (type : RecordType) :
    (draft.bindMatch binding index type).alpha = draft.alpha := by
  unfold bindMatch
  split <;> rfl

private theorem PatternDraft.beta_bindMatch (draft : PatternDraft) (binding : Option String)
    (index : Option Nat) (type : RecordType) :
    (draft.bindMatch binding index type).beta = draft.beta := by
  unfold bindMatch
  split <;> rfl

/-- A pattern within a rule, with some of its constraints. -/
def enter (table : SymbolTable) (draft : RuleDraft) (type : RecordType)
    (constraints : List Constraint) : PatternDraft :=
  constraints.foldl (PatternDraft.addConstraint table)
    { bindings := draft.bindings.enterPattern type }

/-- The index of the fact that the next pattern matches; a negated pattern has none. -/
def nextIndex (draft : RuleDraft) (negated : Bool) : Option Nat :=
  if negated then none else some draft.arity

/-- The pattern at its end, with what its variable is bound to. -/
def PatternDraft.leave (inside : PatternDraft) (binding : Option String) (index : Option Nat)
    (type : RecordType) : PatternDraft :=
  PatternDraft.bindMatch { inside with bindings := inside.bindings.leavePattern index } binding
    index type

/-- What a pattern without problems adds to a rule. -/
structure AddsPattern (table : SymbolTable) (draft : RuleDraft) (pattern : PatternDecl)
    (negated : Bool) (type : RecordType) (outside : PatternDraft) (after : RuleDraft) : Prop where
  isOutside : outside = (draft.enter table type pattern.constraints).leave pattern.binding
    (draft.nextIndex negated) type
  clean : outside.problems = []
  problems : draft.problems = [] ∧ after.problems = []
  bindings : after.bindings = outside.bindings
  arity : after.arity = if negated then draft.arity else draft.arity + 1
  conditions : after.conditions = draft.conditions ++ [.pattern
    { type, alpha := outside.alpha, beta := outside.beta, negated
      index := draft.nextIndex negated, span := pattern.span }]

/-- Adding a pattern does not make tuples shorter. -/
theorem AddsPattern.arity_le {draft after : RuleDraft} {pattern : PatternDecl} {negated : Bool}
    {type : RecordType} {outside : PatternDraft}
    (adds : AddsPattern table draft pattern negated type outside after) :
    draft.arity ≤ after.arity := by
  rw [adds.arity]
  split <;> omega

/-- The number that a positive pattern gets lies within the tuples. -/
theorem AddsPattern.nextIndex_lt {draft after : RuleDraft} {pattern : PatternDecl} {negated : Bool}
    {type : RecordType} {outside : PatternDraft}
    (adds : AddsPattern table draft pattern negated type outside after) {index : Nat}
    (isNext : draft.nextIndex negated = some index) : index < after.arity := by
  rw [adds.arity]
  cases negated with
  | true => cases isNext
  | false =>
      cases isNext
      exact Nat.lt_succ_self _

/-- Problems of a pattern, and earlier ones, stay. -/
theorem addsPattern_of_clean {draft : RuleDraft} {pattern : PatternDecl} {negated : Bool}
    (clean : (draft.addPattern table pattern negated).problems = []) :
    ∃ type outside, table.resolveType pattern.typeName = .ok type ∧
      AddsPattern table draft pattern negated type.toRecordType outside
        (draft.addPattern table pattern negated) := by
  unfold RuleDraft.addPattern at clean ⊢
  cases resolved : table.resolveType pattern.typeName with
  | error problem =>
      simp only [resolved, List.append_eq_nil_iff, List.cons_ne_nil, and_false] at clean
  | ok type =>
      simp only [resolved] at clean ⊢
      set outside := PatternDraft.bindMatch
        { pattern.constraints.foldl (PatternDraft.addConstraint table)
            { bindings := draft.bindings.enterPattern type.toRecordType } with
          bindings := (pattern.constraints.foldl (PatternDraft.addConstraint table)
            { bindings := draft.bindings.enterPattern type.toRecordType }).bindings.leavePattern
              (if negated then none else some draft.arity) }
        pattern.binding (if negated then none else some draft.arity) type.toRecordType
        with isOutside
      cases noProblem : outside.problems.isEmpty with
      | false =>
          simp only [noProblem, Bool.false_eq_true, ↓reduceIte] at clean
          have none := List.map_eq_nil_iff.mp (List.append_eq_nil_iff.mp clean).2
          rw [none] at noProblem
          cases noProblem
      | true =>
          simp only [noProblem, ↓reduceIte] at clean ⊢
          exact ⟨type, outside, rfl, isOutside, List.isEmpty_iff.mp noProblem, ⟨clean, clean⟩, rfl,
            rfl, rfl⟩

private theorem Fits.addPattern {draft : RuleDraft} (fits : draft.problems = [] → draft.Fits count)
    (declared : table.declared.length ≤ count) (pattern : PatternDecl) (negated : Bool)
    (clean : (draft.addPattern table pattern negated).problems = []) :
    (draft.addPattern table pattern negated).Fits count := by
  obtain ⟨type, outside, -, adds⟩ := addsPattern_of_clean clean
  have earlier := fits adds.problems.1
  have within :
      (draft.enter table type.toRecordType pattern.constraints).Fits draft.arity count := by
    refine PatternDraft.Fits.foldl ⟨⟨?_, fun _ => rfl, ?_⟩, ?_, ?_⟩ declared _
    · exact fun found => (earlier.bindings.vars found).mono
        ⟨Nat.le_refl _, Nat.le_refl _, nofun, Nat.le_refl _, id⟩
    · exact earlier.bindings.updates
    · exact fun _ none => absurd none List.not_mem_nil
    · exact fun _ none => absurd none List.not_mem_nil
  refine ⟨?_, ?_, fun isPrefix => ?_⟩
  · rw [adds.bindings, adds.isOutside]
    exact PatternDraft.bindMatch_fits
      (within.bindings.leavePattern adds.arity_le fun _ => adds.nextIndex_lt) _
      (fun _ => adds.nextIndex_lt) _
  · rw [adds.conditions, adds.arity, Condition.positives_concat_pattern, earlier.arity]
  · rw [adds.conditions] at isPrefix
    refine earlier.concat ?_ isPrefix
    constructor
    · rw [adds.isOutside]
      dsimp only [PatternDraft.leave]
      rw [PatternDraft.alpha_bindMatch]
      exact within.alpha
    · rw [adds.isOutside]
      dsimp only [PatternDraft.leave]
      rw [PatternDraft.beta_bindMatch]
      exact within.beta

private theorem Fits.addCondition {draft : RuleDraft}
    (fits : draft.problems = [] → draft.Fits count)
    (declared : table.declared.length ≤ count) (condition : ConditionDecl)
    (clean : (draft.addCondition table condition).problems = []) :
    (draft.addCondition table condition).Fits count := by
  cases condition with
  | pattern pattern => exact addPattern fits declared pattern false clean
  | absent pattern => exact addPattern fits declared pattern true clean
  | eval condition =>
      unfold RuleDraft.addCondition at clean ⊢
      cases compiled : draft.bindings.compileCondition table condition with
      | error problem =>
          simp only [compiled, List.append_eq_nil_iff, List.cons_ne_nil, and_false] at clean
      | ok test =>
          simp only [compiled] at clean ⊢
          have earlier := fits clean
          have here : Condition.Fits { facts := draft.arity, functions := count } (.eval test) :=
            (Bindings.compileCondition_fits declared earlier.bindings condition).of_ok compiled
          refine ⟨earlier.bindings, ?_, fun isPrefix => earlier.concat here isPrefix⟩
          rw [Condition.positives_concat_eval]
          exact earlier.arity

private theorem Fits.foldl (declared : table.declared.length ≤ count)
    (conditions : List ConditionDecl)
    {draft : RuleDraft} (fits : draft.problems = [] → draft.Fits count)
    (clean : (conditions.foldl (RuleDraft.addCondition table) draft).problems = []) :
    (conditions.foldl (RuleDraft.addCondition table) draft).Fits count := by
  induction conditions generalizing draft with
  | nil => exact fits clean
  | cons condition rest ih => exact ih (addCondition fits declared condition) clean

/-- A rule in which nothing has been compiled yet. -/
theorem fits_empty : ({} : RuleDraft).Fits count where
  bindings := ⟨fun found => (by cases found), nofun, nofun⟩
  arity := rfl
  conditions isPrefix := by
    have same := List.prefix_nil.mp isPrefix
    cases List.append_ne_nil_of_right_ne_nil _ (List.cons_ne_nil _ _) same

end RuleDraft

end

/-- The draft of a rule after some of its conditions. -/
def RuleDraft.of (table : SymbolTable) (conditions : List ConditionDecl) : RuleDraft :=
  conditions.foldl (RuleDraft.addCondition table) {}

/-- A compiled rule is a draft without problems. -/
structure RuleDecl.Drafted (declared : RuleDecl) (table : SymbolTable) (functions : FunctionTable)
    (rule : Rule) : Prop where
  clean : (RuleDraft.of table declared.conditions).problems = []
  conditions : rule.conditions = (RuleDraft.of table declared.conditions).conditions
  arity : rule.arity = (RuleDraft.of table declared.conditions).arity
  consequence : ((RuleDraft.of table declared.conditions).bindings.compileConsequence table
    declared.consequence).1 = .ok rule.consequence
  functions : rule.functions = functions

/-- A rule that compiles was drafted from its declaration, without errors. -/
theorem RuleDecl.drafted_of_compile {declared : RuleDecl} {table : SymbolTable}
    {functions : FunctionTable} {rule : Rule}
    (compiled : declared.compile table functions = .ok rule) :
    declared.Drafted table functions rule := by
  unfold RuleDecl.compile at compiled
  dsimp only at compiled
  split at compiled
  · cases compiled
  · next consequence isConsequence =>
      split at compiled
      · next clean =>
          cases compiled
          exact ⟨List.isEmpty_iff.mp clean, rfl, rfl, isConsequence, rfl⟩
      · cases compiled

/-- A compiled rule bears the name of the package in whose scope it was compiled. -/
theorem RuleDecl.package_of_compile {declared : RuleDecl} {table : SymbolTable}
    {functions : FunctionTable} {rule : Rule}
    (compiled : declared.compile table functions = .ok rule) :
    rule.package = table.package.text := by
  unfold RuleDecl.compile at compiled
  dsimp only at compiled
  repeat' split at compiled
  all_goals
    cases compiled
  rfl

/-- A compiled rule refers to what there is, and has the functions that it was compiled against. -/
theorem RuleDecl.scoped_of_compile {declared : RuleDecl} {table : SymbolTable}
    {functions : FunctionTable} {rule : Rule}
    (compiled : declared.compile table functions = .ok rule) : rule.functions = functions ∧
      (table.declared.length ≤ functions.functions.length → rule.Scoped) := by
  have drafted := RuleDecl.drafted_of_compile compiled
  refine ⟨drafted.functions, fun enough => ?_⟩
  set draft := RuleDraft.of table declared.conditions with isDraft
  have fits : draft.Fits functions.functions.length :=
    RuleDraft.Fits.foldl enough declared.conditions (fun _ => RuleDraft.fits_empty) drafted.clean
  let room : Room := { facts := draft.arity, functions := functions.functions.length }
  have start : draft.bindings.Fits { room with slots := draft.bindings.frameSize } :=
    fits.bindings.mono ⟨Nat.le_refl _, Nat.zero_le _, id, Nat.le_refl _, id⟩
  refine ⟨?_, fun isPrefix => ?_, ?_⟩
  · rw [drafted.arity, drafted.conditions]
    exact fits.arity
  · rw [drafted.functions]
    exact fits.conditions (drafted.conditions ▸ isPrefix)
  · rw [drafted.functions, drafted.arity]
    exact Bindings.compileConsequence_fits room enough start drafted.consequence

end Rete
