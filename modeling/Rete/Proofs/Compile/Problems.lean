import Mathlib.Data.List.Forall2
import Rete.Proofs.Compile.Package

/-!
# Problems of rules

Whatever is in scope, a problem that is found while a rule is compiled is an error, and a rule
that does not compile has one (`RuleDecl.hasErrors_of_compile`). So when a package compiles
without errors, each of its rules has compiled (`PackageDecl.forall₂_compile`), and a rule that
is declared behind them is compiled against the same names and only adds itself
(`PackageDecl.clean_withRule`).
-/

namespace Rete

/-! ## Variables in scope -/

/-- There is room for what a variable stands for. -/
theorem Variable.exists_fits (meaning : Variable) (least : Room) :
    ∃ room : Room, least.Within room ∧ meaning.Fits room := by
  have within : ∀ {facts slots : Nat}, least.facts ≤ facts → least.slots ≤ slots →
      least.Within { least with facts, slots, current := true } :=
    fun moreFacts moreSlots => ⟨moreFacts, moreSlots, fun _ => rfl, Nat.le_refl _, id⟩
  cases meaning with
  | fact index type | factField index field type =>
      refine ⟨_, within (Nat.le_max_left _ (index + 1)) (Nat.le_refl _), ?_⟩
      exact Nat.lt_of_lt_of_le (Nat.lt_succ_self index) (Nat.le_max_right _ _)
  | currentField field type =>
      exact ⟨_, within (Nat.le_refl _) (Nat.le_refl _), rfl⟩
  | slot index type =>
      refine ⟨_, within (Nat.le_refl _) (Nat.le_max_left _ (index + 1)), ?_⟩
      exact Nat.lt_of_lt_of_le (Nat.lt_succ_self index) (Nat.le_max_right _ _)

private theorem Room.Within.trans {room larger largest : Room} (first : room.Within larger)
    (second : larger.Within largest) : room.Within largest where
  facts := Nat.le_trans first.facts second.facts
  slots := Nat.le_trans first.slots second.slots
  current inside := second.current (first.current inside)
  functions := Nat.le_trans first.functions second.functions
  updates may := second.updates (first.updates may)

namespace Bindings

/-- There is room for what all variables in scope stand for. -/
theorem exists_fits (bindings : Bindings) (least : Room) :
    ∃ room : Room, least.Within room ∧ bindings.Fits room := by
  have listed : ∀ entries : List (String × Variable), ∃ room : Room,
      Room.Within { least with current := true, updates := true } room ∧
        ∀ entry ∈ entries, entry.2.Fits room := by
    intro entries
    induction entries with
    | nil =>
        refine ⟨_, ⟨Nat.le_refl _, Nat.le_refl _, id, Nat.le_refl _, id⟩, fun entry none => ?_⟩
        exact absurd none List.not_mem_nil
    | cons entry rest ih =>
        obtain ⟨room, within, each⟩ := ih
        obtain ⟨larger, grows, here⟩ := entry.2.exists_fits room
        refine ⟨larger, within.trans grows, List.forall_mem_cons.mpr ⟨here, fun other member => ?_⟩⟩
        exact (each other member).mono grows
  obtain ⟨room, within, each⟩ := listed bindings.vars.entries
  refine ⟨room, ⟨within.facts, within.slots, fun _ => within.current rfl, within.functions,
    fun _ => within.updates rfl⟩, fun found => ?_, fun _ => within.current rfl,
    fun _ => within.updates rfl⟩
  exact each _ ((SortedMap.mem_entries ..).mpr found)

variable {table : SymbolTable} {bindings : Bindings} {problem : Diagnostic}

/-! ## Expressions and statements -/

private theorem isError_of_compileCondition {condition : Term}
    (failed : bindings.compileCondition table condition = .error problem) :
    problem.isError = true := by
  obtain ⟨room, within, fits⟩ := bindings.exists_fits { functions := table.declared.length }
  exact (compileCondition_fits within.functions fits condition).of_error failed

private theorem isError_of_bindField {name field : String}
    (failed : bindings.bindField name field = .error problem) : problem.isError = true := by
  obtain ⟨room, -, fits⟩ := bindings.exists_fits {}
  exact (fits.bindField name field).of_error failed

private theorem isError_of_compilePlain {statement : Statement}
    (failed : bindings.compilePlain table statement = .error problem) : problem.isError = true := by
  obtain ⟨room, within, fits⟩ := bindings.exists_fits
    { functions := table.declared.length
      slots := (bindings.afterStatement table statement).frameSize }
  exact (compilePlain_fits within.functions fits statement within.slots).of_error failed

private theorem isError_of_compileStatements (statements : List Statement) (bindings : Bindings) :
    ∀ problem ∈ (compileStatements table bindings statements).2.1, problem.isError = true := by
  induction statements generalizing bindings with
  | nil => exact fun _ none => absurd none List.not_mem_nil
  | cons statement rest ih =>
      have later := ih (bindings.afterStatement table statement)
      unfold compileStatements compileStatement
      dsimp only
      split
      · exact later
      · next failed => exact List.forall_mem_cons.mpr ⟨isError_of_compilePlain failed, later⟩

/-- A consequence that does not compile has errors, and nothing else. -/
theorem isError_of_compileConsequence {statements : List Statement} {problems : List Diagnostic}
    (failed : (bindings.compileConsequence table statements).1 = .error problems) :
    problems ≠ [] ∧ ∀ problem ∈ problems, problem.isError = true := by
  unfold compileConsequence at failed
  dsimp only at failed
  split at failed
  · cases failed
  · next some =>
      cases failed
      exact ⟨fun none => some (List.isEmpty_iff.mpr none), isError_of_compileStatements _ _⟩

end Bindings

/-! ## Conditions -/

namespace RuleDraft

variable {table : SymbolTable}

private theorem PatternDraft.isError_addConstraint {draft : PatternDraft}
    (before : ∀ problem ∈ draft.problems, problem.isError = true) (constraint : Constraint) :
    ∀ problem ∈ (draft.addConstraint table constraint).problems, problem.isError = true := by
  cases constraint with
  | bind var field =>
      unfold addConstraint
      dsimp only
      split
      · exact before
      · next failed =>
          exact List.forall_mem_append.mpr
            ⟨before, List.forall_mem_singleton.mpr (Bindings.isError_of_bindField failed)⟩
  | test condition =>
      unfold addConstraint
      dsimp only
      split
      · split <;> exact before
      · next failed =>
          exact List.forall_mem_append.mpr
            ⟨before, List.forall_mem_singleton.mpr (Bindings.isError_of_compileCondition failed)⟩

private theorem PatternDraft.isError_enter (table : SymbolTable) (draft : RuleDraft)
    (type : RecordType) (constraints : List Constraint) :
    ∀ problem ∈ (draft.enter table type constraints).problems, problem.isError = true := by
  unfold enter
  apply List.foldlRecOn (motive := fun inside : PatternDraft =>
    ∀ problem ∈ inside.problems, problem.isError = true)
  · exact fun _ none => absurd none List.not_mem_nil
  · exact fun inside before constraint _ => isError_addConstraint before constraint

private theorem PatternDraft.isError_leave {inside : PatternDraft}
    (before : ∀ problem ∈ inside.problems, problem.isError = true) (binding : Option String)
    (index : Option Nat) (type : RecordType) :
    ∀ problem ∈ (inside.leave binding index type).problems, problem.isError = true := by
  unfold leave bindMatch
  split
  · exact before
  · exact List.forall_mem_append.mpr ⟨before, List.forall_mem_singleton.mpr rfl⟩
  · exact before

private theorem isError_addPattern {draft : RuleDraft}
    (before : ∀ problem ∈ draft.problems, problem.isError = true) (pattern : PatternDecl)
    (negated : Bool) :
    ∀ problem ∈ (draft.addPattern table pattern negated).problems, problem.isError = true := by
  unfold addPattern
  split
  · next failed =>
      have own := (table.compiles_resolveType pattern.typeName).of_error failed
      refine List.forall_mem_append.mpr ⟨before, List.forall_mem_singleton.mpr ?_⟩
      exact (Diagnostic.isError_withSpan _ _).trans own
  · next type _ =>
      have own := PatternDraft.isError_enter table draft type.toRecordType pattern.constraints
      -- Which index the pattern has and how many facts it adds makes no difference here.
      dsimp only
      generalize (if negated = true then (none : Option Nat) else some draft.arity) = index
      generalize (if negated = true then draft.arity else draft.arity + 1) = arity
      have outside := PatternDraft.isError_leave own pattern.binding index type.toRecordType
      split
      · exact before
      · refine List.forall_mem_append.mpr ⟨before, List.forall_mem_map.mpr fun problem member => ?_⟩
        exact (Diagnostic.isError_withSpan _ _).trans (outside problem member)

private theorem isError_addCondition {draft : RuleDraft}
    (before : ∀ problem ∈ draft.problems, problem.isError = true) (condition : ConditionDecl) :
    ∀ problem ∈ (draft.addCondition table condition).problems, problem.isError = true := by
  cases condition with
  | pattern pattern => exact isError_addPattern before pattern false
  | absent pattern => exact isError_addPattern before pattern true
  | eval condition =>
      unfold addCondition
      dsimp only
      split
      · exact before
      · next failed =>
          exact List.forall_mem_append.mpr
            ⟨before, List.forall_mem_singleton.mpr (Bindings.isError_of_compileCondition failed)⟩

private theorem isError_of (table : SymbolTable) (conditions : List ConditionDecl) :
    ∀ problem ∈ (RuleDraft.of table conditions).problems, problem.isError = true := by
  unfold RuleDraft.of
  apply List.foldlRecOn (motive := fun draft : RuleDraft =>
    ∀ problem ∈ draft.problems, problem.isError = true)
  · exact fun _ none => absurd none List.not_mem_nil
  · exact fun draft before condition _ => isError_addCondition before condition

end RuleDraft

/-! ## Rules -/

namespace RuleDecl

variable {declared : RuleDecl} {table : SymbolTable} {functions : FunctionTable}

/-- A rule is refused for an error only, never for warnings. -/
theorem hasErrors_of_compile {problems : List Diagnostic}
    (failed : declared.compile table functions = .error problems) : hasErrors problems = true := by
  have ofConditions := RuleDraft.isError_of table declared.conditions
  -- Whatever was found is reported with the rule that it was found in.
  have reported : ∀ {found : List Diagnostic}, found ≠ [] →
      (∀ problem ∈ found, problem.isError = true) →
      hasErrors (found.map fun problem => ((problem.withPackage table.package.text).withRule
        declared.name).withSpan declared.span) = true := by
    intro found some each
    obtain ⟨first, member⟩ := List.exists_mem_of_ne_nil found some
    refine List.any_eq_true.mpr ⟨_, List.mem_map_of_mem member, ?_⟩
    simp only [Diagnostic.isError_withSpan, Diagnostic.isError_withRule,
      Diagnostic.isError_withPackage, each first member]
  unfold RuleDecl.compile at failed
  dsimp only at failed
  split at failed
  · next found isFound =>
      obtain ⟨some, each⟩ := Bindings.isError_of_compileConsequence isFound
      cases failed
      exact reported (List.append_ne_nil_of_right_ne_nil _ some)
        (List.forall_mem_append.mpr ⟨ofConditions, each⟩)
  · split at failed
    · cases failed
    · next some =>
        cases failed
        exact reported (fun none => some (List.isEmpty_iff.mpr none)) ofConditions

/-- A compiled rule is named and enabled as it is declared. -/
theorem header_of_compile {rule : Rule} (compiled : declared.compile table functions = .ok rule) :
    rule.name = declared.name ∧ rule.enabled = declared.enabled := by
  unfold RuleDecl.compile at compiled
  dsimp only at compiled
  repeat' split at compiled
  all_goals
    cases compiled
  exact ⟨rfl, rfl⟩

end RuleDecl

namespace PackageDecl

section

variable {package : String} {scope : PackageScope} {declared : List RuleDecl} {last : RuleDecl}

/-- A rule whose name is new is compiled behind the others. -/
theorem compileRules_concat {rule : Rule}
    (different : ∀ rule ∈ (compileRules package scope declared).1, rule.name ≠ last.name)
    (compiled : last.compile scope.table scope.functions = .ok rule) :
    compileRules package scope (declared ++ [last]) =
      ((compileRules package scope declared).1 ++ [rule],
        (compileRules package scope declared).2) := by
  have new : ¬ ((compileRules package scope declared).1.any fun other =>
      other.name == last.name) = true := by
    intro taken
    obtain ⟨other, member, same⟩ := List.any_eq_true.mp taken
    exact different other member (beq_iff_eq.mp same)
  unfold compileRules at new ⊢
  rw [List.foldl_concat]
  dsimp only
  rw [if_neg new, compiled]

/-- A rule is compiled behind others without errors only if its name is none of theirs. -/
theorem clean_compileRules_concat :
    hasErrors (compileRules package scope (declared ++ [last])).2 = false ↔
      hasErrors (compileRules package scope declared).2 = false ∧
      (∀ rule ∈ (compileRules package scope declared).1, rule.name ≠ last.name) ∧
      ∃ rule, last.compile scope.table scope.functions = .ok rule := by
  constructor
  · intro clean
    unfold compileRules at clean ⊢
    rw [List.foldl_concat] at clean
    set earlier := declared.foldl _ (([], []) : List Rule × List Diagnostic)
    dsimp only at clean
    split at clean
    · rw [hasErrors_append, Bool.or_eq_false_iff] at clean
      -- The name is refused with an error.
      cases (hasErrors_eq_false.mp clean.2 _ List.mem_cons_self).symm.trans
        ((Diagnostic.isError_withPackage _ _).trans (Diagnostic.isError_withSpan _ _))
    · next new =>
        have different : ∀ rule ∈ earlier.1, rule.name ≠ last.name := fun rule member same =>
          new (List.any_eq_true.mpr ⟨rule, member, beq_iff_eq.mpr same⟩)
        cases compiled : last.compile scope.table scope.functions with
        | ok rule =>
            rw [compiled] at clean
            exact ⟨clean, different, rule, rfl⟩
        | error problems =>
            rw [compiled, hasErrors_append, RuleDecl.hasErrors_of_compile compiled,
              Bool.or_true] at clean
            cases clean
  · rintro ⟨clean, different, rule, compiled⟩
    rw [compileRules_concat different compiled]
    exact clean

/-- Rules that compile without errors are compiled one by one. -/
theorem forall₂_compileRules (clean : hasErrors (compileRules package scope declared).2 = false) :
    List.Forall₂ (fun own rule => own.compile scope.table scope.functions = .ok rule) declared
      (compileRules package scope declared).1 := by
  induction declared using List.reverseRecOn with
  | nil => exact .nil
  | append_singleton earlier last ih =>
      obtain ⟨before, different, rule, compiled⟩ := clean_compileRules_concat.mp clean
      rw [compileRules_concat different compiled]
      exact List.rel_append (ih before) (.cons compiled .nil)

end

variable {declared : PackageDecl} {catalog : Catalog} {last : RuleDecl}

/-- The package with one more rule, behind those that it has. -/
def withRule (declared : PackageDecl) (last : RuleDecl) : PackageDecl :=
  { declared with rules := declared.rules ++ [last] }

/-- The names of a package, and the problems found with them, do not depend on its rules. -/
theorem exists_front (declared : PackageDecl) (catalog : Catalog) :
    ∃ front : List Diagnostic, ∀ rules : List RuleDecl,
      let scope := (declared.compile catalog).1.scope
      let compiled := compileRules declared.name scope rules
      PackageDecl.compile { declared with rules } catalog =
        (⟨declared.name, scope, compiled.1⟩, front ++ compiled.2) :=
  ⟨(PackageDecl.compile { declared with rules := [] } catalog).2, fun _ =>
    Prod.ext rfl (congrArg (· ++ _) (List.append_nil _).symm)⟩

/-- When a package compiles without errors its rules are those that are declared, compiled. -/
theorem forall₂_compile (clean : hasErrors (declared.compile catalog).2 = false) :
    List.Forall₂ (fun own rule => own.compile (declared.compile catalog).1.scope.table
      (declared.compile catalog).1.scope.functions = .ok rule) declared.rules
      (declared.compile catalog).1.rules := by
  obtain ⟨front, whole⟩ := declared.exists_front catalog
  have own := whole declared.rules
  rw [own, hasErrors_append, Bool.or_eq_false_iff] at clean
  rw [own]
  exact forall₂_compileRules clean.2

/-- The names of the compiled rules are those that are declared. -/
theorem forall_names_iff (clean : hasErrors (declared.compile catalog).2 = false) {name : String} :
    (∀ rule ∈ (declared.compile catalog).1.rules, rule.name ≠ name) ↔
      ∀ own ∈ declared.rules, own.name ≠ name := by
  have named := (forall₂_compile clean).imp fun own rule compiled =>
    (RuleDecl.header_of_compile compiled).1.symm
  have listed := List.forall₂_map_left_iff.mpr (List.forall₂_map_right_iff.mpr named)
  rw [List.forall₂_eq_eq_eq] at listed
  have ofCompiled := List.forall_mem_map (l := (declared.compile catalog).1.rules) (f := Rule.name)
    (P := (· ≠ name))
  rw [← listed, List.forall_mem_map] at ofCompiled
  exact ofCompiled.symm

/-- One more rule is compiled as it is in the scope of the package without it. -/
theorem compile_withRule {rule : Rule} (clean : hasErrors (declared.compile catalog).2 = false)
    (different : ∀ own ∈ declared.rules, own.name ≠ last.name)
    (compiled : last.compile (declared.compile catalog).1.scope.table
      (declared.compile catalog).1.scope.functions = .ok rule) :
    (declared.withRule last).compile catalog =
      ({ (declared.compile catalog).1 with rules := (declared.compile catalog).1.rules ++ [rule] },
        (declared.compile catalog).2) := by
  obtain ⟨front, whole⟩ := declared.exists_front catalog
  have before := whole declared.rules
  have new := (forall_names_iff clean).mpr different
  rw [before] at new
  rw [withRule, whole, compileRules_concat new compiled, before]

/-- A package with one more rule compiles without errors if it does without it, its name is new and
it compiles there. -/
theorem clean_withRule : hasErrors ((declared.withRule last).compile catalog).2 = false ↔
    hasErrors (declared.compile catalog).2 = false ∧
    (∀ own ∈ declared.rules, own.name ≠ last.name) ∧
    ∃ rule, last.compile (declared.compile catalog).1.scope.table
      (declared.compile catalog).1.scope.functions = .ok rule := by
  constructor
  · intro clean
    obtain ⟨front, whole⟩ := declared.exists_front catalog
    have before := whole declared.rules
    rw [withRule, whole, hasErrors_append, Bool.or_eq_false_iff, clean_compileRules_concat] at clean
    obtain ⟨ofFront, ofRules, different, compiled⟩ := clean
    have cleanBefore : hasErrors (declared.compile catalog).2 = false := by
      rw [before, hasErrors_append, ofFront, ofRules]
      rfl
    refine ⟨cleanBefore, (forall_names_iff cleanBefore).mp ?_, compiled⟩
    rw [before]
    exact different
  · rintro ⟨clean, different, rule, compiled⟩
    rw [compile_withRule clean different compiled]
    exact clean

end PackageDecl

end Rete
