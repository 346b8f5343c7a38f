import Mathlib.Data.List.Induction
import Rete.Proofs.Compile.Rule

/-!
# The scope of compiled packages

A package that compiles without errors has a compiled function for every declared one, so that calls
find theirs (`PackageDecl.complete_compile`); imports and globals declare no functions. The rules of
a package are those of its declaration, compiled in its scope (`PackageDecl.compiled_of_mem_rules`).
-/

namespace Rete

/-! ## Declarations -/

namespace SymbolTable

/-- Names were added to a table, but no functions of the package. -/
structure Extends (table after : SymbolTable) : Prop where
  package : after.package = table.package
  declared : after.declared = table.declared

/-- What is added twice over is added. -/
theorem Extends.trans {table after last : SymbolTable} (first : table.Extends after)
    (second : after.Extends last) : table.Extends last :=
  ⟨second.package.trans first.package, second.declared.trans first.declared⟩

variable (table : SymbolTable)

/-- Importing a type only adds to a table. -/
theorem extends_importType (name : String) : table.Extends (table.importType name).1 := by
  unfold importType
  split
  · exact ⟨rfl, rfl⟩
  · dsimp only
    repeat' split
    all_goals exact ⟨rfl, rfl⟩

/-- Importing the types of a package only adds to a table. -/
theorem extends_importTypesIn (package : String) :
    table.Extends (table.importTypesIn package).1 := by
  unfold importTypesIn
  dsimp only
  repeat' split
  all_goals exact ⟨rfl, rfl⟩

private theorem extends_importNamed (type : TypeDef) (name : String) :
    table.Extends (table.importNamed type name).1 := by
  unfold importNamed
  dsimp only
  repeat' split
  all_goals exact ⟨rfl, rfl⟩

/-- Importing functions only adds to a table. -/
theorem extends_importFunctions (holder : String) (function : Option String) :
    table.Extends (table.importFunctions holder function).1 := by
  unfold importFunctions
  split
  · exact ⟨rfl, rfl⟩
  · split
    · exact table.extends_importNamed _ _
    · exact ⟨rfl, rfl⟩

private theorem extends_declareGlobal {after : SymbolTable} {name : String} {type : ValueType}
    (declares : table.declareGlobal name type = .ok after) : table.Extends after := by
  unfold declareGlobal at declares
  split at declares
  · cases declares
    exact ⟨rfl, rfl⟩
  · split at declares
    · cases declares
      exact ⟨rfl, rfl⟩
    · cases declares

end SymbolTable

namespace PackageDecl

/-- If each import only adds to a table, then all of them do. -/
theorem extends_applyImports {α : Type}
    (apply : SymbolTable → α → SymbolTable × Option Diagnostic)
    (each : ∀ (table : SymbolTable) item, table.Extends (apply table item).1) (span : α → Span)
    (table : SymbolTable) (imports : List α) :
    table.Extends (applyImports apply span table imports).1 := by
  unfold applyImports
  apply List.foldlRecOn (motive := fun state : SymbolTable × List Diagnostic =>
    table.Extends state.1)
  · exact ⟨rfl, rfl⟩
  · exact fun state before item _ => before.trans (each state.1 item)

/-- A type import, named or wildcard, only adds to a table. -/
theorem extends_importType (table : SymbolTable) (declared : ImportDecl) :
    table.Extends (importType table declared).1 := by
  cases declared with
  | type name => exact table.extends_importType name
  | wildcard package => exact table.extends_importTypesIn package

private theorem extends_declareGlobal (table : SymbolTable) (global : GlobalDecl) :
    table.Extends (declareGlobal table global).1 := by
  unfold declareGlobal
  dsimp only
  split
  · next after declares =>
      cases resolved : table.resolveValueType global.typeName with
      | error problem =>
          rw [resolved] at declares
          cases declares
      | ok type =>
          rw [resolved] at declares
          exact table.extends_declareGlobal declares
  · exact ⟨rfl, rfl⟩

/-- The names that a package has before its functions. -/
def imported (declared : PackageDecl) (catalog : Catalog) : SymbolTable :=
  (applyImports declareGlobal GlobalDecl.span
    (applyImports (fun table found => table.importFunctions found.holder found.function)
      FunctionImportDecl.span
      (applyImports importType ImportDecl.span (.ofPackage declared.name catalog)
        declared.imports).1 declared.functionImports).1 declared.globals).1

/-- The imports of a package only add to its table. -/
theorem extends_imported (declared : PackageDecl) (catalog : Catalog) :
    (SymbolTable.ofPackage declared.name catalog).Extends (declared.imported catalog) := by
  unfold imported
  set types := (applyImports importType ImportDecl.span _ declared.imports).1
  set functions := (applyImports _ FunctionImportDecl.span types declared.functionImports).1
  have first := extends_applyImports importType extends_importType ImportDecl.span
    (.ofPackage declared.name catalog) declared.imports
  have second := extends_applyImports
    (fun table (found : FunctionImportDecl) => table.importFunctions found.holder found.function)
    (fun table found => table.extends_importFunctions found.holder found.function)
    FunctionImportDecl.span types declared.functionImports
  have third := extends_applyImports declareGlobal extends_declareGlobal GlobalDecl.span functions
    declared.globals
  exact first.trans (second.trans third)

/-- Functions are those of the same package. -/
theorem package_declareFunctions (table : SymbolTable) (functions : List FunctionDecl) :
    (declareFunctions table functions).1.package = table.package := by
  unfold declareFunctions
  apply List.foldlRecOn (motive := fun state : SymbolTable × List (FunctionDecl × Signature) ×
    List Diagnostic => state.1.package = table.package)
  · rfl
  · intro state same function _
    dsimp only
    split
    · exact same
    · split
      · exact same
      · next after declares =>
          unfold SymbolTable.declareFunction at declares
          split at declares
          · cases declares
          · cases declares
            exact same

/-- The functions with a good signature are those that calls can mean. -/
theorem length_declareFunctions {table : SymbolTable} (none : table.declared = [])
    (functions : List FunctionDecl) : (declareFunctions table functions).1.declared.length =
      (declareFunctions table functions).2.1.length := by
  unfold declareFunctions
  apply List.foldlRecOn (motive := fun state : SymbolTable × List (FunctionDecl × Signature) ×
    List Diagnostic => state.1.declared.length = state.2.1.length)
  · rw [none]
    rfl
  · intro state same function _
    dsimp only
    split
    · exact same
    · split
      · exact same
      · next after declares =>
          unfold SymbolTable.declareFunction at declares
          split at declares
          · cases declares
          · cases declares
            rw [List.length_append, List.length_append, same]
            rfl

/-- Function bodies that compiled, and problems if one did not. -/
structure Bodies (count : Nat) (declared : List (FunctionDecl × Signature))
    (compiled : List FunctionBody × List Diagnostic) : Prop where
  errors : ∀ problem ∈ compiled.2, problem.isError = true
  complete : compiled.2 = [] → compiled.1.length = declared.length
  fit : ∀ function ∈ compiled.1,
    function.body.Fits { slots := function.frameSize, functions := count }

private theorem bodies_compileFunctions {table : SymbolTable} {count : Nat}
    (enough : table.declared.length ≤ count) (functions : List (FunctionDecl × Signature)) :
    Bodies count functions (compileFunctions table functions) := by
  induction functions using List.reverseRecOn with
  | nil =>
      exact ⟨fun _ none => absurd none List.not_mem_nil, fun _ => rfl,
        fun _ none => absurd none List.not_mem_nil⟩
  | append_singleton earlier last ih =>
      obtain ⟨function, signature⟩ := last
      have judged := function.compile_fits enough signature
      unfold compileFunctions at ih ⊢
      rw [List.foldl_concat]
      set compiled := earlier.foldl _ (([], []) : List FunctionBody × List Diagnostic)
      dsimp only
      split
      · next body isBody =>
          refine ⟨ih.errors, fun none => ?_, List.forall_mem_append.mpr
            ⟨ih.fit, List.forall_mem_singleton.mpr (judged.of_ok isBody)⟩⟩
          rw [List.length_append, List.length_append, ih.complete none]
          rfl
      · next problem isError =>
          refine ⟨List.forall_mem_append.mpr ⟨ih.errors, List.forall_mem_singleton.mpr ?_⟩,
            fun none => ?_, ih.fit⟩
          · simpa only [Diagnostic.isError_withSpan, Diagnostic.isError_withRule] using
              judged.of_error isError
          · cases List.append_ne_nil_of_right_ne_nil _ (List.cons_ne_nil _ _) none

end PackageDecl

/-! ## Packages -/

/-- Calls find the functions of the package, and these refer to what there is. -/
structure PackageScope.Complete (scope : PackageScope) : Prop where
  declared : scope.table.declared.length ≤ scope.functions.functions.length
  functions : scope.functions.Scoped

/-- Problems stop the build if some on either side do. -/
@[simp] theorem hasErrors_append (problems more : List Diagnostic) :
    hasErrors (problems ++ more) = (hasErrors problems || hasErrors more) := List.any_append

/-- Problems do not stop the build exactly if none of them is an error. -/
theorem hasErrors_eq_false {problems : List Diagnostic} :
    hasErrors problems = false ↔ ∀ problem ∈ problems, problem.isError = false := by
  simp only [hasErrors, List.any_eq_false, Bool.not_eq_true]

namespace PackageDecl

private theorem compiled_of_mem_compileRules {package : String} {scope : PackageScope}
    {declared : List RuleDecl} {rule : Rule}
    (member : rule ∈ (compileRules package scope declared).1) :
    ∃ own ∈ declared, own.compile scope.table scope.functions = .ok rule := by
  unfold compileRules at member
  revert rule
  apply List.foldlRecOn (motive := fun compiled : List Rule × List Diagnostic =>
    ∀ {rule}, rule ∈ compiled.1 →
      ∃ own ∈ declared, own.compile scope.table scope.functions = .ok rule)
  · exact fun none => absurd none List.not_mem_nil
  · intro compiled holds own isOwn rule member
    dsimp only at member
    split at member
    · exact holds member
    · split at member
      · next found isFound =>
          rcases List.mem_append.mp member with earlier | here
          · exact holds earlier
          · exact ⟨own, isOwn, List.mem_singleton.mp here ▸ isFound⟩
      · exact holds member

/-- A rule of a package is a rule of the declaration, compiled in the scope of the package. -/
theorem compiled_of_mem_rules {declared : PackageDecl} {catalog : Catalog} {rule : Rule}
    (member : rule ∈ (declared.compile catalog).1.rules) :
    ∃ own ∈ declared.rules, own.compile (declared.compile catalog).1.scope.table
      (declared.compile catalog).1.scope.functions = .ok rule :=
  compiled_of_mem_compileRules member

/-- The names of a package are looked up in the package. -/
theorem package_compile (declared : PackageDecl) (catalog : Catalog) :
    (declared.compile catalog).1.scope.table.package = .ofText declared.name :=
  (package_declareFunctions (declared.imported catalog) _).trans
    (declared.extends_imported catalog).package

/-- A package that compiles without errors is complete. -/
theorem complete_compile {declared : PackageDecl} {catalog : Catalog}
    (clean : hasErrors (declared.compile catalog).2 = false) :
    (declared.compile catalog).1.scope.Complete := by
  let found := declareFunctions (declared.imported catalog) declared.functions
  let compiled := compileFunctions found.1 found.2.1
  have isScope : (declared.compile catalog).1.scope =
    ⟨found.1, { package := declared.name, functions := compiled.1 }⟩ := rfl
  rw [isScope]
  unfold compile at clean
  have none : (declared.imported catalog).declared = [] :=
    (declared.extends_imported catalog).declared
  have bodies : Bodies found.1.declared.length found.2.1 compiled :=
    bodies_compileFunctions (Nat.le_refl _) _
  have noProblem : compiled.2 = [] := by
    refine List.eq_nil_iff_forall_not_mem.mpr fun problem member => ?_
    have listed := hasErrors_eq_false.mp clean (problem.withPackage declared.name)
      (List.mem_append_left _ (List.mem_map_of_mem (List.mem_append_right _ member)))
    rw [Diagnostic.isError_withPackage, bodies.errors problem member] at listed
    cases listed
  have same : found.1.declared.length = compiled.1.length :=
    (length_declareFunctions none _).trans (bodies.complete noProblem).symm
  refine ⟨Nat.le_of_eq same, fun function member => ?_⟩
  rw [← same]
  exact bodies.fit function member

end PackageDecl

end Rete
