import Rete.Proofs.Compile.Package
import Rete.Proofs.SymbolTable.Imports

/-!
# The order of a package's imports

The imports of a package are applied one after the other, and what they leave in its table is
described by which imports there are (`PackageDecl.typesOf_importTypes`,
`PackageDecl.functionsOf_importedFunctions`). So packages that only differ in the order of their
imports resolve every name alike.
-/

namespace Rete

/-- A catalog whose types were registered one after the other. -/
inductive Catalog.Built : Catalog → Prop
  | empty : Built {}
  | register {catalog after : Catalog} {type : TypeDef} (built : catalog.Built)
    (registered : catalog.register type = .ok after) : after.Built

/-- Every type of a catalog stands under its own full name. -/
theorem Catalog.Built.titled {catalog : Catalog} (built : catalog.Built) : catalog.Titled := by
  induction built with
  | empty =>
      intro name type found
      cases found
  | @register catalog after type _ registered ih =>
      unfold Catalog.register at registered
      split at registered
      · cases registered
      · cases registered
        intro name other found
        unfold Catalog.get? at found
        rw [SortedMap.find?_insert_eq] at found
        split at found
        · next same =>
            cases found
            exact same.symm
        · exact ih found

/-! ## What stays in a table -/

namespace SymbolTable

/-- The function imports of a table stay the same. -/
structure SameFunctions (table after : SymbolTable) : Prop where
  catalog : after.catalog = table.catalog
  imported : after.imported = table.imported
  importConflicts : after.importConflicts = table.importConflicts

private theorem SameFunctions.trans {table after last : SymbolTable}
    (first : table.SameFunctions after)
    (second : after.SameFunctions last) : table.SameFunctions last where
  catalog := second.catalog.trans first.catalog
  imported := second.imported.trans first.imported
  importConflicts := second.importConflicts.trans first.importConflicts

private theorem SameFunctions.resolveImported {table after : SymbolTable}
    (same : table.SameFunctions after) (name : String) (args : List ValueType) :
    after.resolveImported name args = table.resolveImported name args := by
  unfold SymbolTable.resolveImported
  rw [same.imported, same.importConflicts]

private theorem sameFunctions_importType (table : SymbolTable) (name : String) :
    table.SameFunctions (table.importType name).1 := by
  unfold importType
  split
  · exact ⟨rfl, rfl, rfl⟩
  · dsimp only
    repeat' split
    all_goals exact ⟨rfl, rfl, rfl⟩

private theorem sameFunctions_importTypesIn (table : SymbolTable) (package : String) :
    table.SameFunctions (table.importTypesIn package).1 := by
  unfold importTypesIn
  dsimp only
  repeat' split
  all_goals exact ⟨rfl, rfl, rfl⟩

private theorem sameTypes_importNamed (table : SymbolTable) (type : TypeDef) (name : String) :
    table.SameTypes (table.importNamed type name).1 := by
  unfold importNamed
  dsimp only
  repeat' split
  all_goals exact ⟨rfl, rfl, rfl, rfl, rfl⟩

private theorem sameTypes_importFunctions (table : SymbolTable) (holder : String)
    (function : Option String) : table.SameTypes (table.importFunctions holder function).1 := by
  unfold importFunctions
  split
  · exact ⟨rfl, rfl, rfl, rfl, rfl⟩
  · split
    · exact table.sameTypes_importNamed _ _
    · exact ⟨rfl, rfl, rfl, rfl, rfl⟩

end SymbolTable

namespace PackageDecl

section

variable {α : Type} {apply : SymbolTable → α → SymbolTable × Option Diagnostic}
  (span : α → Span) (table : SymbolTable) (imports : List α)

/-- The last import is applied to what the earlier ones leave. -/
theorem applyImports_concat (last : α) : (applyImports apply span table (imports ++ [last])).1 =
    (apply (applyImports apply span table imports).1 last).1 := by
  unfold applyImports
  rw [List.foldl_concat]

/-- What each import keeps holds after all of them. -/
theorem applyImports_keeps (holds : SymbolTable → Prop) (start : holds table)
    (each : ∀ before item, holds before → holds (apply before item).1) :
    holds (applyImports apply span table imports).1 := by
  induction imports using List.reverseRecOn with
  | nil => exact start
  | append_singleton earlier last ih =>
      rw [applyImports_concat]
      exact each _ last ih

end

end PackageDecl

/-! ## Type imports -/

/-- The import of a type by name. -/
def ImportDecl.Names (catalog : Catalog) (short : String) (type : TypeDef) : ImportDecl → Prop
  | .type name _ => catalog.get? name = some type ∧ type.name.simpleName = short
  | .wildcard _ _ => False

/-- The import of all types inside a package or type. -/
def ImportDecl.Opens (catalog : Catalog) (package : QualifiedName) : ImportDecl → Prop
  | .type _ _ => False
  | .wildcard text _ => (catalog.typesIn text).isEmpty = false ∧ package = .ofText text

namespace PackageDecl

private theorem siblings_importType (table : SymbolTable) (declared : ImportDecl) :
    SymbolTable.Siblings (importType table declared).1 table := by
  cases declared with
  | type name =>
      refine ⟨(table.extends_importType name).package, ?_⟩
      exact (table.sameFunctions_importType name).catalog
  | wildcard text =>
      refine ⟨(table.extends_importTypesIn text).package, ?_⟩
      exact (table.sameFunctions_importTypesIn text).catalog

private theorem sameFunctions_importType (table : SymbolTable) (declared : ImportDecl) :
    table.SameFunctions (importType table declared).1 := by
  cases declared with
  | type name => exact table.sameFunctions_importType name
  | wildcard text => exact table.sameFunctions_importTypesIn text

/-- One more type import is applied. -/
theorem typesOf_importType {named : String → TypeDef → Prop} {whole : QualifiedName → Prop}
    {table : SymbolTable} (of : SymbolTable.TypesOf named whole table) (declared : ImportDecl) :
    SymbolTable.TypesOf
      (fun short type => named short type ∨ declared.Names table.catalog short type)
      (fun package => whole package ∨ declared.Opens table.catalog package)
      (importType table declared).1 := by
  cases declared with
  | type name =>
      have noneWhole : (fun package => whole package ∨ False) = whole :=
        funext fun package => or_false _
      change SymbolTable.TypesOf _ (fun package => whole package ∨ False) (table.importType name).1
      rw [noneWhole]
      cases found : table.catalog.get? name with
      | none =>
          have unchanged : (table.importType name).1 = table := by
            unfold SymbolTable.importType
            rw [found]
          simpa only [unchanged, ImportDecl.Names, found, reduceCtorEq, false_and, or_false]
            using of
      | some type =>
          convert of.importType found using 3 with short other
          refine or_congr_right ?_
          rw [ImportDecl.Names, found, Option.some.injEq]
          constructor
          · rintro ⟨rfl, sameName⟩
            exact ⟨sameName.symm, rfl⟩
          · rintro ⟨sameName, rfl⟩
            exact ⟨rfl, sameName.symm⟩
  | wildcard text =>
      have noneNamed : (fun short type => named short type ∨ False) = named :=
        funext fun short => funext fun type => or_false _
      change SymbolTable.TypesOf (fun short type => named short type ∨ False) _
        (table.importTypesIn text).1
      rw [noneNamed]
      cases inhabited : (table.catalog.typesIn text).isEmpty with
      | true =>
          have unchanged : (table.importTypesIn text).1 = table := by
            unfold SymbolTable.importTypesIn
            rw [inhabited]
            rfl
          simpa only [unchanged, ImportDecl.Opens, inhabited, reduceCtorEq, false_and, or_false]
            using of
      | false =>
          convert of.importTypesIn inhabited using 3 with package
          exact and_iff_right inhabited

/-- Type imports change neither the package of a table nor its catalog. -/
theorem siblings_importTypes (name : String) (catalog : Catalog) (imports : List ImportDecl) :
    SymbolTable.Siblings
      (applyImports importType ImportDecl.span (.ofPackage name catalog) imports).1
      (.ofPackage name catalog) := by
  refine applyImports_keeps _ _ _ (SymbolTable.Siblings · (.ofPackage name catalog)) ⟨rfl, rfl⟩
    fun before declared siblings => ?_
  have step := siblings_importType before declared
  exact ⟨step.package.trans siblings.package, step.catalog.trans siblings.catalog⟩

/-- What type imports leave in the table of a package. -/
theorem typesOf_importTypes (name : String) (catalog : Catalog) (imports : List ImportDecl) :
    SymbolTable.TypesOf
      (fun short type => ∃ declared ∈ imports, declared.Names catalog short type)
      (fun package => ∃ declared ∈ imports, declared.Opens catalog package)
      (applyImports importType ImportDecl.span (.ofPackage name catalog) imports).1 := by
  induction imports using List.reverseRecOn with
  | nil =>
      simp only [List.not_mem_nil, false_and, exists_false]
      refine ⟨fun found => ?_, fun _ _ => id, ⟨?_, ?_⟩, ⟨fun member => ?_, False.elim⟩, False.elim⟩
      · cases found
      · rintro ⟨_, found⟩
        cases found
      · rintro ⟨_, _, isNamed, _⟩
        exact isNamed.elim
      · exact absurd member List.not_mem_nil
  | append_singleton earlier last ih =>
      have step := typesOf_importType ih last
      have isCatalog : (applyImports importType ImportDecl.span (.ofPackage name catalog)
        earlier).1.catalog = catalog := (siblings_importTypes name catalog earlier).catalog
      rw [isCatalog] at step
      rw [applyImports_concat]
      simpa only [List.mem_append, List.mem_singleton, or_and_right, exists_or, exists_eq_left]
        using step

end PackageDecl

/-! ## Function imports -/

namespace FunctionImportDecl

variable (find : String → Except Diagnostic TypeDef) (declared : FunctionImportDecl)

/-- The import of functions of one name of the type that is found for the holder. -/
def Names (name : String) (type : TypeDef) : Prop :=
  declared.function = some name ∧ find declared.holder = .ok type ∧ type.functionsNamed name ≠ []

/-- The import of all functions of the type that is found for the holder. -/
def BringsIn (native : Native) : Prop :=
  declared.function = none ∧ ∃ type, find declared.holder = .ok type ∧
    native ∈ type.functions.map HostFunction.toNative

end FunctionImportDecl

namespace PackageDecl

/-- Applies a function import. -/
def importFunctions (table : SymbolTable) (declared : FunctionImportDecl) :
    SymbolTable × Option Diagnostic :=
  table.importFunctions declared.holder declared.function

/-- One more function import is applied. -/
theorem functionsOf_importFunctions {named : String → TypeDef → Prop} {spread : Native → Prop}
    {table : SymbolTable} (of : SymbolTable.FunctionsOf named spread table)
    (listed : ∀ {name type}, table.resolveType name = .ok type →
      ∃ fullName, table.catalog.get? fullName = some type) (declared : FunctionImportDecl) :
    SymbolTable.FunctionsOf
      (fun name type => named name type ∨ declared.Names table.resolveType name type)
      (fun native => spread native ∨ declared.BringsIn table.resolveType native)
      (importFunctions table declared).1 := by
  obtain ⟨holder, function, span⟩ := declared
  unfold importFunctions SymbolTable.importFunctions
  cases resolved : table.resolveType holder with
  | error problem =>
      simpa only [FunctionImportDecl.Names, FunctionImportDecl.BringsIn, resolved, reduceCtorEq,
        false_and, and_false, exists_false, or_false] using of
  | ok type =>
      cases function with
      | none =>
          convert of.importAll (type.functions.map HostFunction.toNative)
            using 3 with name other native
          · refine or_iff_left ?_
            rintro ⟨noName, -⟩
            cases noName
          · refine ⟨?_, fun member => ⟨rfl, type, resolved, member⟩⟩
            rintro ⟨-, other, isOther, member⟩
            cases resolved.symm.trans isOther
            exact member
      | some name =>
          have noneSpread : (fun native => spread native ∨
              FunctionImportDecl.BringsIn table.resolveType ⟨holder, some name, span⟩ native) =
                spread := by
            funext native
            refine propext (or_iff_left ?_)
            rintro ⟨noName, -⟩
            cases noName
          rw [noneSpread]
          by_cases declares : type.functionsNamed name = []
          · have unchanged : (table.importNamed type name).1 = table := by
              unfold SymbolTable.importNamed
              rw [declares]
              rfl
            dsimp only
            rw [unchanged]
            convert of using 3 with other known
            refine or_iff_left ?_
            rintro ⟨sameName, isKnown, nonempty⟩
            cases sameName
            cases resolved.symm.trans isKnown
            exact nonempty declares
          · convert of.importNamed (listed resolved) declares using 3 with other known
            refine or_congr_right ⟨?_, ?_⟩
            · rintro ⟨sameName, isKnown, -⟩
              cases sameName
              cases resolved.symm.trans isKnown
              exact ⟨rfl, rfl⟩
            · rintro ⟨rfl, rfl⟩
              exact ⟨rfl, resolved, declares⟩

/-- Function imports leave the types of a table as they are. -/
theorem sameTypes_importFunctions (table : SymbolTable) (imports : List FunctionImportDecl) :
    table.SameTypes (applyImports importFunctions FunctionImportDecl.span table imports).1 :=
  applyImports_keeps _ _ _ table.SameTypes ⟨rfl, rfl, rfl, rfl, rfl⟩ fun before declared same =>
    same.trans (before.sameTypes_importFunctions declared.holder declared.function)

/-- What function imports leave in a table that had none. -/
theorem functionsOf_applyImports {table : SymbolTable} (fresh : table.imported = ∅)
    (clear : table.importConflicts = ∅)
    (listed : ∀ {name type}, table.resolveType name = .ok type →
      ∃ fullName, table.catalog.get? fullName = some type) (imports : List FunctionImportDecl) :
    SymbolTable.FunctionsOf
      (fun name type => ∃ declared ∈ imports, declared.Names table.resolveType name type)
      (fun native => ∃ declared ∈ imports, declared.BringsIn table.resolveType native)
      (applyImports importFunctions FunctionImportDecl.span table imports).1 := by
  induction imports using List.reverseRecOn with
  | nil =>
      simp only [List.not_mem_nil, false_and, exists_false]
      refine ⟨fun name => ?_, ⟨?_, ?_⟩, False.elim⟩
      · change SymbolTable.Binds _ _ name (table.imported.find? name)
        rw [fresh]
        exact .none (fun _ => id) fun _ => And.right
      · change (∃ colliding, table.importConflicts.find? _ = some colliding) → _
        rw [clear]
        rintro ⟨_, found⟩
        cases found
      · rintro ⟨_, _, isNamed, _⟩
        exact isNamed.elim
  | append_singleton earlier last ih =>
      have same := sameTypes_importFunctions table earlier
      have step := functionsOf_importFunctions ih
        (fun {name type} resolved => by
          rw [same.resolveType] at resolved
          rw [same.catalog]
          exact listed resolved) last
      rw [applyImports_concat]
      rw [show SymbolTable.resolveType _ = table.resolveType from funext same.resolveType] at step
      simpa only [List.mem_append, List.mem_singleton, or_and_right, exists_or, exists_eq_left]
        using step

end PackageDecl

/-! ## Packages with the same imports -/

namespace SymbolTable

/-- Only globals were added to a table. -/
structure Keeps (table after : SymbolTable) : Prop where
  types : table.SameTypes after
  functions : table.SameFunctions after
  declared : after.declared = table.declared

/-- Nothing added is a case of only globals added. -/
theorem Keeps.refl (table : SymbolTable) : table.Keeps table :=
  ⟨⟨rfl, rfl, rfl, rfl, rfl⟩, ⟨rfl, rfl, rfl⟩, rfl⟩

private theorem Keeps.trans {table after last : SymbolTable} (first : table.Keeps after)
    (second : after.Keeps last) : table.Keeps last where
  types := first.types.trans second.types
  functions := first.functions.trans second.functions
  declared := second.declared.trans first.declared

private theorem keeps_declareGlobal {table after : SymbolTable} {name : String} {type : ValueType}
    (declares : table.declareGlobal name type = .ok after) : table.Keeps after := by
  unfold declareGlobal at declares
  split at declares
  · cases declares
    exact ⟨⟨rfl, rfl, rfl, rfl, rfl⟩, ⟨rfl, rfl, rfl⟩, rfl⟩
  · split at declares
    · cases declares
      exact .refl table
    · cases declares

/-- Names of types and functions are resolved alike in two tables. -/
structure Alike (one other : SymbolTable) : Prop where
  types : ∀ name, SameOutcome (one.resolveType name) (other.resolveType name)
  imported : ∀ name args,
    SameOutcome (one.resolveImported name args) (other.resolveImported name args)
  declared : one.declared = other.declared

namespace Alike

variable {one other : SymbolTable} (alike : Alike one other)

include alike

private theorem resolveCallable (name : String) (args : List ValueType) :
    SameOutcome (one.resolveCallable name args) (other.resolveCallable name args) := by
  cases functions : one.declared.zipIdx.filter fun entry => entry.1.1 == name with
  | nil =>
      rw [resolveCallable_of_undeclared functions,
        resolveCallable_of_undeclared (alike.declared ▸ functions)]
      exact alike.imported name args
  | cons first rest =>
      unfold SymbolTable.resolveCallable
      rw [← alike.declared, functions]
      exact .refl _

private theorem resolveValueType (name : String) :
    SameOutcome (one.resolveValueType name) (other.resolveValueType name) := by
  unfold SymbolTable.resolveValueType
  split
  · exact .refl _
  · exact (alike.types name).map _

private theorem signatureOf (function : FunctionDecl) :
    SameOutcome (PackageDecl.signatureOf one function)
      (PackageDecl.signatureOf other function) := by
  have params : ∀ params, SameOutcome (PackageDecl.resolveParams one params)
      (PackageDecl.resolveParams other params) := by
    intro params
    induction params with
    | nil => exact .refl _
    | cons param rest ih =>
        exact (alike.resolveValueType param.2).bind fun type => ih.bind fun types => .refl _
  exact (params function.params).bind fun params =>
    (alike.resolveValueType function.returnType).bind fun returns => .refl _

/-- Globals make no difference. -/
theorem after {afterOne afterOther : SymbolTable} (keeps : one.Keeps afterOne)
    (keepsOther : other.Keeps afterOther) : Alike afterOne afterOther where
  types name := by
    rw [keeps.types.resolveType, keepsOther.types.resolveType]
    exact alike.types name
  imported name args := by
    rw [keeps.functions.resolveImported, keepsOther.functions.resolveImported]
    exact alike.imported name args
  declared := by rw [keeps.declared, keepsOther.declared, alike.declared]

/-- The same functions are declared. -/
theorem declareFunctions (functions : List FunctionDecl) :
    Alike (PackageDecl.declareFunctions one functions).1
      (PackageDecl.declareFunctions other functions).1 := by
  induction functions using List.reverseRecOn with
  | nil => exact alike
  | append_singleton earlier function ih =>
      unfold PackageDecl.declareFunctions at ih ⊢
      rw [List.foldl_concat, List.foldl_concat]
      set first :=
        earlier.foldl _ (one, ([] : List (FunctionDecl × Signature)), ([] : List Diagnostic))
      set second :=
        earlier.foldl _ (other, ([] : List (FunctionDecl × Signature)), ([] : List Diagnostic))
      have same := ih.signatureOf function
      dsimp only
      generalize PackageDecl.signatureOf first.1 function = signature at same
      generalize PackageDecl.signatureOf second.1 function = signatureOther at same
      cases signature with
      | error problem =>
          cases signatureOther with
          | error => exact ih
          | ok => cases same
      | ok signature =>
          cases signatureOther with
          | error => cases same
          | ok =>
              cases same
              dsimp only
              unfold SymbolTable.declareFunction
              rw [← ih.declared]
              generalize first.1.declared.any _ = isDeclared
              cases isDeclared with
              | true => exact ih
              | false => exact ⟨ih.types, ih.imported, rfl⟩

end Alike

end SymbolTable

namespace PackageDecl

private theorem keeps_declareGlobal (table : SymbolTable) (global : GlobalDecl) :
    table.Keeps (declareGlobal table global).1 := by
  unfold declareGlobal
  dsimp only
  split
  · next after declares =>
      cases resolved : table.resolveValueType global.typeName with
      | error problem =>
          rw [resolved] at declares
          cases declares
      | ok type =>
          rw [resolved] at declares
          exact SymbolTable.keeps_declareGlobal declares
  · exact .refl table

/-- Declaring globals adds nothing but globals. -/
theorem keeps_declareGlobals (table : SymbolTable) (globals : List GlobalDecl) :
    table.Keeps (applyImports declareGlobal GlobalDecl.span table globals).1 :=
  applyImports_keeps _ _ _ table.Keeps (.refl table) fun before global keeps =>
    keeps.trans (keeps_declareGlobal before global)

/-- The types that a package imports. -/
def importedTypes (catalog : Catalog) (declared : PackageDecl) : SymbolTable :=
  (applyImports importType ImportDecl.span (.ofPackage declared.name catalog) declared.imports).1

/-- The types and functions that a package imports. -/
def importedFunctions (catalog : Catalog) (declared : PackageDecl) : SymbolTable :=
  (applyImports importFunctions FunctionImportDecl.span (declared.importedTypes catalog)
    declared.functionImports).1

private theorem sameFunctions_importTypes (name : String) (catalog : Catalog)
    (imports : List ImportDecl) :
    (SymbolTable.ofPackage name catalog).SameFunctions
      (applyImports importType ImportDecl.span (.ofPackage name catalog) imports).1 :=
  applyImports_keeps _ _ _ (SymbolTable.SameFunctions _) ⟨rfl, rfl, rfl⟩
    fun before declared same => same.trans (sameFunctions_importType before declared)

/-- What function imports leave in the table of a package. -/
theorem functionsOf_importedFunctions (catalog : Catalog) (declared : PackageDecl) :
    SymbolTable.FunctionsOf
      (fun name type => ∃ found ∈ declared.functionImports,
        found.Names (declared.importedTypes catalog).resolveType name type)
      (fun native => ∃ found ∈ declared.functionImports,
        found.BringsIn (declared.importedTypes catalog).resolveType native)
      (declared.importedFunctions catalog) := by
  have same := sameFunctions_importTypes declared.name catalog declared.imports
  have typesOf := typesOf_importTypes declared.name catalog declared.imports
  exact functionsOf_applyImports same.imported same.importConflicts
    (fun {_ _} => typesOf.listed_of_resolveType) declared.functionImports

variable {catalog : Catalog} {declared : PackageDecl} {imports : List ImportDecl}
  {functionImports : List FunctionImportDecl}

private theorem resolveType_of_perm (titled : catalog.Titled) (perm : declared.imports.Perm imports)
    (name : String) : SameOutcome ((declared.importedTypes catalog).resolveType name)
      (({ declared with imports, functionImports }.importedTypes catalog).resolveType name) := by
  have of := typesOf_importTypes declared.name catalog declared.imports
  have ofOther := typesOf_importTypes declared.name catalog imports
  simp only [← perm.mem_iff] at ofOther
  have siblings := siblings_importTypes declared.name catalog declared.imports
  have siblingsOther := siblings_importTypes declared.name catalog imports
  refine of.resolveType ofOther ⟨siblings.package.trans siblingsOther.package.symm,
    siblings.catalog.trans siblingsOther.catalog.symm⟩ ?_ name
  rw [siblings.catalog]
  exact titled

/-- Imports declare no functions. -/
theorem extends_importedFunctions (catalog : Catalog) (declared : PackageDecl) :
    (SymbolTable.ofPackage declared.name catalog).Extends (declared.importedFunctions catalog) :=
  (extends_applyImports importType extends_importType ImportDecl.span _ declared.imports).trans
    (extends_applyImports importFunctions
      (fun table found => table.extends_importFunctions found.holder found.function)
      FunctionImportDecl.span _ declared.functionImports)

private theorem alike_importedFunctions (titled : catalog.Titled)
    (perm : declared.imports.Perm imports)
    (permFunctions : declared.functionImports.Perm functionImports) :
    SymbolTable.Alike (declared.importedFunctions catalog)
      ({ declared with imports, functionImports }.importedFunctions catalog) := by
  set other : PackageDecl := { declared with imports, functionImports }
  have same : ∀ name, SameOutcome ((declared.importedTypes catalog).resolveType name)
      ((other.importedTypes catalog).resolveType name) := resolveType_of_perm titled perm
  have typesKept := sameTypes_importFunctions (declared.importedTypes catalog)
    declared.functionImports
  have typesKeptOther := sameTypes_importFunctions (other.importedTypes catalog) functionImports
  have isCatalog : (declared.importedFunctions catalog).catalog = catalog :=
    typesKept.catalog.trans (siblings_importTypes declared.name catalog declared.imports).catalog
  have of := functionsOf_importedFunctions catalog declared
  have ofOther := functionsOf_importedFunctions catalog other
  -- Holders are found alike, so the function imports of both packages are the same.
  have found : ∀ {name type}, (other.importedTypes catalog).resolveType name = .ok type ↔
      (declared.importedTypes catalog).resolveType name = .ok type :=
    fun {name _} => (same name).eq_ok_iff.symm
  simp only [FunctionImportDecl.Names, FunctionImportDecl.BringsIn, found] at ofOther of
  rw [show other.functionImports = functionImports from rfl] at ofOther
  simp only [← permFunctions.mem_iff] at ofOther
  refine ⟨fun name => ?_, fun name args => ?_, ?_⟩
  · exact (typesKept.resolveType name).symm ▸ (typesKeptOther.resolveType name).symm ▸ same name
  · refine of.resolveImported ofOther ?_ name args
    rw [isCatalog]
    exact titled
  · exact (extends_importedFunctions catalog declared).declared.trans
      (extends_importedFunctions catalog other).declared.symm

/-- The order of the imports of a package makes no difference for what names stand for in it. -/
theorem alike_of_perm (built : catalog.Built) (perm : declared.imports.Perm imports)
    (permFunctions : declared.functionImports.Perm functionImports) :
    let one := (declared.compile catalog).1.scope.table
    let other := ({ declared with imports, functionImports }.compile catalog).1.scope.table
    (∀ name, SameOutcome (one.resolveType name) (other.resolveType name)) ∧
      ∀ name args,
        SameOutcome (one.resolveCallable name args) (other.resolveCallable name args) := by
  intro one other
  have keeps := keeps_declareGlobals (declared.importedFunctions catalog) declared.globals
  have keepsOther := keeps_declareGlobals
    ({ declared with imports, functionImports }.importedFunctions catalog) declared.globals
  have alike : SymbolTable.Alike one other :=
    ((alike_importedFunctions built.titled perm permFunctions).after keeps
      keepsOther).declareFunctions declared.functions
  exact ⟨alike.types, alike.resolveCallable⟩

end PackageDecl

namespace Reordered

/-- One of two types of the same simple name. -/
def cheese : TypeDef := { name := .ofText "org.example.Cheese" }

/-- A type with the simple name of another one. -/
def brand : TypeDef := { name := .ofText "com.shop.Cheese" }

/-- Both types. -/
def catalog : Catalog :=
  ⟨(SortedMap.insert ∅ cheese.fullName cheese).insert brand.fullName brand⟩

private theorem built : catalog.Built :=
  .register (.register .empty (if_neg (by decide +kernel))) (if_neg (by decide +kernel))

/-- A package that imports both types. -/
def package : PackageDecl where
  name := "app"
  imports := [.type "org.example.Cheese" {}, .type "com.shop.Cheese" {}]

/-- A name that two imports make ambiguous, in whichever order they stand. -/
theorem cheese_alike : catalog.Built ∧ package.imports.Perm package.imports.reverse ∧
    package.functionImports.Perm [] ∧
    SameOutcome ((package.compile catalog).1.scope.table.resolveType "Cheese")
      (({ package with imports := package.imports.reverse, functionImports := [] }.compile
        catalog).1.scope.table.resolveType "Cheese") :=
  have perm := (List.reverse_perm package.imports).symm
  ⟨built, perm, .nil, (PackageDecl.alike_of_perm built perm .nil).1 "Cheese"⟩

end Reordered

end Rete
