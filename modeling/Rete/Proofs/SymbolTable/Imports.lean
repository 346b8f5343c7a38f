import Mathlib.Data.List.Perm.Lattice
import Rete.Proofs.SymbolTable
import Rete.Proofs.SymbolTable.Overloads

/-!
# What imports leave in a table

What a table knows after imports is a matter of which imports there were: which types and functions
were imported by name (`SymbolTable.TypesOf`, `SymbolTable.FunctionsOf`), and from which packages
and types all were. The first import of a name is the one that is kept, but where another one
differs from it the name is ambiguous anyway. So tables with the same imports resolve every name
alike (`SymbolTable.TypesOf.resolveType`, `SymbolTable.FunctionsOf.resolveImported`).
-/

namespace Rete

/-! ## Names that are imported twice -/

/-- One more thing has a name. -/
def Naming {α : Type} (named : String → α → Prop) (key : String) (item : α) : String → α → Prop :=
  fun name other => named name other ∨ name = key ∧ other = item

/-- Things of one name are told apart by a label. -/
def Clash {α β : Type} (label : α → β) (named : String → α → Prop) (name : String) : Prop :=
  ∃ one other, named name one ∧ named name other ∧ label one ≠ label other

section Clash

variable {α β : Type} {label : α → β} {named : String → α → Prop} {key name : String} {item : α}

private theorem Clash.mono {others : String → α → Prop} (clash : Clash label named name)
    (more : ∀ other, named name other → others name other) : Clash label others name := by
  obtain ⟨one, other, isOne, isOther, different⟩ := clash
  exact ⟨one, other, more one isOne, more other isOther, different⟩

/-- One more thing of a name clashes exactly with others of that name. -/
theorem clash_naming : Clash label (Naming named key item) name ↔
    Clash label named name ∨ name = key ∧ ∃ other, named key other ∧ label other ≠ label item := by
  constructor
  · rintro ⟨one, other, isOne | ⟨rfl, rfl⟩, isOther | ⟨same, rfl⟩, different⟩
    · exact .inl ⟨one, other, isOne, isOther, different⟩
    · subst same
      exact .inr ⟨rfl, one, isOne, different⟩
    · exact .inr ⟨rfl, other, isOther, different.symm⟩
    · exact absurd rfl different
  · rintro (clash | ⟨rfl, other, isOther, different⟩)
    · exact clash.mono fun _ => .inl
    · exact ⟨other, item, .inl isOther, .inr ⟨rfl, rfl⟩, different⟩

/-- What is the first thing of a name clashes with nothing. -/
theorem clash_naming_of_new (new : ∀ other, ¬ named key other) :
    Clash label (Naming named key item) name ↔ Clash label named name := by
  refine clash_naming.trans (or_iff_left ?_)
  rintro ⟨-, other, isOther, -⟩
  exact new other isOther

variable {earlier : α} (isEarlier : named key earlier)

include isEarlier

/-- What has the label of an earlier thing clashes with what that one clashes with. -/
theorem clash_naming_of_same (same : label earlier = label item) :
    Clash label (Naming named key item) name ↔ Clash label named name := by
  refine clash_naming.trans (or_iff_left_of_imp ?_)
  rintro ⟨rfl, other, isOther, different⟩
  exact ⟨other, earlier, isOther, isEarlier, same ▸ different⟩

/-- What has another label than an earlier thing clashes with that. -/
theorem clash_naming_of_ne (different : label earlier ≠ label item) :
    Clash label (Naming named key item) name ↔ name = key ∨ Clash label named name := by
  rw [clash_naming, or_comm]
  exact or_congr_left ⟨And.left, fun same => ⟨same, earlier, isEarlier, different⟩⟩

end Clash

/-- Something is stored under one more key. -/
theorem SortedMap.exists_find?_insert {ν : Type} (map : SortedMap String ν) (key other : String)
    (value : ν) : (∃ found, (map.insert key value).find? other = some found) ↔
      other = key ∨ ∃ found, map.find? other = some found := by
  rw [← contains_eq_true, contains_insert, Bool.or_eq_true, decide_eq_true_iff, contains_eq_true]

/-! ## Type imports -/

/-- Every type is listed under its own full name. -/
def Catalog.Titled (catalog : Catalog) : Prop :=
  ∀ {name : String} {type : TypeDef}, catalog.get? name = some type → type.fullName = name

/-- Types of a catalog with one full name are the same. -/
theorem Catalog.Titled.eq_of_fullName {catalog : Catalog} (titled : catalog.Titled)
    {name other : String} {type same : TypeDef} (found : catalog.get? name = some type)
    (foundOther : catalog.get? other = some same) (equal : type.fullName = same.fullName) :
    type = same := by
  rw [titled found, titled foundOther] at equal
  subst equal
  exact Option.some.inj (found.symm.trans foundOther)

namespace SymbolTable

/-- What type imports leave in a table: `named` are the types that were imported by name, under
their simple names, and `whole` the packages and types whose types were imported. -/
structure TypesOf (named : String → TypeDef → Prop) (whole : QualifiedName → Prop)
    (table : SymbolTable) : Prop where
  imported : ∀ {short type}, table.typeImports.find? short = some type → named short type
  missing : ∀ {short}, table.typeImports.find? short = none → ∀ type, ¬ named short type
  conflicts : ∀ {short}, (∃ colliding, table.typeConflicts.find? short = some colliding) ↔
    Clash (fun type : TypeDef => type.fullName) named short
  wildcards : ∀ {package}, package ∈ table.typeWildcards ↔ whole package
  listed : ∀ {short type}, named short type → ∃ name, table.catalog.get? name = some type

namespace TypesOf

variable {named : String → TypeDef → Prop} {whole : QualifiedName → Prop} {table : SymbolTable}

/-- One more type is imported by name. -/
theorem importType (of : TypesOf named whole table) {name : String} {type : TypeDef}
    (found : table.catalog.get? name = some type) :
    TypesOf (Naming named type.name.simpleName type) whole (table.importType name).1 := by
  have listed : ∀ {short other}, Naming named type.name.simpleName type short other →
      ∃ name, table.catalog.get? name = some other := by
    rintro short other (earlier | ⟨-, rfl⟩)
    · exact of.listed earlier
    · exact ⟨name, found⟩
  unfold SymbolTable.importType
  rw [found]
  dsimp only
  cases existing : table.typeImports.find? type.name.simpleName with
  | none =>
      have new := of.missing existing
      refine ⟨fun {short other} isImported => ?_, fun {short} isMissing other => ?_,
        of.conflicts.trans (clash_naming_of_new new).symm, of.wildcards, listed⟩
      · rw [SortedMap.find?_insert_eq] at isImported
        split at isImported
        · next same =>
            cases isImported
            exact .inr ⟨same, rfl⟩
        · exact .inl (of.imported isImported)
      · rw [SortedMap.find?_insert_eq] at isMissing
        split at isMissing
        · cases isMissing
        · next different =>
            exact fun either => either.elim (of.missing isMissing other) fun here =>
              different here.1
  | some earlier =>
      have isEarlier := of.imported existing
      have imported : ∀ {short other}, table.typeImports.find? short = some other →
          Naming named type.name.simpleName type short other := fun isImported =>
        .inl (of.imported isImported)
      have missing : ∀ {short}, table.typeImports.find? short = none → ∀ other,
          ¬ Naming named type.name.simpleName type short other := by
        rintro short isMissing other (isNamed | ⟨rfl, -⟩)
        · exact of.missing isMissing other isNamed
        · cases existing.symm.trans isMissing
      dsimp only
      split
      · next same =>
          exact ⟨imported, missing, of.conflicts.trans (clash_naming_of_same isEarlier same).symm,
            of.wildcards, listed⟩
      · next different =>
          refine ⟨imported, missing, fun {short} => ?_, of.wildcards, listed⟩
          rw [clash_naming_of_ne isEarlier different, ← of.conflicts]
          exact SortedMap.exists_find?_insert ..

/-- The types of one more package are imported. -/
theorem importTypesIn (of : TypesOf named whole table) {package : String}
    (inhabited : (table.catalog.typesIn package).isEmpty = false) :
    TypesOf named (fun other => whole other ∨ other = .ofText package)
      (table.importTypesIn package).1 := by
  unfold SymbolTable.importTypesIn
  rw [inhabited]
  simp only [Bool.false_eq_true, ↓reduceIte]
  split
  · next known =>
      refine ⟨of.imported, of.missing, of.conflicts, of.wildcards.trans ?_, of.listed⟩
      refine (or_iff_left_of_imp fun same => ?_).symm
      rw [same]
      exact of.wildcards.mp (List.contains_iff_mem.mp known)
  · refine ⟨of.imported, of.missing, of.conflicts, fun {other} => ?_, of.listed⟩
    rw [List.mem_append, List.mem_singleton, of.wildcards]

end TypesOf

/-! ### Tables with the same type imports -/

/-- Two tables of one package and catalog. -/
structure Siblings (one other : SymbolTable) : Prop where
  package : one.package = other.package
  catalog : one.catalog = other.catalog

section

variable {named : String → TypeDef → Prop} {whole : QualifiedName → Prop}
  {one other : SymbolTable} {name : String}

private theorem TypesOf.typeImports_eq_none (of : TypesOf named whole one)
    (ofOther : TypesOf named whole other) (isMissing : one.typeImports.find? name = none) :
    other.typeImports.find? name = none :=
  Option.eq_none_iff_forall_ne_some.mpr fun type found =>
    of.missing isMissing type (ofOther.imported found)

private theorem TypesOf.typeConflicts_eq_none (of : TypesOf named whole one)
    (ofOther : TypesOf named whole other) (clear : one.typeConflicts.find? name = none) :
    other.typeConflicts.find? name = none := by
  refine Option.eq_none_iff_forall_ne_some.mpr fun colliding found => ?_
  obtain ⟨_, noted⟩ := of.conflicts.mpr (ofOther.conflicts.mp ⟨colliding, found⟩)
  cases clear.symm.trans noted

private theorem TypesOf.open (of : TypesOf named whole one) (ofOther : TypesOf named whole other)
    (siblings : Siblings one other) (undecided : one.Open name) : other.Open name where
  clear := of.typeConflicts_eq_none ofOther undecided.clear
  notImported := of.typeImports_eq_none ofOther undecided.notImported
  notInPackage := by
    rw [← siblings.package, ← siblings.catalog]
    exact undecided.notInPackage

private theorem TypesOf.mem_offeredTypes (of : TypesOf named whole one)
    (ofOther : TypesOf named whole other) (siblings : Siblings one other) {type : TypeDef} :
    type ∈ one.offeredTypes name ↔ type ∈ other.offeredTypes name := by
  simp only [SymbolTable.mem_offeredTypes, of.wildcards, ofOther.wildcards, siblings.catalog]

/-- A simple name stands for the same in tables with the same type imports. -/
theorem TypesOf.denotes (of : TypesOf named whole one) (ofOther : TypesOf named whole other)
    (siblings : Siblings one other) (titled : one.catalog.Titled) {type : TypeDef}
    (denotes : one.Denotes name type) : other.Denotes name type := by
  cases denotes with
  | imported clear found =>
      have isNamed := of.imported found
      have clearOther := of.typeConflicts_eq_none ofOther clear
      cases foundOther : other.typeImports.find? name with
      | none => exact absurd isNamed (ofOther.missing foundOther type)
      | some second =>
          obtain ⟨fullName, isType⟩ := of.listed isNamed
          obtain ⟨secondName, isSecond⟩ := of.listed (ofOther.imported foundOther)
          -- Both were imported under the name, which is not ambiguous.
          have same : type.fullName = second.fullName := by
            by_contra different
            obtain ⟨_, noted⟩ :=
              of.conflicts.mpr ⟨type, second, isNamed, ofOther.imported foundOther, different⟩
            cases clear.symm.trans noted
          rw [titled.eq_of_fullName isType isSecond same]
          exact .imported clearOther foundOther
  | inPackage clear notImported found =>
      refine .inPackage (of.typeConflicts_eq_none ofOther clear)
        (of.typeImports_eq_none ofOther notImported) ?_
      rw [← siblings.package, ← siblings.catalog]
      exact found
  | offered undecided first only =>
      have member := List.mem_of_mem_head? first
      have memberOther := (of.mem_offeredTypes ofOther siblings).mp member
      cases head : (other.offeredTypes name).head? with
      | none =>
          rw [List.head?_eq_none_iff.mp head] at memberOther
          exact absurd memberOther List.not_mem_nil
      | some second =>
          have isSecond := (of.mem_offeredTypes ofOther siblings).mpr (List.mem_of_mem_head? head)
          obtain ⟨_, -, found⟩ := SymbolTable.mem_offeredTypes.mp member
          obtain ⟨_, -, foundSecond⟩ := SymbolTable.mem_offeredTypes.mp isSecond
          obtain rfl := titled.eq_of_fullName foundSecond found (only second isSecond)
          refine .offered (of.open ofOther siblings undecided) head fun third isThird => ?_
          exact only third ((of.mem_offeredTypes ofOther siblings).mpr isThird)
  | bare undecided notOffered found =>
      refine .bare (of.open ofOther siblings undecided) ?_ (siblings.catalog ▸ found)
      refine List.eq_nil_iff_forall_not_mem.mpr fun third isThird => ?_
      have isOffered := (of.mem_offeredTypes ofOther siblings).mpr isThird
      rw [notOffered] at isOffered
      exact absurd isOffered List.not_mem_nil

private theorem TypesOf.ambiguous (of : TypesOf named whole one)
    (ofOther : TypesOf named whole other)
    (siblings : Siblings one other) (ambiguous : one.Ambiguous name) : other.Ambiguous name := by
  cases ambiguous with
  | imported found =>
      obtain ⟨_, noted⟩ := ofOther.conflicts.mpr (of.conflicts.mp ⟨_, found⟩)
      exact .imported noted
  | offered undecided member another different =>
      exact .offered (of.open ofOther siblings undecided)
        ((of.mem_offeredTypes ofOther siblings).mp member)
        ((of.mem_offeredTypes ofOther siblings).mp another) different

private theorem TypesOf.resolveSimpleType (of : TypesOf named whole one)
    (ofOther : TypesOf named whole other) (siblings : Siblings one other)
    (titled : one.catalog.Titled) (name : String) :
    SameOutcome (one.resolveSimpleType name) (other.resolveSimpleType name) := by
  have back : Siblings other one := ⟨siblings.package.symm, siblings.catalog.symm⟩
  cases resolved : one.resolveSimpleType name with
  | ok type =>
      have denotes := resolveSimpleType_eq_ok.mp resolved
      rw [(of.denotes ofOther siblings titled denotes).resolves]
      exact rfl
  | error problem =>
      cases resolvedOther : other.resolveSimpleType name with
      | ok type =>
          have denotes := resolveSimpleType_eq_ok.mp resolvedOther
          have titledOther : other.catalog.Titled := siblings.catalog ▸ titled
          cases resolved.symm.trans (ofOther.denotes of back titledOther denotes).resolves
      | error problemOther =>
          rcases kind_of_resolveSimpleType resolved with ⟨ambiguous, kind⟩ | ⟨clear, kind⟩ <;>
            rcases kind_of_resolveSimpleType resolvedOther with
              ⟨ambiguousOther, kindOther⟩ | ⟨clearOther, kindOther⟩
          · exact kind.trans kindOther.symm
          · exact absurd (of.ambiguous ofOther siblings ambiguous) clearOther
          · exact absurd (ofOther.ambiguous of back ambiguousOther) clear
          · exact kind.trans kindOther.symm

/-- Every type name is resolved alike in tables with the same type imports. -/
theorem TypesOf.resolveType (of : TypesOf named whole one) (ofOther : TypesOf named whole other)
    (siblings : Siblings one other) (titled : one.catalog.Titled) (name : String) :
    SameOutcome (one.resolveType name) (other.resolveType name) := by
  cases splits : Text.splitFirst? '.' name with
  | none =>
      rw [resolveType_of_dotless splits, resolveType_of_dotless splits]
      exact of.resolveSimpleType ofOther siblings titled name
  | some segments =>
      obtain ⟨head, rest⟩ := segments
      have lookUp : ∀ fullName, one.lookUp name fullName = other.lookUp name fullName := by
        intro fullName
        unfold SymbolTable.lookUp
        rw [siblings.catalog]
      rw [resolveType_of_split splits, resolveType_of_split splits]
      have same := of.resolveSimpleType ofOther siblings titled head
      generalize one.resolveSimpleType head = first at same
      generalize other.resolveSimpleType head = second at same
      match first, second with
      | .ok outer, .ok _ =>
          cases same
          dsimp only
          rw [lookUp]
          exact .refl _
      | .error problem, .error problemOther =>
          dsimp only
          rw [← show problem.kind = problemOther.kind from same, lookUp]
          split
          · exact same
          · exact .refl _

end

/-- A type that a name stands for is in the catalog. -/
theorem TypesOf.listed_of_resolveType {named : String → TypeDef → Prop}
    {whole : QualifiedName → Prop} {table : SymbolTable} (of : TypesOf named whole table)
    {name : String} {type : TypeDef} (resolved : table.resolveType name = .ok type) :
    ∃ fullName, table.catalog.get? fullName = some type := by
  have simple : ∀ {name}, table.resolveSimpleType name = .ok type →
      ∃ fullName, table.catalog.get? fullName = some type := by
    intro name found
    cases resolveSimpleType_eq_ok.mp found with
    | imported _ isImported => exact of.listed (of.imported isImported)
    | inPackage _ _ isFound => exact ⟨_, isFound⟩
    | offered _ first _ =>
        obtain ⟨_, -, isFound⟩ := SymbolTable.mem_offeredTypes.mp (List.mem_of_mem_head? first)
        exact ⟨_, isFound⟩
    | bare _ _ isFound => exact ⟨_, isFound⟩
  cases splits : Text.splitFirst? '.' name with
  | none => exact simple (resolveType_of_dotless splits ▸ resolved)
  | some segments =>
      rw [resolveType_of_split splits] at resolved
      split at resolved
      · exact ⟨_, lookUp_eq_ok.mp resolved⟩
      · split at resolved
        · cases resolved
        · exact ⟨_, lookUp_eq_ok.mp resolved⟩

/-- The types in scope of a table stay the same. -/
structure SameTypes (table after : SymbolTable) : Prop where
  package : after.package = table.package
  catalog : after.catalog = table.catalog
  typeImports : after.typeImports = table.typeImports
  typeConflicts : after.typeConflicts = table.typeConflicts
  typeWildcards : after.typeWildcards = table.typeWildcards

/-- Two steps that leave the types as they are do so together. -/
theorem SameTypes.trans {table after last : SymbolTable} (first : table.SameTypes after)
    (second : after.SameTypes last) : table.SameTypes last where
  package := second.package.trans first.package
  catalog := second.catalog.trans first.catalog
  typeImports := second.typeImports.trans first.typeImports
  typeConflicts := second.typeConflicts.trans first.typeConflicts
  typeWildcards := second.typeWildcards.trans first.typeWildcards

/-- Tables with the same types resolve names to the same types. -/
theorem SameTypes.resolveType {table after : SymbolTable} (same : table.SameTypes after)
    (name : String) : after.resolveType name = table.resolveType name := by
  unfold SymbolTable.resolveType SymbolTable.resolveSimpleType wildcardTypes
  rw [same.package, same.catalog, same.typeImports, same.typeConflicts, same.typeWildcards]

/-! ## Function imports -/

/-- The function is brought in by an import of all functions of its type: its name is bound to one
more overload, unless it is imported by name. -/
def bringIn (native : Native) : Option ImportedName → ImportedName
  | some (.named holder overloads) => .named holder overloads
  | some (.wildcard overloads) =>
    .wildcard (if overloads.contains native then overloads else overloads ++ [native])
  | none => .wildcard [native]

private theorem find?_importByWildcard (imported : SortedMap String ImportedName) (native : Native)
    (name : String) : (importByWildcard imported native).find? name =
      if name = native.name then some (bringIn native (imported.find? name))
      else imported.find? name := by
  unfold importByWildcard bringIn
  split
  · next existing =>
      split
      · next same => rw [same, existing]
      · rfl
  · next overloads existing =>
      by_cases same : name = native.name
      · subst same
        rw [existing, if_pos rfl]
        dsimp only
        split
        · exact existing
        · rw [SortedMap.find?_insert_eq, if_pos rfl]
      · rw [if_neg same]
        split
        · rfl
        · rw [SortedMap.find?_insert_eq, if_neg same]
  · next existing =>
      rw [SortedMap.find?_insert_eq]
      split
      · next same => rw [same, existing]
      · rfl

/-- What a function name is bound to by imports: `named` are the types from which functions of the
name were imported by name, and `spread` the functions of the name of types whose functions were all
imported. -/
inductive Binds (named : TypeDef → Prop) (spread : Native → Prop) (name : String) :
    Option ImportedName → Prop
  | named (type : TypeDef) (isNamed : named type) : Binds named spread name
      (some (.named type.name ((type.functionsNamed name).map HostFunction.toNative)))
  | wildcard (notNamed : ∀ type, ¬ named type) {overloads : List Native} (nonempty : overloads ≠ [])
    (nodup : overloads.Nodup) (isSpread : ∀ native, native ∈ overloads ↔ spread native) :
    Binds named spread name (some (.wildcard overloads))
  | none (notNamed : ∀ type, ¬ named type) (notSpread : ∀ native, ¬ spread native) :
    Binds named spread name none

namespace Binds

variable {named : TypeDef → Prop} {spread : Native → Prop} {name : String}
  {bound : Option ImportedName}

/-- One more function is brought in. -/
theorem bringIn (binds : Binds named spread name bound) (native : Native) :
    Binds named (fun other => spread other ∨ other = native) name
      (some (SymbolTable.bringIn native bound)) := by
  cases binds with
  | named type isNamed => exact .named type isNamed
  | @wildcard notNamed overloads nonempty nodup isSpread =>
      unfold SymbolTable.bringIn
      dsimp only
      split
      · next known =>
          refine .wildcard notNamed nonempty nodup fun other => (isSpread other).trans
            (or_iff_left_of_imp fun same => ?_).symm
          exact same ▸ (isSpread native).mp (List.contains_iff_mem.mp known)
      · next new =>
          have longer := List.append_ne_nil_of_left_ne_nil nonempty [native]
          refine .wildcard notNamed longer ?_ fun other => ?_
          · rw [← List.concat_eq_append]
            exact nodup.concat fun isKnown => new (List.contains_iff_mem.mpr isKnown)
          · rw [List.mem_append, List.mem_singleton, isSpread]
  | none notNamed notSpread =>
      refine .wildcard notNamed (List.cons_ne_nil _ _) (List.nodup_singleton _) fun other => ?_
      rw [List.mem_singleton]
      exact (or_iff_right (notSpread other)).symm

/-- One more type is imported from, where the name is imported by name already. -/
theorem another {holder : QualifiedName} {overloads : List Native}
    (binds : Binds named spread name (some (.named holder overloads))) (type : TypeDef) :
    Binds (fun other => named other ∨ other = type) spread name
      (some (.named holder overloads)) := by
  cases binds with
  | named earlier isNamed => exact .named earlier (.inl isNamed)

end Binds

/-- What function imports leave in a table: `named` are the types from which functions were imported
by name, under the names of the functions, and `spread` the functions of types whose functions were
all imported. -/
structure FunctionsOf (named : String → TypeDef → Prop) (spread : Native → Prop)
    (table : SymbolTable) : Prop where
  binds : ∀ name, Binds (named name) (fun native => native.name = name ∧ spread native) name
    (table.imported.find? name)
  conflicts : ∀ {name}, (∃ colliding, table.importConflicts.find? name = some colliding) ↔
    Clash (fun type : TypeDef => type.name) named name
  listed : ∀ {name type}, named name type → ∃ fullName, table.catalog.get? fullName = some type

namespace FunctionsOf

variable {named : String → TypeDef → Prop} {spread : Native → Prop} {table : SymbolTable}

/-- One more function is brought in. -/
theorem importByWildcard (of : FunctionsOf named spread table) (native : Native) :
    FunctionsOf named (fun other => spread other ∨ other = native)
      { table with imported := SymbolTable.importByWildcard table.imported native } := by
  refine ⟨fun name => ?_, of.conflicts, of.listed⟩
  dsimp only
  rw [find?_importByWildcard]
  split
  · next same =>
      convert (of.binds name).bringIn native using 3 with other
      rw [and_or_left]
      exact or_congr_right (and_iff_right_of_imp fun isNative => by rw [same, isNative])
  · next different =>
      convert of.binds name using 2 with other
      refine and_congr_right fun sameName => or_iff_left fun isNative => different ?_
      rw [← sameName, isNative]

/-- All functions of a type are brought in. -/
theorem importAll (of : FunctionsOf named spread table) (natives : List Native) :
    FunctionsOf named (fun other => spread other ∨ other ∈ natives)
      { table with imported := natives.foldl SymbolTable.importByWildcard table.imported } := by
  induction natives generalizing spread table with
  | nil => simpa only [List.foldl_nil, List.not_mem_nil, or_false] using of
  | cons native rest ih =>
      simpa only [List.foldl_cons, List.mem_cons, or_assoc] using ih (of.importByWildcard native)

/-- Functions of one name of a type are imported by name. -/
theorem importNamed (of : FunctionsOf named spread table) {type : TypeDef}
    (isListed : ∃ fullName, table.catalog.get? fullName = some type) {name : String}
    (declared : type.functionsNamed name ≠ []) :
    FunctionsOf (Naming named name type) spread (table.importNamed type name).1 := by
  have listed : ∀ {other known}, Naming named name type other known →
      ∃ fullName, table.catalog.get? fullName = some known := by
    rintro other known (earlier | ⟨-, rfl⟩)
    · exact of.listed earlier
    · exact isListed
  have elsewhere : ∀ {other}, other ≠ name → Naming named name type other = named other :=
    fun different => funext fun _ => propext (or_iff_left fun here => different here.1)
  have here : Naming named name type name = fun other => named name other ∨ other = type :=
    funext fun _ => propext (or_congr_right (and_iff_right rfl))
  have nonempty : ((type.functionsNamed name).map HostFunction.toNative).isEmpty = false := by
    rw [List.isEmpty_map, List.isEmpty_eq_false_iff]
    exact declared
  unfold SymbolTable.importNamed
  simp only [nonempty, Bool.false_eq_true, ↓reduceIte]
  have binds := of.binds name
  split
  · next holder overloads existing =>
      rw [existing] at binds
      have bindsAll : ∀ other, Binds (Naming named name type other)
          (fun native => native.name = other ∧ spread native) other
          (table.imported.find? other) := by
        intro other
        by_cases same : other = name
        · subst same
          rw [here, existing]
          exact binds.another type
        · rw [elsewhere same]
          exact of.binds other
      obtain ⟨earlier, isEarlier, isHolder⟩ :
          ∃ earlier, named name earlier ∧ holder = earlier.name := by
        cases binds with
        | named earlier isEarlier => exact ⟨earlier, isEarlier, rfl⟩
      rw [isHolder]
      split
      · next same =>
          exact ⟨bindsAll, of.conflicts.trans (clash_naming_of_same isEarlier same).symm, listed⟩
      · next different =>
          refine ⟨bindsAll, fun {other} => ?_, listed⟩
          rw [clash_naming_of_ne isEarlier different, ← of.conflicts]
          exact SortedMap.exists_find?_insert ..
  · next free =>
      refine ⟨fun other => ?_, of.conflicts.trans (clash_naming_of_new ?_).symm, listed⟩
      · dsimp only
        rw [SortedMap.find?_insert_eq]
        split
        · next same =>
            subst same
            exact .named type (.inr ⟨rfl, rfl⟩)
        · next different =>
            rw [elsewhere different]
            exact of.binds other
      · generalize table.imported.find? name = bound at binds free
        cases binds with
        | named earlier => exact absurd rfl (free _ _)
        | wildcard notNamed => exact notNamed
        | none notNamed => exact notNamed

end FunctionsOf

/-- Resolves a call of a function that the package does not declare. -/
def resolveImported (table : SymbolTable) (name : String) (args : List ValueType) :
    Except Diagnostic CallableRef :=
  match table.importConflicts.find? name with
  | some colliding => .error (.ambiguous name colliding)
  | none =>
    match table.imported.find? name with
    | some (.named _ overloads) => selectNative name overloads args .namedImport
    | some (.wildcard overloads) => selectNative name overloads args .wildcardImport
    | none => .error (.unresolved "function" name)

/-- A name that the package declares no function for is looked up among the imports. -/
theorem resolveCallable_of_undeclared {table : SymbolTable} {name : String}
    (undeclared : (table.declared.zipIdx.filter fun entry => entry.1.1 == name) = [])
    (args : List ValueType) :
    table.resolveCallable name args = table.resolveImported name args := by
  unfold resolveCallable
  rw [undeclared]
  rfl

section

variable {named : String → TypeDef → Prop} {spread : Native → Prop} {one other : SymbolTable}

/-- Every call of an imported function is resolved alike in tables with the same function
imports. -/
theorem FunctionsOf.resolveImported (of : FunctionsOf named spread one)
    (ofOther : FunctionsOf named spread other) (titled : one.catalog.Titled) (name : String)
    (args : List ValueType) :
    SameOutcome (one.resolveImported name args) (other.resolveImported name args) := by
  unfold SymbolTable.resolveImported
  cases conflict : one.importConflicts.find? name with
  | some colliding =>
      obtain ⟨_, noted⟩ := ofOther.conflicts.mpr (of.conflicts.mp ⟨_, conflict⟩)
      rw [noted]
      exact rfl
  | none =>
  cases conflictOther : other.importConflicts.find? name with
  | some colliding =>
      obtain ⟨_, noted⟩ := of.conflicts.mpr (ofOther.conflicts.mp ⟨_, conflictOther⟩)
      cases conflict.symm.trans noted
  | none =>
  dsimp only
  have binds := of.binds name
  have bindsOther := ofOther.binds name
  generalize one.imported.find? name = bound at binds
  generalize other.imported.find? name = boundOther at bindsOther
  cases binds with
  | named type isNamed =>
      cases bindsOther with
      | wildcard notNamed | none notNamed => exact absurd isNamed (notNamed type)
      | named second isSecond =>
          have same : type.name = second.name := by
            by_contra different
            obtain ⟨_, noted⟩ := of.conflicts.mpr ⟨type, second, isNamed, isSecond, different⟩
            cases conflict.symm.trans noted
          obtain ⟨_, found⟩ := of.listed isNamed
          obtain ⟨_, foundSecond⟩ := of.listed isSecond
          rw [titled.eq_of_fullName found foundSecond (congrArg QualifiedName.text same)]
          exact .refl _
  | wildcard notNamed nonempty nodup isSpread =>
      obtain ⟨native, member⟩ := List.exists_mem_of_ne_nil _ nonempty
      cases bindsOther with
      | named second isSecond => exact absurd isSecond (notNamed second)
      | none _ notSpread => exact absurd ((isSpread native).mp member) (notSpread native)
      | wildcard _ _ nodupOther isSpreadOther =>
          have same := (List.perm_ext_iff_of_nodup nodup nodupOther).mpr fun other =>
            (isSpread other).trans (isSpreadOther other).symm
          exact selectNative_perm name same args .wildcardImport
  | none notNamed notSpread =>
      cases bindsOther with
      | named second isSecond => exact absurd isSecond (notNamed second)
      | none => exact .refl _
      | wildcard _ nonempty _ isSpread =>
          obtain ⟨native, member⟩ := List.exists_mem_of_ne_nil _ nonempty
          exact absurd ((isSpread native).mp member) (notSpread native)

end

end SymbolTable

end Rete
