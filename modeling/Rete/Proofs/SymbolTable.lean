import Mathlib.Data.List.Induction
import Rete.Proofs.SortedMap
import Rete.SymbolTable

/-!
# What type names stand for

A simple name stands for a type by the first rule that applies to it (`SymbolTable.Denotes`), unless
several types lay claim to it (`SymbolTable.Ambiguous`); that is what the look-up of a simple name
finds (`SymbolTable.resolveSimpleType_eq_ok`). A dotted name is looked up inside the type that its
first segment stands for, and as a full name where that segment stands for no type
(`SymbolTable.resolveType_of_split`). So a type is hidden under its full name where the first
segment of its package is the simple name of another type in scope.
-/

namespace Rete

/-! ## Dotted names -/

namespace Text

variable {separator : Char}

/-- A text is split at the first separator. -/
theorem splitFirst?_append {head rest : String} (absent : separator ∉ head.toList) :
    splitFirst? separator (head ++ String.singleton separator ++ rest) = some (head, rest) := by
  have passes : ∀ c ∈ head.toList, (c != separator) = true := fun c member =>
    bne_iff_ne.mpr fun same => absent (same ▸ member)
  have stops : (separator != separator) = false := bne_self_eq_false separator
  have chars : (head ++ String.singleton separator ++ rest).toList =
      head.toList ++ separator :: rest.toList := by
    simp only [String.toList_append, String.toList_singleton, List.append_assoc,
      List.singleton_append]
  unfold splitFirst?
  rw [chars, List.dropWhile_append_of_pos passes, List.takeWhile_append_of_pos passes,
    List.dropWhile_cons, List.takeWhile_cons, stops]
  simp only [Bool.false_eq_true, ↓reduceIte, List.append_nil, String.ofList_toList]

end Text

/-! ## Types of packages that are imported whole -/

/-- Keeps one more type, unless there is one of its full name. -/
def TypeDef.keepNew (kept : List TypeDef) (type : TypeDef) : List TypeDef :=
  if kept.any fun other => other.fullName == type.fullName then kept else kept ++ [type]

/-- Of the types with one full name, the first is kept. -/
structure TypeDef.Distinguishes (offered kept : List TypeDef) : Prop where
  subset : ∀ type ∈ kept, type ∈ offered
  covers : ∀ type ∈ offered, ∃ other ∈ kept, other.fullName = type.fullName
  distinct : kept.Pairwise fun type other => type.fullName ≠ other.fullName
  head : kept.head? = offered.head?

namespace TypeDef.Distinguishes

variable {offered kept : List TypeDef}

private theorem concat (before : Distinguishes offered kept) (type : TypeDef) :
    Distinguishes (offered ++ [type]) (keepNew kept type) := by
  unfold keepNew
  split
  · next known =>
      obtain ⟨other, member, same⟩ := List.any_eq_true.mp known
      have nonempty : offered ≠ [] := List.ne_nil_of_mem (before.subset other member)
      refine ⟨fun found present => List.mem_append_left _ (before.subset found present), ?_,
        before.distinct, ?_⟩
      · intro found present
        rcases List.mem_append.mp present with earlier | last
        · exact before.covers found earlier
        · rw [List.mem_singleton.mp last]
          exact ⟨other, member, beq_iff_eq.mp same⟩
      · rw [before.head, List.head?_append_of_ne_nil _ nonempty]
  · next new =>
      refine ⟨fun found present => ?_, fun found present => ?_, ?_, ?_⟩
      · exact List.mem_append.mpr ((List.mem_append.mp present).imp_left (before.subset found))
      · rcases List.mem_append.mp present with earlier | last
        · obtain ⟨other, member, same⟩ := before.covers found earlier
          exact ⟨other, List.mem_append_left _ member, same⟩
        · rw [List.mem_singleton.mp last]
          exact ⟨type, List.mem_append_right _ (List.mem_singleton_self type), rfl⟩
      · refine List.pairwise_append.mpr ⟨before.distinct, List.pairwise_singleton _ _, ?_⟩
        intro found member last isLast same
        rw [List.mem_singleton.mp isLast] at same
        exact new (List.any_eq_true.mpr ⟨found, member, beq_iff_eq.mpr same⟩)
      · rw [List.head?_append, List.head?_append, before.head]

private theorem foldl (offered : List TypeDef) :
    Distinguishes offered (offered.foldl keepNew []) := by
  induction offered using List.reverseRecOn with
  | nil => exact ⟨fun _ => id, fun _ none => absurd none List.not_mem_nil, .nil, rfl⟩
  | append_singleton earlier type ih =>
      rw [List.foldl_append]
      exact ih.concat type

end TypeDef.Distinguishes

namespace SymbolTable

variable {table : SymbolTable} {name : String} {type : TypeDef}

/-- The types of a simple name in the packages that are imported whole. -/
def offeredTypes (table : SymbolTable) (name : String) : List TypeDef :=
  table.typeWildcards.filterMap fun package => table.catalog.get? (package.child name).text

/-- A type is offered exactly if a package that is imported whole has it. -/
theorem mem_offeredTypes : type ∈ table.offeredTypes name ↔
    ∃ package ∈ table.typeWildcards, table.catalog.get? (package.child name).text = some type :=
  List.mem_filterMap

/-- Lookup among wildcard imports tells the offered types apart by their full names. -/
theorem distinguishes_wildcardTypes (table : SymbolTable) (name : String) :
    TypeDef.Distinguishes (table.offeredTypes name) (table.wildcardTypes name) := by
  have same : table.wildcardTypes name = (table.offeredTypes name).foldl TypeDef.keepNew [] := by
    unfold wildcardTypes offeredTypes
    rw [List.foldl_filterMap]
    congr 1
    funext found package
    cases table.catalog.get? (package.child name).text <;> rfl
  rw [same]
  exact .foldl _

/-! ## Simple names -/

/-- Neither an import by name nor a type of the package decides what a simple name stands for. -/
structure Open (table : SymbolTable) (name : String) : Prop where
  clear : table.typeConflicts.find? name = none
  notImported : table.typeImports.find? name = none
  notInPackage : table.catalog.get? (table.package.child name).text = none

/-- What a simple name stands for. -/
inductive Denotes (table : SymbolTable) (name : String) (type : TypeDef) : Prop
  /-- The type that is imported under the name. -/
  | imported (clear : table.typeConflicts.find? name = none)
    (found : table.typeImports.find? name = some type)
  /-- A type of the same package. -/
  | inPackage (clear : table.typeConflicts.find? name = none)
    (notImported : table.typeImports.find? name = none)
    (found : table.catalog.get? (table.package.child name).text = some type)
  /-- The only type of the name in packages that are imported whole. -/
  | offered (undecided : table.Open name) (first : (table.offeredTypes name).head? = some type)
    (only : ∀ other ∈ table.offeredTypes name, other.fullName = type.fullName)
  /-- A type without a package. -/
  | bare (undecided : table.Open name) (notOffered : table.offeredTypes name = [])
    (found : table.catalog.get? name = some type)

/-- Several types lay claim to a simple name: they are imported under it, or packages that are
imported whole have them. -/
inductive Ambiguous (table : SymbolTable) (name : String) : Prop
  | imported {colliding : List String} (found : table.typeConflicts.find? name = some colliding)
  | offered (undecided : table.Open name) {type other : TypeDef}
    (member : type ∈ table.offeredTypes name) (another : other ∈ table.offeredTypes name)
    (different : type.fullName ≠ other.fullName)

/-- A name that nothing decides is looked up among the types offered, and else as a full name. -/
theorem Open.resolveSimpleType (undecided : table.Open name) : table.resolveSimpleType name =
    match table.wildcardTypes name with
    | [type] => .ok type
    | [] =>
      match table.catalog.get? name with
      | some type => .ok type
      | none => .error (.unresolved "type" name)
    | types => .error (.ambiguous name (types.map fun type => type.fullName)) := by
  unfold SymbolTable.resolveSimpleType
  rewrite [undecided.clear, undecided.notImported, undecided.notInPackage]
  rfl

/-- What a simple name denotes is what lookup finds. -/
theorem Denotes.resolves (denotes : table.Denotes name type) :
    table.resolveSimpleType name = .ok type := by
  have distinguishes := table.distinguishes_wildcardTypes name
  cases denotes with
  | imported clear found =>
      unfold resolveSimpleType
      rw [clear, found]
  | inPackage clear notImported found =>
      unfold resolveSimpleType
      rw [clear, notImported, found]
  | offered undecided first only =>
      rw [undecided.resolveSimpleType]
      have head := distinguishes.head.trans first
      match kept : table.wildcardTypes name with
      | [] =>
          rw [kept] at head
          cases head
      | [single] =>
          rw [kept] at head
          exact congrArg Except.ok (Option.some.inj head)
      | one :: another :: rest =>
          rw [kept] at distinguishes
          have different := List.rel_of_pairwise_cons distinguishes.distinct List.mem_cons_self
          have first := only one (distinguishes.subset one List.mem_cons_self)
          have second := only another
            (distinguishes.subset another (List.mem_cons_of_mem _ List.mem_cons_self))
          exact absurd (first.trans second.symm) different
  | bare undecided notOffered found =>
      rw [undecided.resolveSimpleType]
      have none : table.wildcardTypes name = [] := by
        rw [← List.head?_eq_none_iff, distinguishes.head, notOffered]
        rfl
      rw [none]
      dsimp only
      rw [found]

private theorem Ambiguous.fails (ambiguous : table.Ambiguous name) :
    ∃ candidates, table.resolveSimpleType name = .error (.ambiguous name candidates) := by
  cases ambiguous with
  | imported found =>
      unfold resolveSimpleType
      rw [found]
      exact ⟨_, rfl⟩
  | @offered undecided type other member another different =>
      rw [undecided.resolveSimpleType]
      have distinguishes := table.distinguishes_wildcardTypes name
      obtain ⟨kept, isKept, same⟩ := distinguishes.covers type member
      obtain ⟨last, isLast, sameLast⟩ := distinguishes.covers other another
      match found : table.wildcardTypes name with
      | [] =>
          rw [found] at isKept
          exact absurd isKept List.not_mem_nil
      | [single] =>
          rw [found] at isKept isLast
          rw [List.mem_singleton.mp isKept] at same
          rw [List.mem_singleton.mp isLast] at sameLast
          exact absurd (same.symm.trans sameLast) different
      | _ :: _ :: _ => exact ⟨_, rfl⟩

/-- A simple name stands for a type, or is ambiguous, or stands for nothing. -/
theorem denotes_or_ambiguous (table : SymbolTable) (name : String) :
    (∃ type, table.Denotes name type) ∨ table.Ambiguous name ∨
      table.resolveSimpleType name = .error (.unresolved "type" name) := by
  cases clear : table.typeConflicts.find? name with
  | some colliding => exact .inr (.inl (.imported clear))
  | none =>
  cases notImported : table.typeImports.find? name with
  | some type => exact .inl ⟨type, .imported clear notImported⟩
  | none =>
  cases notInPackage : table.catalog.get? (table.package.child name).text with
  | some type => exact .inl ⟨type, .inPackage clear notImported notInPackage⟩
  | none =>
  have undecided : table.Open name := ⟨clear, notImported, notInPackage⟩
  cases offered : table.offeredTypes name with
  | nil =>
      cases found : table.catalog.get? name with
      | some type => exact .inl ⟨type, .bare undecided offered found⟩
      | none =>
          have none : table.wildcardTypes name = [] := by
            rw [← List.head?_eq_none_iff, (table.distinguishes_wildcardTypes name).head, offered]
            rfl
          refine .inr (.inr ?_)
          rw [undecided.resolveSimpleType, none]
          dsimp only
          rw [found]
  | cons type rest =>
      by_cases only : ∀ other ∈ table.offeredTypes name, other.fullName = type.fullName
      · exact .inl ⟨type, .offered undecided (by rw [offered]; rfl) only⟩
      · push Not at only
        obtain ⟨other, member, different⟩ := only
        exact .inr (.inl (.offered undecided member (offered ▸ List.mem_cons_self) different))

/-- What the look-up of a simple name finds is what the name stands for. -/
theorem resolveSimpleType_eq_ok :
    table.resolveSimpleType name = .ok type ↔ table.Denotes name type := by
  refine ⟨fun found => ?_, Denotes.resolves⟩
  rcases table.denotes_or_ambiguous name with ⟨other, denotes⟩ | ambiguous | nothing
  · cases denotes.resolves.symm.trans found
    exact denotes
  · obtain ⟨candidates, fails⟩ := ambiguous.fails
    cases fails.symm.trans found
  · cases nothing.symm.trans found

/-- A simple name that stands for no type is ambiguous or stands for nothing. -/
theorem kind_of_resolveSimpleType {problem : Diagnostic}
    (failed : table.resolveSimpleType name = .error problem) :
    (table.Ambiguous name ∧ problem.kind = .ambiguousSymbol) ∨
      (¬ table.Ambiguous name ∧ problem.kind = .unresolvedSymbol) := by
  by_cases ambiguous : table.Ambiguous name
  · obtain ⟨candidates, fails⟩ := ambiguous.fails
    cases fails.symm.trans failed
    exact .inl ⟨ambiguous, rfl⟩
  · rcases (table.denotes_or_ambiguous name).imp_right fun either => either.resolve_left ambiguous
      with ⟨type, denotes⟩ | nothing
    · cases denotes.resolves.symm.trans failed
    · cases nothing.symm.trans failed
      exact .inr ⟨ambiguous, rfl⟩

/-! ## Dotted names -/

/-- A name without a dot is looked up as a simple name. -/
theorem resolveType_of_dotless (dotless : Text.splitFirst? '.' name = none) :
    table.resolveType name = table.resolveSimpleType name := by
  unfold resolveType
  rw [dotless]

/-- Looks a full name up for a name as it is written. -/
def lookUp (table : SymbolTable) (written fullName : String) : Except Diagnostic TypeDef :=
  match table.catalog.get? fullName with
  | some type => .ok type
  | none => .error (.unresolved "type" written)

/-- A full name is looked up in the catalog. -/
theorem lookUp_eq_ok {written fullName : String} :
    table.lookUp written fullName = .ok type ↔ table.catalog.get? fullName = some type := by
  unfold lookUp
  cases table.catalog.get? fullName <;> simp

private theorem kind_of_lookUp {written fullName : String} {problem : Diagnostic}
    (failed : table.lookUp written fullName = .error problem) :
    problem.kind = .unresolvedSymbol := by
  unfold lookUp at failed
  split at failed
  · cases failed
  · cases failed
    rfl

/-- A dotted name is looked up inside the type that its first segment is resolved to, or else as a
full name. -/
theorem resolveType_of_split {head rest : String}
    (splits : Text.splitFirst? '.' name = some (head, rest)) : table.resolveType name =
      match table.resolveSimpleType head with
      | .ok outer => table.lookUp name (outer.fullName ++ "." ++ rest)
      | .error problem =>
        if problem.kind = .ambiguousSymbol then .error problem else table.lookUp name name := by
  unfold resolveType
  rw [splits]
  rfl

/-- A dotted name whose first segment is not ambiguous is that of a type inside the one that the
first segment stands for, and a full name where the first segment stands for no type. Where neither
is in the catalog, the name is unresolved. -/
theorem resolveType_qualified (table : SymbolTable) (head rest : String)
    (dotless : '.' ∉ head.toList) (clear : ¬ table.Ambiguous head) :
    (∀ type, table.resolveType (head ++ "." ++ rest) = .ok type ↔
      (∃ outer, table.Denotes head outer ∧
        table.catalog.get? (outer.fullName ++ "." ++ rest) = some type) ∨
      (∀ outer, ¬ table.Denotes head outer) ∧
        table.catalog.get? (head ++ "." ++ rest) = some type) ∧
    ∀ problem, table.resolveType (head ++ "." ++ rest) = .error problem →
      problem.kind = .unresolvedSymbol := by
  have splits : Text.splitFirst? '.' (head ++ "." ++ rest) = some (head, rest) :=
    Text.splitFirst?_append dotless
  rw [resolveType_of_split splits]
  cases resolved : table.resolveSimpleType head with
  | ok outer =>
      have denotes := resolveSimpleType_eq_ok.mp resolved
      refine ⟨fun type => lookUp_eq_ok.trans ⟨fun found => .inl ⟨outer, denotes, found⟩, ?_⟩,
        fun problem => kind_of_lookUp⟩
      rintro (⟨other, denotesOther, found⟩ | ⟨nothing, -⟩)
      · cases resolved.symm.trans denotesOther.resolves
        exact found
      · exact absurd denotes (nothing outer)
  | error problem =>
      have nothing : ∀ outer, ¬ table.Denotes head outer := fun outer denotes => by
        cases resolved.symm.trans denotes.resolves
      have unresolved : problem.kind = .unresolvedSymbol :=
        ((kind_of_resolveSimpleType resolved).resolve_left fun either => clear either.1).2
      dsimp only
      rw [if_neg (by rw [unresolved]; decide)]
      refine ⟨fun type => lookUp_eq_ok.trans ⟨fun found => .inr ⟨nothing, found⟩, ?_⟩,
        fun problem => kind_of_lookUp⟩
      rintro (⟨outer, denotes, -⟩ | ⟨-, found⟩)
      · exact absurd denotes (nothing outer)
      · exact found

end SymbolTable

namespace Hidden

/-- The simple name of one type is the first segment of the package of another. -/
def catalog : Catalog :=
  ⟨.ofList (["app.org", "app.org.Unit", "org.example.Cheese"].map fun name =>
    (name, { name := .ofText name }))⟩

/-- The table of a package beside these types. -/
def table : SymbolTable := .ofPackage "app" catalog

private theorem org_clear : ¬ table.Ambiguous "org" := by
  rintro (found | ⟨undecided, -⟩)
  · cases found
  · have inPackage : (table.catalog.get? (table.package.child "org").text).isSome = true := by
      decide +kernel
    rw [undecided.notInPackage] at inPackage
    cases inPackage

private theorem org_denotes : ∃ outer, table.Denotes "org" outer ∧ outer.fullName = "app.org" := by
  have named : (table.catalog.get? (table.package.child "org").text).map (·.fullName) =
      some "app.org" := by
    decide +kernel
  obtain ⟨outer, found, isName⟩ := Option.map_eq_some_iff.mp named
  exact ⟨outer, .inPackage rfl rfl found, isName⟩

/-- A type inside the one that the first segment stands for is found. -/
theorem unit_resolved : '.' ∉ "org".toList ∧ ¬ table.Ambiguous "org" ∧
    ∃ type, type.fullName = "app.org.Unit" ∧
      table.resolveType ("org" ++ "." ++ "Unit") = .ok type := by
  have dotless : '.' ∉ "org".toList := by decide
  obtain ⟨outer, denotes, isOuter⟩ := org_denotes
  have named : (table.catalog.get? "app.org.Unit").map (·.fullName) = some "app.org.Unit" := by
    decide +kernel
  obtain ⟨type, found, isName⟩ := Option.map_eq_some_iff.mp named
  refine ⟨dotless, org_clear, type, isName, ?_⟩
  refine ((table.resolveType_qualified "org" "Unit" dotless org_clear).1 type).mpr (.inl ?_)
  exact ⟨outer, denotes, by rw [isOuter]; exact found⟩

/-- A type is not found under its full name, although nothing is ambiguous, where the first segment
stands for a type without such a type inside. -/
theorem cheese_hidden : '.' ∉ "org".toList ∧ ¬ table.Ambiguous "org" ∧
    (∃ outer, table.Denotes "org" outer ∧
      table.catalog.get? (outer.fullName ++ "." ++ "example.Cheese") = none) ∧
    (∃ type, table.catalog.get? ("org" ++ "." ++ "example.Cheese") = some type ∧
      type.fullName = "org.example.Cheese") ∧
    ∃ problem, table.resolveType ("org" ++ "." ++ "example.Cheese") = .error problem ∧
      problem.kind = .unresolvedSymbol := by
  obtain ⟨outer, denotes, isOuter⟩ := org_denotes
  have named : (table.catalog.get? ("org" ++ "." ++ "example.Cheese")).map (·.fullName) =
      some "org.example.Cheese" := by
    decide +kernel
  have kind : (match table.resolveType ("org" ++ "." ++ "example.Cheese") with
      | .ok _ => none
      | .error problem => some problem.kind) = some .unresolvedSymbol := by
    decide +kernel
  have noneInside : (table.catalog.get? ("app.org" ++ "." ++ "example.Cheese")).isNone = true := by
    decide +kernel
  refine ⟨by decide, org_clear, ⟨outer, denotes, ?_⟩, Option.map_eq_some_iff.mp named, ?_⟩
  · rw [isOuter]
    exact Option.isNone_iff_eq_none.mp noneInside
  · cases resolved : table.resolveType ("org" ++ "." ++ "example.Cheese") with
    | ok type =>
        rw [resolved] at kind
        cases kind
    | error problem =>
        rw [resolved] at kind
        exact ⟨problem, rfl, Option.some.inj kind⟩

end Hidden

end Rete
