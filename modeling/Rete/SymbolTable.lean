import Rete.Expr
import Rete.Overload

/-!
# Names in a package

The names that are visible inside one package: imported types and functions, functions declared
in the package, and globals. Every name is resolved while rules are compiled; nothing is looked
up by name when rules run.

For a call, a function of the package comes before an imported one, and an import by name before
a wildcard import. For a simple type name, an import by name comes first, then a type of the same
package, then wildcard imports, then a type without a package.
-/

namespace Rete

/-- How a called name came into scope. -/
inductive BindingOrigin where
  | declared
  | namedImport
  | wildcardImport
  deriving DecidableEq, Inhabited

/-- What a call resolves to. -/
structure CallableRef where
  name : String
  origin : BindingOrigin
  signature : Signature
  callee : Callee
  deriving DecidableEq, Inhabited

namespace CallableRef

/-- The callable that stands for a static function. -/
def ofNative (native : Native) (origin : BindingOrigin) : CallableRef :=
  ⟨native.name, origin, ⟨native.params, native.returns⟩, .native native⟩

/-- The type that declares the function, for a static function. -/
def holder? (callable : CallableRef) : Option QualifiedName :=
  match callable.callee with
  | .native native => some native.holder
  | .localFunction _ => none

/-- What an ambiguity shows of the callable. -/
def text (callable : CallableRef) : String :=
  match callable.callee with
  | .native native => native.qualifiedName
  | .localFunction _ => "function " ++ callable.name

end CallableRef

/-- A function name brought in by imports, with its overloads. -/
inductive ImportedName where
  /-- Imported by name from one type. -/
  | named (holder : QualifiedName) (overloads : List Native)
  /-- Brought in by wildcard imports, perhaps from several types. -/
  | wildcard (overloads : List Native)
  deriving DecidableEq, Inhabited

/-- The names visible inside one package. -/
structure SymbolTable where
  package : QualifiedName
  catalog : Catalog
  /-- Types imported by name, by simple name. -/
  typeImports : SortedMap String TypeDef := ∅
  /-- Simple names that were imported for several types, with the full names. -/
  typeConflicts : SortedMap String (List String) := ∅
  /-- Packages and types whose types are imported. -/
  typeWildcards : List QualifiedName := []
  imported : SortedMap String ImportedName := ∅
  /-- Function names that were imported by name from several types. -/
  importConflicts : SortedMap String (List String) := ∅
  /-- Functions declared in the package, in the order of declaration. -/
  declared : List (String × Signature) := []
  globals : SortedMap String ValueType := ∅

/-- The table of a package without imports, over the empty catalog. -/
instance : Inhabited SymbolTable := ⟨{ package := default, catalog := default }⟩

namespace SymbolTable

/-- The table of a package before its imports. -/
def ofPackage (package : String) (catalog : Catalog) : SymbolTable :=
  { package := .ofText package, catalog }

/-! ## Types -/

/-- Appends to the list under a key, which starts with `first` if there is none yet. -/
private def noteConflict (conflicts : SortedMap String (List String)) (key first next : String) :
    SortedMap String (List String) :=
  conflicts.insert key ((conflicts.find? key).getD [first] ++ [next])

/-- Imports a type by its full name. When the simple name is taken by another type, that type
keeps it, and later uses of the simple name are ambiguous. -/
def importType (table : SymbolTable) (name : String) : SymbolTable × Option Diagnostic :=
  match table.catalog.get? name with
  | none => (table, some (.unresolved "import" name))
  | some type =>
    let short := type.name.simpleName
    match table.typeImports.find? short with
    | none => ({ table with typeImports := table.typeImports.insert short type }, none)
    | some existing =>
      if existing.fullName = type.fullName then (table, none)
      else
        ({ table with
            typeConflicts :=
              noteConflict table.typeConflicts short existing.fullName type.fullName },
          some (.duplicateImport short existing.fullName type.fullName))

/-- Imports all types directly inside a package or type. -/
def importTypesIn (table : SymbolTable) (package : String) : SymbolTable × Option Diagnostic :=
  if (table.catalog.typesIn package).isEmpty then (table, some (.unresolved "package" package))
  else
    let name := QualifiedName.ofText package
    if table.typeWildcards.contains name then (table, none)
    else ({ table with typeWildcards := table.typeWildcards ++ [name] }, none)

/-- The types of a simple name in the packages that are imported whole, each once. -/
def wildcardTypes (table : SymbolTable) (name : String) : List TypeDef :=
  table.typeWildcards.foldl (fun found package =>
    match table.catalog.get? (package.child name).text with
    | none => found
    | some type =>
      if found.any fun other => other.fullName == type.fullName then found
      else found ++ [type]) []

/-- Resolves a type name without dots. -/
def resolveSimpleType (table : SymbolTable) (name : String) : Except Diagnostic TypeDef :=
  match table.typeConflicts.find? name with
  | some colliding => .error (.ambiguous name colliding)
  | none =>
    match table.typeImports.find? name with
    | some type => .ok type
    | none =>
      match table.catalog.get? (table.package.child name).text with
      | some type => .ok type
      | none =>
        match table.wildcardTypes name with
        | [type] => .ok type
        | [] =>
          match table.catalog.get? name with
          | some type => .ok type
          | none => .error (.unresolved "type" name)
        | types => .error (.ambiguous name (types.map fun type => type.fullName))

/-- Resolves a type name. The first segment of a dotted name is resolved as a type and the rest
inside it; if the first segment is no type, the whole is a full name. -/
def resolveType (table : SymbolTable) (name : String) : Except Diagnostic TypeDef :=
  let inCatalog (fullName : String) : Except Diagnostic TypeDef :=
    match table.catalog.get? fullName with
    | some type => .ok type
    | none => .error (.unresolved "type" name)
  match Text.splitFirst? '.' name with
  | none => table.resolveSimpleType name
  | some (head, rest) =>
    match table.resolveSimpleType head with
    | .ok outer => inCatalog (outer.fullName ++ "." ++ rest)
    | .error problem =>
      if problem.kind = .ambiguousSymbol then .error problem else inCatalog name

/-- Resolves the type name of a global, parameter or result; built-in names come first. -/
def resolveValueType (table : SymbolTable) (name : String) : Except Diagnostic ValueType :=
  match ValueType.ofBuiltinName? name with
  | some type => .ok type
  | none => (table.resolveType name).map fun type => type.valueType

/-! ## Functions -/

/-- Imports a static function by name. When the name is taken by a function of another type, that
function keeps it, and later uses of the name are ambiguous. -/
def importNamed (table : SymbolTable) (type : TypeDef) (name : String) :
    SymbolTable × Option Diagnostic :=
  let overloads := (type.functionsNamed name).map HostFunction.toNative
  let qualified := type.fullName ++ "." ++ name
  if overloads.isEmpty then (table, some (.unresolved "function" qualified))
  else
    match table.imported.find? name with
    | some (.named holder _) =>
      if holder = type.name then (table, none)
      else
        let first := holder.text ++ "." ++ name
        ({ table with
            importConflicts := noteConflict table.importConflicts name first qualified },
          some (.importConflict name first qualified))
    | _ =>
      ({ table with imported := table.imported.insert name (.named type.name overloads) }, none)

/-- Brings in one static function by a wildcard import. Names imported by name keep their
meaning. -/
def importByWildcard (imported : SortedMap String ImportedName) (native : Native) :
    SortedMap String ImportedName :=
  match imported.find? native.name with
  | some (.named _ _) => imported
  | some (.wildcard overloads) =>
    if overloads.contains native then imported
    else imported.insert native.name (.wildcard (overloads ++ [native]))
  | none => imported.insert native.name (.wildcard [native])

/-- Imports static functions of a type: one by name, or all. -/
def importFunctions (table : SymbolTable) (holder : String) (function : Option String) :
    SymbolTable × Option Diagnostic :=
  match table.resolveType holder with
  | .error _ => (table, some (.unresolved "function holder" holder))
  | .ok type =>
    match function with
    | some name => table.importNamed type name
    | none =>
      let natives := type.functions.map HostFunction.toNative
      ({ table with imported := natives.foldl importByWildcard table.imported }, none)

/-- Declares a function of the package; calls refer to it by its position among the declared
functions. -/
def declareFunction (table : SymbolTable) (name : String) (signature : Signature) :
    Except Diagnostic SymbolTable :=
  if table.declared.any fun (other, declared) =>
      other == name && declared.params == signature.params then
    .error (.functionRedeclared name)
  else .ok { table with declared := table.declared ++ [(name, signature)] }

/-- The overloads among static functions, as candidates. -/
private def candidates (natives : List Native) : List Candidate :=
  natives.map fun native => ⟨native.params, native.text⟩

/-- Picks the overload among static functions that a call means. -/
def selectNative (name : String) (natives : List Native) (args : List ValueType)
    (origin : BindingOrigin) : Except Diagnostic CallableRef := do
  let index ← selectOverload name (candidates natives) args
  match natives[index]? with
  | some native => return .ofNative native origin
  | none => throw (.unresolved "function" name)

/-- Resolves a call by name and argument types. -/
def resolveCallable (table : SymbolTable) (name : String) (args : List ValueType) :
    Except Diagnostic CallableRef :=
  match table.declared.zipIdx.filter fun entry => entry.1.1 == name with
  | [] =>
    match table.importConflicts.find? name with
    | some colliding => .error (.ambiguous name colliding)
    | none =>
      match table.imported.find? name with
      | some (.named _ overloads) => selectNative name overloads args .namedImport
      | some (.wildcard overloads) => selectNative name overloads args .wildcardImport
      | none => .error (.unresolved "function" name)
  | functions => do
    let candidates := functions.map fun entry =>
      { params := entry.1.2.params, label := "function " ++ name : Candidate }
    let pick ← selectOverload name candidates args
    match functions[pick]? with
    | some ((_, signature), index) => return ⟨name, .declared, signature, .localFunction index⟩
    | none => throw (.unresolved "function" name)

/-! ## Globals -/

/-- Declares a global; declaring it again needs the same type. -/
def declareGlobal (table : SymbolTable) (name : String) (type : ValueType) :
    Except Diagnostic SymbolTable :=
  match table.globals.find? name with
  | none => .ok { table with globals := table.globals.insert name type }
  | some declared =>
    if declared = type then .ok table else .error (.globalRedeclared name declared)

end SymbolTable

/-- Resolves a call of a static function of a type. -/
def TypeDef.resolveCall (type : TypeDef) (name : String) (args : List ValueType) :
    Except Diagnostic CallableRef :=
  match (type.functionsNamed name).map HostFunction.toNative with
  | [] => .error (.unresolved "static method" (type.fullName ++ "." ++ name))
  | natives => SymbolTable.selectNative name natives args .namedImport

end Rete
