import Rete.Compile.Rule

/-!
# Compiling packages

A package is compiled in the order in which its parts depend on each other: imports, globals,
signatures of functions, bodies of functions, rules. Problems are collected; one part that does
not compile does not keep the others from being compiled.
-/

namespace Rete

/-- What later rules of a package are compiled against. -/
structure PackageScope where
  table : SymbolTable
  functions : FunctionTable
  deriving Inhabited

/-- A compiled package. -/
structure Package where
  name : String
  scope : PackageScope
  /-- The rules that compiled, in the order of declaration. -/
  rules : List Rule
  deriving Inhabited

namespace PackageDecl

/-- Applies one import after the other to a table, collecting problems. -/
def applyImports {α : Type} (apply : SymbolTable → α → SymbolTable × Option Diagnostic)
    (span : α → Span) (table : SymbolTable) (imports : List α) :
    SymbolTable × List Diagnostic :=
  imports.foldl (fun (table, problems) declared =>
    let (table, problem) := apply table declared
    (table, problems ++ (problem.map (·.withSpan (span declared))).toList)) (table, [])

/-- Applies a type import. -/
def importType (table : SymbolTable) : ImportDecl → SymbolTable × Option Diagnostic
  | .type name _ => table.importType name
  | .wildcard package _ => table.importTypesIn package

/-- Declares a global. -/
def declareGlobal (table : SymbolTable) (global : GlobalDecl) :
    SymbolTable × Option Diagnostic :=
  let declared := do table.declareGlobal global.name (← table.resolveValueType global.typeName)
  match declared with
  | .ok table => (table, none)
  | .error problem => (table, some problem)

/-- Resolves the types of parameters, from left to right. -/
def resolveParams (table : SymbolTable) :
    List (String × String) → Except Diagnostic (List ValueType)
  | [] => .ok []
  | (_, typeName) :: rest => do
    let type ← table.resolveValueType typeName
    return type :: (← resolveParams table rest)

/-- Resolves the signature of a function. -/
def signatureOf (table : SymbolTable) (function : FunctionDecl) : Except Diagnostic Signature := do
  let params ← resolveParams table function.params
  return ⟨params, ← table.resolveValueType function.returnType⟩

/-- Declares functions, so that bodies can call any of them. Those with a good signature are
returned. -/
def declareFunctions (table : SymbolTable) (functions : List FunctionDecl) :
    SymbolTable × List (FunctionDecl × Signature) × List Diagnostic :=
  functions.foldl (fun (table, declared, problems) function =>
    match signatureOf table function with
    | .error problem =>
      (table, declared, problems ++ [(problem.withRule function.name).withSpan function.span])
    | .ok signature =>
      match table.declareFunction function.name signature with
      | .error problem => (table, declared, problems ++ [problem.withSpan function.span])
      | .ok table => (table, declared ++ [(function, signature)], problems)) (table, [], [])

/-- Compiles the bodies of declared functions. -/
def compileFunctions (table : SymbolTable) (functions : List (FunctionDecl × Signature)) :
    List FunctionBody × List Diagnostic :=
  functions.foldl (fun (bodies, problems) (function, signature) =>
    match function.compile table signature with
    | .ok body => (bodies ++ [body], problems)
    | .error problem =>
      (bodies, problems ++ [(problem.withRule function.name).withSpan function.span])) ([], [])

/-- Compiles rules. A rule with the name of one that compiled before it is refused. -/
def compileRules (package : String) (scope : PackageScope) (rules : List RuleDecl) :
    List Rule × List Diagnostic :=
  rules.foldl (fun (compiled, problems) rule =>
    if compiled.any fun other : Rule => other.name == rule.name then
      (compiled, problems ++
        [(((Diagnostic.ruleRedeclared rule.name).withRule rule.name).withSpan rule.span).withPackage
          package])
    else
      match rule.compile scope.table scope.functions with
      | .ok rule => (compiled ++ [rule], problems)
      | .error found => (compiled, problems ++ found)) ([], [])

/-- Compiles a package against a catalog. The package holds every rule that compiled, the
problems are all that were found. -/
def compile (declared : PackageDecl) (catalog : Catalog) : Package × List Diagnostic :=
  let table := SymbolTable.ofPackage declared.name catalog
  let (table, ofImports) := applyImports importType ImportDecl.span table declared.imports
  let (table, ofFunctionImports) := applyImports
    (fun table found => table.importFunctions found.holder found.function)
    FunctionImportDecl.span table declared.functionImports
  let (table, ofGlobals) := applyImports declareGlobal GlobalDecl.span table declared.globals
  let (table, functions, ofSignatures) := declareFunctions table declared.functions
  let (bodies, ofBodies) := compileFunctions table functions
  let scope := { table, functions := { package := declared.name, functions := bodies } }
  let (rules, ofRules) := compileRules declared.name scope declared.rules
  let problems := ofImports ++ ofFunctionImports ++ ofGlobals ++ ofSignatures ++ ofBodies
  ({ name := declared.name, scope, rules },
    problems.map (·.withPackage declared.name) ++ ofRules)

end PackageDecl

end Rete
