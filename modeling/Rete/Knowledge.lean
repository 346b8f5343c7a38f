import Rete.Compile.Package
import Rete.Session.Basic

/-!
# Knowledge bases

Compiled packages and the network of their rules, from which sessions are made. A builder takes
packages one after the other and collects their problems; a knowledge base is built only without
errors. Packages and rules can also be added later, and rules removed; sessions made before do not
notice.
-/

namespace Rete

/-- Adds the globals of a package to those declared so far; a name has one type everywhere. -/
def GlobalTypes.merge (globals : GlobalTypes) (package : Package) :
    GlobalTypes × List Diagnostic :=
  package.scope.table.globals.entries.foldl (fun (globals, problems) (name, type) =>
    match globals.find? name with
    | none => (globals.insert name type, problems)
    | some declared =>
      if declared = type then (globals, problems)
      else
        (globals,
          problems ++ [(Diagnostic.globalClash name declared type).withPackage package.name]))
    (globals, [])

/-- A package whose name is taken. -/
def Diagnostic.packageTaken (name : String) : Diagnostic :=
  (Diagnostic.packagePresent name).withPackage name

/-- Compiled rules, and the network made of them. -/
structure KnowledgeBase where
  catalog : Catalog
  network : Network := {}
  globals : GlobalTypes := ∅
  /-- What rules of a package are compiled against, by the name of the package. -/
  packages : SortedMap String PackageScope := ∅

/-- A knowledge base without packages, over the empty catalog. -/
instance : Inhabited KnowledgeBase := ⟨{ catalog := {} }⟩

/-- Packages that a knowledge base is to be built from. -/
structure KnowledgeBuilder where
  catalog : Catalog
  packages : List Package := []
  globals : GlobalTypes := ∅
  problems : List Diagnostic := []

/-- A builder without packages, over the empty catalog. -/
instance : Inhabited KnowledgeBuilder := ⟨{ catalog := {} }⟩

namespace KnowledgeBuilder

/-- Compiles a package. A package whose name is taken is left out. -/
def addPackage (builder : KnowledgeBuilder) (declared : PackageDecl) : KnowledgeBuilder :=
  let (package, found) := declared.compile builder.catalog
  let problems := builder.problems ++ found
  if builder.packages.any fun other => other.name == package.name then
    { builder with problems := problems ++ [.packageTaken package.name] }
  else
    let (globals, clashes) := builder.globals.merge package
    { builder with
      packages := builder.packages ++ [package], globals, problems := problems ++ clashes }

/-- Adds the enabled rules of a package to a network, collecting problems. -/
def addRules (network : Network) (package : Package) : Network × List Diagnostic :=
  (package.rules.filter Rule.enabled).foldl (fun (network, problems) rule =>
    match network.addRule rule with
    | .ok (_, network) => (network, problems)
    | .error problem => (network, problems ++ [problem])) (network, [])

/-- Builds the knowledge base, or reports every error. -/
def build (builder : KnowledgeBuilder) : Except (List Diagnostic) KnowledgeBase :=
  if hasErrors builder.problems then .error (builder.problems.filter Diagnostic.isError)
  else
    let (network, problems) := builder.packages.foldl (fun (network, problems) package =>
      let (network, found) := addRules network package
      (network, problems ++ found)) (({} : Network), [])
    if problems.isEmpty then
      .ok
        { catalog := builder.catalog
          network
          globals := builder.globals
          packages := .ofList (builder.packages.map fun package => (package.name, package.scope)) }
    else .error problems

end KnowledgeBuilder

namespace KnowledgeBase

/-- Builds a knowledge base from packages. -/
def build (catalog : Catalog) (packages : List PackageDecl) :
    Except (List Diagnostic) KnowledgeBase :=
  (packages.foldl KnowledgeBuilder.addPackage { catalog }).build

/-- Adds rules to a network; returns their ids in order. -/
def addRules (network : Network) : List Rule → Except (List Diagnostic) (List RuleId × Network)
  | [] => .ok ([], network)
  | rule :: rules =>
    match network.addRule rule with
    | .error problem => .error [problem]
    | .ok (id, network) => do
      let (ids, network) ← addRules network rules
      return (id :: ids, network)

/-- Compiles a package and adds its enabled rules; returns their ids. -/
def addPackage (base : KnowledgeBase) (declared : PackageDecl) :
    Except (List Diagnostic) (List RuleId × KnowledgeBase) :=
  let (package, problems) := declared.compile base.catalog
  if hasErrors problems then .error problems
  else if base.packages.contains package.name then .error [.packageTaken package.name]
  else
    let (globals, clashes) := base.globals.merge package
    if !clashes.isEmpty then .error clashes
    else do
      let (ids, network) ← addRules base.network (package.rules.filter Rule.enabled)
      let packages := base.packages.insert package.name package.scope
      return (ids, { base with network, globals, packages })

/-- Compiles a rule in the scope of a package and adds it, unless it is not enabled. -/
def addRule (base : KnowledgeBase) (package : String) (declared : RuleDecl) :
    Except (List Diagnostic) (Option RuleId × KnowledgeBase) :=
  match base.packages.find? package with
  | none => .error [.unresolved "package" package]
  | some scope => do
    let rule ← declared.compile scope.table scope.functions
    if rule.enabled then
      match base.network.addRule rule with
      | .error problem => throw [problem]
      | .ok (id, network) => return (some id, { base with network })
    else return (none, base)

/-- Removes a rule, which is returned. -/
def removeRule (base : KnowledgeBase) (id : RuleId) : Option (Rule × KnowledgeBase) :=
  (base.network.removeRule id).map fun (rule, network) => (rule, { base with network })

/-- A session that no rule has matched in yet. -/
def unseededSession (base : KnowledgeBase) (config : SessionConfig) : Session :=
  { catalog := base.catalog, network := base.network, globalTypes := base.globals, config }

/-- Makes a session. This fails if a condition that needs no fact fails to evaluate. -/
def newSession (base : KnowledgeBase) (config : SessionConfig) : Except Error Session := do
  let (result, run) := SessionM.seed.on (base.unseededSession config)
  let _ ← result
  return run.session

end KnowledgeBase

end Rete
