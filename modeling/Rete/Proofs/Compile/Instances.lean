import Rete.Proofs.Compile.Imports
import Rete.Proofs.Compile.Names
import Rete.Proofs.Knowledge

/-!
# What a consequence makes instances of

A `new` is compiled to a making of instances of the type that its name stands for
(`Bindings.makesListed_compile`). The names of a compiled package stand for types of the catalog, so
an action that inserts what it makes itself makes an instance of a type of the catalog
(`KnowledgeBase.Made.makes_listed`).
-/

namespace Rete

/-! ## Names of types -/

namespace SymbolTable

/-- Every type that a name stands for is in a catalog under its own name. -/
structure Lists (table : SymbolTable) (catalog : Catalog) : Prop where
  listed : ∀ {name type}, table.resolveType name = .ok type →
    catalog.get? type.fullName = some type

private theorem Lists.after {table after : SymbolTable} {catalog : Catalog}
    (lists : table.Lists catalog) (same : table.SameTypes after) : after.Lists catalog :=
  ⟨fun {name _} resolved => lists.listed (same.resolveType name ▸ resolved)⟩

private theorem sameTypes_declareFunction {table after : SymbolTable} {name : String}
    {signature : Signature} (declares : table.declareFunction name signature = .ok after) :
    table.SameTypes after := by
  unfold declareFunction at declares
  split at declares
  · cases declares
  · cases declares
    exact ⟨rfl, rfl, rfl, rfl, rfl⟩

end SymbolTable

namespace PackageDecl

private theorem sameTypes_declareFunctions (table : SymbolTable) (functions : List FunctionDecl) :
    table.SameTypes (declareFunctions table functions).1 := by
  unfold declareFunctions
  apply List.foldlRecOn (motive := fun state : SymbolTable × List (FunctionDecl × Signature) ×
    List Diagnostic => table.SameTypes state.1)
  · exact ⟨rfl, rfl, rfl, rfl, rfl⟩
  · intro state same function _
    dsimp only
    split
    · exact same
    · split
      · exact same
      · next declares => exact same.trans (SymbolTable.sameTypes_declareFunction declares)

/-- What a compiled package imports and declares besides types leaves the names of types as they
are. -/
theorem sameTypes_compile (catalog : Catalog) (declared : PackageDecl) :
    (declared.importedTypes catalog).SameTypes (declared.compile catalog).1.scope.table := by
  have functions := sameTypes_importFunctions (declared.importedTypes catalog)
    declared.functionImports
  have globals := (keeps_declareGlobals (declared.importedFunctions catalog) declared.globals).types
  exact (functions.trans globals).trans (sameTypes_declareFunctions _ declared.functions)

/-- Compiling a package does not change the catalog. -/
theorem catalog_compile (catalog : Catalog) (declared : PackageDecl) :
    (declared.compile catalog).1.scope.table.catalog = catalog :=
  (sameTypes_compile catalog declared).catalog.trans
    (siblings_importTypes declared.name catalog declared.imports).catalog

/-- In a compiled package, names of types stand for types of the catalog. -/
theorem lists_compile {catalog : Catalog} (titled : catalog.Titled) (declared : PackageDecl) :
    (declared.compile catalog).1.scope.table.Lists catalog := by
  have imports : (declared.importedTypes catalog).Lists catalog := by
    refine ⟨fun {name type} resolved => ?_⟩
    obtain ⟨fullName, found⟩ :=
      (typesOf_importTypes declared.name catalog declared.imports).listed_of_resolveType resolved
    rw [(siblings_importTypes declared.name catalog declared.imports).catalog] at found
    rw [titled found]
    exact found
  exact imports.after (sameTypes_compile catalog declared)

end PackageDecl

/-! ## Expressions and actions -/

/-- If the expression makes an instance, it is one of a type that a name of the table stands for. -/
def Expr.MakesListed (table : SymbolTable) : Expr → Prop
  | .construct type _ => ∃ name listed, table.resolveType name = .ok listed ∧
      listed.toRecordType = type
  | .const _ | .slot _ | .fact _ | .factField .. | .currentField _ | .global _ | .field ..
  | .call .. | .method .. | .updateGlobal .. | .binary .. | .unary .. => True

namespace Bindings

variable {table : SymbolTable} {bindings : Bindings}

/-- What is compiled makes instances of types that names stand for. -/
abbrev MakingListed (table : SymbolTable) (compiled : Except Diagnostic Typed) : Prop :=
  Outcome compiled (fun typed => typed.expr.MakesListed table) fun _ => True

private theorem makingListed_compileName (name : String) :
    MakingListed table (bindings.compileName table name) := by
  unfold compileName
  repeat' split
  all_goals exact trivial

private theorem makingListed_compileConstant (path field : String) :
    MakingListed table (compileConstant table path field) := by
  refine Outcome.bind (.trivial _) fun owner _ => ?_
  split
  · exact trivial
  · dsimp only
    split <;> exact trivial

private theorem makingListed_compileFieldOf (target : Typed) (field : String) :
    MakingListed table (compileFieldOf table target field) := by
  refine Outcome.bind (.trivial _) fun type _ => ?_
  split <;> exact trivial

private theorem makingListed_compileMethodOf (receiver : Typed) (name : String)
    (args : List Typed) :
    MakingListed table (compileMethodOf table receiver name args) := by
  unfold compileMethodOf
  split
  · exact Outcome.bind (.trivial _) fun type _ => trivial
  · split
    · exact trivial
    · dsimp only
      repeat' split
      all_goals exact trivial

/-- Only a `new` is compiled to a making of instances. -/
theorem makingListed_compile (term : Term) : MakingListed table (bindings.compile table term) := by
  cases term with
  | literal value =>
      rw [compile]
      exact trivial
  | name name =>
      rw [compile]
      exact makingListed_compileName name
  | field target field =>
      rw [compile]
      split
      · exact makingListed_compileConstant _ field
      · exact Outcome.bind (.trivial _) fun typed _ => makingListed_compileFieldOf typed field
  | call name args =>
      rw [compile]
      exact Outcome.bind (.trivial _) fun args _ => Outcome.bind (.trivial _) fun _ _ => trivial
  | method target name args =>
      rw [compile]
      split
      · exact Outcome.bind (.trivial _) fun _ _ => Outcome.bind (.trivial _) fun _ _ =>
          Outcome.bind (.trivial _) fun _ _ => trivial
      · split
        · exact Outcome.bind (.trivial _) fun _ _ => Outcome.bind (.trivial _) fun _ _ => trivial
        · exact Outcome.bind (.trivial _) fun receiver _ => Outcome.bind (.trivial _) fun args _ =>
            makingListed_compileMethodOf receiver name args
  | construct typeName args =>
      rw [compile]
      cases resolved : table.resolveType typeName with
      | error problem => exact trivial
      | ok listed =>
          dsimp only [bind, Except.bind]
          split
          · exact trivial
          · refine Outcome.bind (.trivial _) fun args _ => ?_
            split
            · exact trivial
            · exact ⟨typeName, listed, resolved, rfl⟩
  | binary op left right =>
      rw [compile]
      refine Outcome.bind (.trivial _) fun left _ => Outcome.bind (.trivial _) fun right _ => ?_
      split <;> exact trivial
  | unary op operand =>
      rw [compile]
      refine Outcome.bind (.trivial _) fun operand _ => ?_
      split <;> exact trivial

/-- An action of a consequence is a statement, compiled with the variables in scope there. -/
theorem exists_of_mem_compileStatements {statements : List Statement} {action : Action}
    (member : action ∈ (compileStatements table bindings statements).1) :
    ∃ (scope : Bindings) (statement : Statement), statement ∈ statements ∧
      scope.compilePlain table statement = .ok action := by
  induction statements generalizing bindings with
  | nil => cases member
  | cons statement rest ih =>
      rw [compileStatements_cons] at member
      dsimp only at member
      have later : action ∈ (compileStatements table
          (bindings.afterStatement table statement) rest).1 →
          ∃ (scope : Bindings) (other : Statement), other ∈ statement :: rest ∧
            scope.compilePlain table other = .ok action := by
        intro ofRest
        obtain ⟨scope, other, within, compiled⟩ := ih ofRest
        exact ⟨scope, other, List.mem_cons_of_mem _ within, compiled⟩
      cases compiled : bindings.compilePlain table statement with
      | error problem =>
          rw [compiled] at member
          exact later member
      | ok first =>
          rw [compiled] at member
          rcases List.mem_cons.mp member with rfl | ofRest
          · exact ⟨bindings, statement, List.mem_cons_self, compiled⟩
          · exact later ofRest

/-- What an `insert` makes itself is an instance of a type that a name stands for. -/
theorem makesListed_of_compilePlain {statement : Statement} {e : Expr}
    (compiled : bindings.compilePlain table statement = .ok (.insert e)) :
    e.MakesListed table := by
  cases statement with
  | insert fact =>
      obtain ⟨typed, isTyped, inserts⟩ := exists_of_bind_eq_ok compiled
      have makes : typed.expr.MakesListed table := by
        have making : MakingListed table (bindings.compile table fact) := makingListed_compile fact
        rwa [isTyped] at making
      split at inserts
      · cases inserts
        exact makes
      · cases inserts
        exact makes
      · cases inserts
  | eval e | bind name e | retract name =>
      obtain ⟨_, -, other⟩ := exists_of_bind_eq_ok compiled
      cases other
  | modify var assignments =>
      obtain ⟨_, -, rest⟩ := exists_of_bind_eq_ok compiled
      obtain ⟨_, -, other⟩ := exists_of_bind_eq_ok rest
      cases other
  | setGlobal name value =>
      rw [compilePlain] at compiled
      split at compiled
      · cases compiled
      · obtain ⟨_, -, rest⟩ := exists_of_bind_eq_ok compiled
        split at rest <;> cases rest
  | halt => cases compiled

end Bindings

/-- What a rule inserts and makes itself is an instance of a type that a name stands for. -/
theorem RuleDecl.makesListed_of_compile {declared : RuleDecl} {table : SymbolTable}
    {functions : FunctionTable} {rule : Rule}
    (compiled : declared.compile table functions = .ok rule) {e : Expr}
    (member : .insert e ∈ rule.consequence.actions) : e.MakesListed table := by
  have drafted := RuleDecl.drafted_of_compile compiled
  rw [(Bindings.actions_of_compileConsequence drafted.consequence).2] at member
  obtain ⟨scope, statement, -, isAction⟩ := Bindings.exists_of_mem_compileStatements member
  exact Bindings.makesListed_of_compilePlain isAction

namespace KnowledgeBase

variable {base : KnowledgeBase}

/-- What a rule of a knowledge base inserts and makes itself is an instance of a type of the
catalog. -/
theorem Made.makes_listed (made : base.Made) (titled : base.catalog.Titled) {id : RuleId}
    {rule : Rule} (isRule : base.network.rule? id = some rule) {type : RecordType}
    {args : List Expr} (member : .insert (.construct type args) ∈ rule.consequence.actions) :
    ∃ listed, base.catalog.get? type.fullName = some listed ∧ listed.toRecordType = type := by
  obtain ⟨entry, isEntry, rfl⟩ := Option.map_eq_some_iff.mp isRule
  obtain ⟨name, scope, found, own, compiled⟩ := made.compiled.network.origin_of_found isEntry
  obtain ⟨declared, -, -, rfl⟩ := made.compiled.packages found
  obtain ⟨written, listed, resolved, rfl⟩ := RuleDecl.makesListed_of_compile compiled member
  exact ⟨listed, (PackageDecl.lists_compile titled declared).listed resolved, rfl⟩

end KnowledgeBase

end Rete
