import Rete.Compile.Term

/-!
# Compiling consequences and functions

Statements become actions. A statement that introduces a variable does so even if its value does
not compile, so that the statements after it are judged on their own; a consequence reports the
problems of all its statements.
-/

namespace Rete.Bindings

variable (table : SymbolTable) (bindings : Bindings)

/-- The fact that a variable is bound to: its index in the tuple and its type. -/
def factOf (var : String) : Except Diagnostic (Nat × RecordType) :=
  match bindings.vars.find? var with
  | some (.fact index type) => .ok (index, type)
  | some _ => .error (.notAFact var)
  | none => .error (.unresolved "variable" var)

/-- Compiles the assignments of fields of a type. -/
def compileAssignments (type : RecordType) :
    List (String × Term) → Except Diagnostic (List (String × Expr))
  | [] => .ok []
  | (name, value) :: rest => do
    match type.field? name with
    | none => throw (.unknownField type.fullName name)
    | some field =>
      let value ← bindings.compile table value
      if !field.type.accepts value.type then
        throw (.fieldValue name type.fullName field.type value.type)
      return (field.name, value.expr) :: (← compileAssignments type rest)

/-- Compiles a statement that introduces no variable. -/
def compilePlain : Statement → Except Diagnostic Action
  | .eval e => do return .eval (← bindings.compile table e).expr
  | .bind _ value => do return .bind bindings.frameSize (← bindings.compile table value).expr
  | .insert fact => do
    let fact ← bindings.compile table fact
    match fact.type with
    | .object _ | .any => return .insert fact.expr
    | other => throw (.insertOfNonObject other)
  | .modify var assignments => do
    let (index, type) ← bindings.factOf var
    return .modify index var (← bindings.compileAssignments table type assignments)
  | .retract var => do
    let (index, _) ← bindings.factOf var
    return .retract index var
  | .setGlobal name value =>
    match table.globals.find? name with
    | none => throw (.unresolved "global" name)
    | some declared => do
      let value ← bindings.compile table value
      if declared.accepts value.type then return .setGlobal name value.expr
      else throw (.globalValue name declared value.type)
  | .halt => return .halt

/-- The variables in scope after a statement. A variable whose value does not compile may have
any type. -/
def afterStatement : Statement → Bindings
  | .bind name value =>
    let type := match bindings.compile table value with
      | .ok typed => typed.type
      | .error _ => .any
    (bindings.bindSlot name type).2
  | _ => bindings

/-- Compiles a statement; also returns the variables in scope after it. -/
def compileStatement (statement : Statement) : Except Diagnostic Action × Bindings :=
  (bindings.compilePlain table statement, bindings.afterStatement table statement)

/-- Compiles statements one after the other, collecting actions and problems. -/
def compileStatements (bindings : Bindings) :
    List Statement → List Action × List Diagnostic × Bindings
  | [] => ([], [], bindings)
  | statement :: rest =>
    let (compiled, after) := bindings.compileStatement table statement
    let (actions, problems, final) := compileStatements after rest
    match compiled with
    | .ok action => (action :: actions, problems, final)
    | .error problem => (actions, problem :: problems, final)

/-- Compiles a consequence, in which globals may be changed; also returns the variables in scope
after it. -/
def compileConsequence (statements : List Statement) :
    Except (List Diagnostic) Consequence × Bindings :=
  let (actions, problems, after) :=
    compileStatements table { bindings with mayUpdate := true } statements
  let result :=
    if problems.isEmpty then .ok { actions, frameSize := after.frameSize } else .error problems
  (result, { after with mayUpdate := bindings.mayUpdate })

end Bindings

/-- Compiles the body of a function of the package. A function without a result takes any
body. -/
def FunctionDecl.compile (function : FunctionDecl) (table : SymbolTable) (signature : Signature) :
    Except Diagnostic FunctionBody := do
  let bindings := (function.params.zip signature.params).foldl
    (fun bindings (param, type) => (bindings.bindSlot param.1 type).2) ({} : Bindings)
  let body ← bindings.compile table function.body
  if signature.returns ≠ .nil ∧ !signature.returns.accepts body.type then
    throw (.functionResult function.name signature.returns body.type)
  return ⟨function.name, signature, body.expr, bindings.frameSize⟩

end Rete
