import Rete.Compile.Bindings
import Rete.Text.Case

/-!
# Compiling expressions

Turns a written expression into a compiled one with its static type. A bare name is, in this
order, a variable, a field of the pattern under test, or a global. A dotted path whose head is
none of these is a type path: it means a constant, or the holder of a static function.
-/

namespace Rete

/-- A compiled expression with its static type. -/
structure Typed where
  expr : Expr
  type : ValueType
  deriving DecidableEq, Inhabited

namespace Bindings

variable (table : SymbolTable) (bindings : Bindings)

/-- Compiles a bare name. -/
def compileName (name : String) : Except Diagnostic Typed :=
  match bindings.vars.find? name with
  | some (.fact index type) => .ok ⟨.fact index, type.valueType⟩
  | some (.factField index field type) => .ok ⟨.factField index field, type⟩
  | some (.currentField field type) => .ok ⟨.currentField field, type⟩
  | some (.slot index type) => .ok ⟨.slot index, type⟩
  | none =>
    match bindings.currentField? name with
    | some field => .ok ⟨.currentField field.name, field.type⟩
    | none =>
      match table.globals.find? name with
      | some type => .ok ⟨.global name, type⟩
      | none => .error (.unresolved "variable" name)

/-- Whether a bare name means a value. -/
def isValueName (name : String) : Bool :=
  bindings.isBound name || (bindings.currentField? name).isSome || table.globals.contains name

/-- The written type path of an expression: names joined by dots, the first of which is not a
value. -/
def typePath? : Term → Option String
  | .name name => if bindings.isValueName table name then none else some name
  | .field target field => (typePath? target).map fun path => path ++ "." ++ field
  | _ => none

/-- Compiles a constant of a type. -/
def compileConstant (path field : String) : Except Diagnostic Typed := do
  let owner ← table.resolveType path
  match owner.constant? field with
  | some value => return ⟨.const value, value.type⟩
  | none =>
    let nested := owner.fullName ++ "." ++ field
    if table.catalog.contains nested then throw (.typeAsValue nested)
    else throw (.unknownField owner.fullName field)

/-- The type of a field of values of a type. -/
def fieldType (owner : ValueType) (field : String) : Except Diagnostic ValueType :=
  match owner with
  | .any => .ok .any
  | .object name =>
    match table.catalog.get? name with
    | none => .error (.unresolved "type" name)
    | some type =>
      match type.field? field with
      | some declared => .ok declared.type
      | none => .error (.unknownField name field)
  | other => .error (.fieldOfNonObject field other)

/-- Compiles the read of a field. -/
def compileFieldOf (target : Typed) (field : String) : Except Diagnostic Typed := do
  let type ← fieldType table target.type field
  match target.expr with
  | .fact index => return ⟨.factField index field, type⟩
  | expr => return ⟨.field expr field, type⟩

/-- Compiles a call of a resolved function. -/
def compileCall (callable : CallableRef) (args : List Typed) : Typed :=
  ⟨.call callable.name callable.callee (args.map Typed.expr), callable.signature.returns⟩

/-- The field that an accessor such as `getPrice` or `isRipe` reads, if the receiver's type has
it. -/
def accessedField? (receiver : ValueType) (method : String) (argCount : Nat) : Option String :=
  match receiver with
  | .object typeName => do
    guard (argCount = 0)
    let rest ← (Text.dropLeading? "get" method).orElse fun _ => Text.dropLeading? "is" method
    match rest.toList with
    | [] => none
    | first :: others =>
      let field := String.ofList (Text.lowerCase.map first ++ others)
      let type ← table.catalog.get? typeName
      (type.field? field).map fun _ => field
  | _ => none

/-- The first argument that does not fit its parameter. -/
def misfit? (params : List ValueType) (args : List Typed) : Option (ValueType × ValueType) :=
  ((params.zip args).find? fun (param, arg) => !param.accepts arg.type).map fun (param, arg) =>
    (param, arg.type)

/-- Compiles a method of a value: an accessor of a field, or a built-in method. -/
def compileMethodOf (receiver : Typed) (name : String) (args : List Typed) :
    Except Diagnostic Typed := do
  match accessedField? table receiver.type name args.length with
  | some field => return ⟨.field receiver.expr field, ← fieldType table receiver.type field⟩
  | none =>
    match Method.lookup? name receiver.type with
    | none => throw (.unresolved "method" (receiver.type.text ++ "." ++ name))
    | some method =>
      if method.params.length ≠ args.length then
        throw ((Diagnostic.methodArity name method.params.length args.length).withSymbol name)
      match misfit? method.params args with
      | some (expected, found) => throw (.methodArgument name expected found)
      | none =>
        return ⟨.method receiver.expr method (args.map Typed.expr), method.returnType receiver.type⟩

/-- The change of a global that a call on a bare name means, with the type of the global. -/
def globalUpdate? (target : Term) (method : String) : Option (String × ValueType × ListUpdate) :=
  match target with
  | .name global => do
    let update ← ListUpdate.lookup? method
    guard !(bindings.isBound global)
    let type ← table.globals.find? global
    return (global, type, update)
  | _ => none

/-- Checks a change of a global before its arguments are compiled. -/
def checkGlobalUpdate (global : String) (type : ValueType) (update : ListUpdate)
    (argCount : Nat) : Except Diagnostic Unit := do
  if !bindings.mayUpdate then throw (.globalUpdateInCondition global update.name)
  if !(ValueType.list .any).accepts type then
    throw (.globalUpdateReceiver update.name global type)
  if argCount ≠ update.arity then throw (.methodArity update.name update.arity argCount)

/-- The first field whose value does not fit it. -/
def misfitField? (fields : List FieldDef) (args : List Typed) : Option (FieldDef × ValueType) :=
  ((fields.zip args).find? fun (field, arg) => !field.type.accepts arg.type).map
    fun (field, arg) => (field, arg.type)

mutual

/-- Compiles an expression. -/
def compile : Term → Except Diagnostic Typed
  | .literal value => .ok ⟨.const value, value.type⟩
  | .name name => bindings.compileName table name
  | .field target field =>
    match bindings.typePath? table target with
    | some path => compileConstant table path field
    | none => do compileFieldOf table (← compile target) field
  | .call name args => do
    let args ← compileArgs args
    return compileCall (← table.resolveCallable name (args.map Typed.type)) args
  | .method target name args =>
    match bindings.typePath? table target with
    | some path => do
      let owner ← table.resolveType path
      let args ← compileArgs args
      return compileCall (← owner.resolveCall name (args.map Typed.type)) args
    | none =>
      match bindings.globalUpdate? table target name with
      | some (global, type, update) => do
        bindings.checkGlobalUpdate global type update args.length
        let args ← compileArgs args
        return ⟨.updateGlobal global update (args.map Typed.expr), update.returnType⟩
      | none => do
        let receiver ← compile target
        let args ← compileArgs args
        compileMethodOf table receiver name args
  | .construct typeName args => do
    let type ← table.resolveType typeName
    if type.fields.length ≠ args.length then
      throw (.constructArity type.fullName typeName type.fields.length args.length)
    let args ← compileArgs args
    match misfitField? type.fields args with
    | some (field, found) => throw (.fieldValue field.name type.fullName field.type found)
    | none => return ⟨.construct type.toRecordType (args.map Typed.expr), type.valueType⟩
  | .binary op left right => do
    let left ← compile left
    let right ← compile right
    match op.resultType? left.type right.type with
    | some type => return ⟨.binary op left.expr right.expr, type⟩
    | none => throw (.binaryOperands op left.type right.type)
  | .unary op operand => do
    let operand ← compile operand
    match op.resultType? operand.type with
    | some type => return ⟨.unary op operand.expr, type⟩
    | none => throw (.unaryOperand op operand.type)

/-- Compiles arguments from left to right. -/
def compileArgs : List Term → Except Diagnostic (List Typed)
  | [] => .ok []
  | arg :: args => do
    let arg ← compile arg
    return arg :: (← compileArgs args)

end

/-- Compiles a condition, which has to be a boolean. -/
def compileCondition (condition : Term) : Except Diagnostic Expr := do
  let typed ← compile table bindings condition
  if typed.type.maybeBool then return typed.expr else throw (.conditionType typed.type)

end Bindings

end Rete
