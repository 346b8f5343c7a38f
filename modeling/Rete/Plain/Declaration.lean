import Rete.Declaration
import Rete.Plain.Value

/-!
# Reading declarations

How a package of rules is written as plain data. Expressions, statements, constraints and
conditions are lists that start with the name of their kind; packages, rules, functions and
patterns are records.
-/

namespace Rete

/-- The operators by their symbols. -/
def BinaryOp.ofSymbol? (symbol : String) : Option BinaryOp :=
  [add, sub, mul, div, rem, eq, ne, lt, le, gt, ge, and, or].find? fun op => op.symbol == symbol

/-- The operator as it is written. -/
def UnaryOp.symbol : UnaryOp → String
  | not => "!"
  | neg => "-"

/-- The operator with the given symbol. -/
def UnaryOp.ofSymbol? (symbol : String) : Option UnaryOp :=
  [not, neg].find? fun op => op.symbol == symbol

/-- Operators are read from their symbols. -/
instance : OfPlain BinaryOp := ⟨fun data => (ofPlain? data).bind BinaryOp.ofSymbol?⟩

/-- Operators are read from their symbols. -/
instance : OfPlain UnaryOp := ⟨fun data => (ofPlain? data).bind UnaryOp.ofSymbol?⟩

mutual

/-- A term is read from a list with the name of its form in front. -/
def Term.ofPlain? : Plain → Option Term
  | .list [.text "lit", value] => do return .literal (← Value.ofPlain? value)
  | .list [.text "name", .text name] => some (.name name)
  | .list [.text "path", .text dotted] => some (.path dotted)
  | .list [.text "field", target, .text field] => do return .field (← Term.ofPlain? target) field
  | .list [.text "call", .text name, .list args] => do return .call name (← termsOfPlain? args)
  | .list [.text "method", target, .text method, .list args] => do
    return .method (← Term.ofPlain? target) method (← termsOfPlain? args)
  | .list [.text "new", .text typeName, .list args] => do
    return .construct typeName (← termsOfPlain? args)
  | .list [.text "bin", op, left, right] => do
    return .binary (← Rete.ofPlain? op) (← Term.ofPlain? left) (← Term.ofPlain? right)
  | .list [.text "un", op, operand] => do
    return .unary (← Rete.ofPlain? op) (← Term.ofPlain? operand)
  | _ => none

/-- The arguments, in order. -/
def termsOfPlain? : List Plain → Option (List Term)
  | [] => some []
  | arg :: rest => do return (← Term.ofPlain? arg) :: (← termsOfPlain? rest)

end

/-- Terms are read by their forms. -/
instance : OfPlain Term := ⟨Term.ofPlain?⟩

/-- A statement is read by the name in front. -/
instance : OfPlain Statement where
  ofPlain?
    | .list [.text "expr", e] => (ofPlain? e).map .eval
    | .list [.text "let", .text name, value] => (ofPlain? value).map (.bind name)
    | .list [.text "insert", fact] => (ofPlain? fact).map .insert
    | .list [.text "modify", .text var, assignments] => (ofPlain? assignments).map (.modify var)
    | .list [.text "retract", .text var] => some (.retract var)
    | .list [.text "setGlobal", .text name, value] => (ofPlain? value).map (.setGlobal name)
    | .list [.text "halt"] => some .halt
    | _ => none

/-- A constraint is read by the name in front. -/
instance : OfPlain Constraint where
  ofPlain?
    | .list [.text "bind", .text var, .text field] => some (.bind var field)
    | .list [.text "test", condition] => (ofPlain? condition).map .test
    | _ => none

/-- A pattern is read by its field names. -/
instance : OfPlain PatternDecl where
  ofPlain? data := do
    return { typeName := ← data.get? "type", binding := ← data.get? "bind",
             constraints := ← data.get? "constraints", span := ← data.get? "span" }

/-- A condition is read by the name in front. -/
instance : OfPlain ConditionDecl where
  ofPlain?
    | .list [.text "pattern", pattern] => (ofPlain? pattern).map .pattern
    | .list [.text "not", pattern] => (ofPlain? pattern).map .absent
    | .list [.text "eval", condition] => (ofPlain? condition).map .eval
    | _ => none

/-- Rules are enabled unless the record says otherwise. -/
instance : OfPlain RuleDecl where
  ofPlain? data := do
    return { name := ← data.get? "name"
             salience := ((← data.get? "salience") : Option Int).getD 0
             noLoop := ← data.get? "no_loop"
             enabled := ((← data.get? "enabled") : Option Bool).getD true
             conditions := ← data.get? "when"
             consequence := ← data.get? "then"
             span := ← data.get? "span" }

/-- An import is its target, or a record of the target and a place. -/
instance : OfPlain ImportDecl where
  ofPlain?
    | .text target => some (.ofText target)
    | data => do return .ofText (← data.get? "import") (← data.get? "span")

/-- An import of a function is read from its holder, name and place. -/
instance : OfPlain FunctionImportDecl where
  ofPlain? data := do return ⟨← data.at? 0, ← data.at? 1, ← data.at? 2⟩

/-- A global is read from its name, type and place. -/
instance : OfPlain GlobalDecl where
  ofPlain? data := do return ⟨← data.at? 0, ← data.at? 1, ← data.at? 2⟩

/-- A function is read by its field names. -/
instance : OfPlain FunctionDecl where
  ofPlain? data := do
    return { name := ← data.get? "name", params := ← data.get? "params",
             returnType := ← data.get? "ret", body := ← data.get? "body",
             span := ← data.get? "span" }

/-- A package is read by its field names. -/
instance : OfPlain PackageDecl where
  ofPlain? data := do
    return { name := ← data.get? "name"
             imports := ← data.get? "imports"
             functionImports := ← data.get? "function_imports"
             globals := ← data.get? "globals"
             functions := ← data.get? "functions"
             rules := ← data.get? "rules" }

end Rete
