import Rete.Compile.Package
import Rete.Plain.Declaration
import Rete.Plain.Problem

/-!
# Plain form of compiled rules

Descriptions of compiled expressions, actions, rules and functions, for tools that show what a
package was compiled to.
-/

namespace Rete

/-- A dotted name is the list of its segments. -/
instance : ToPlain QualifiedName := ⟨fun name => plain name.segments⟩

/-- The function that a call resolved to, by index or by dotted name. -/
def Callee.toPlain : Callee → Plain
  | .localFunction index => .record [("local", plain index)]
  | .native function => .record [("native", plain function.text)]

mutual

/-- A compiled expression as a list with the name of its form in front. -/
def Expr.toPlain : Expr → Plain
  | .const value => .list [.text "const", plain value]
  | .slot index => .list [.text "local", plain index]
  | .fact index => .list [.text "fact", plain index]
  | .factField index name => .list [.text "fact_field", plain index, .text name]
  | .currentField name => .list [.text "current", .text name]
  | .global name => .list [.text "global", .text name]
  | .field target name => .list [.text "field", target.toPlain, .text name]
  | .call name callee args =>
    .list [.text "call", .text name, callee.toPlain, .list (Expr.toPlainArgs args)]
  | .method receiver called args =>
    .list [.text "method", receiver.toPlain, .text called.name, .list (Expr.toPlainArgs args)]
  | .updateGlobal name update args =>
    .list [.text "mutate", .text name, .text update.name, .list (Expr.toPlainArgs args)]
  | .construct type args => .list [.text "new", .text type.fullName, .list (Expr.toPlainArgs args)]
  | .binary op left right => .list [.text "bin", .text op.symbol, left.toPlain, right.toPlain]
  | .unary op operand => .list [.text "un", .text op.symbol, operand.toPlain]

/-- The arguments, in order. -/
def Expr.toPlainArgs : List Expr → List Plain
  | [] => []
  | arg :: rest => arg.toPlain :: Expr.toPlainArgs rest

end

/-- Expressions are written by their forms. -/
instance : ToPlain Expr := ⟨Expr.toPlain⟩

/-- An action is written with its name in front. -/
instance : ToPlain Action where
  plain
    | .eval e => plain ("eval", e)
    | .bind slot value => plain ("let", slot, value)
    | .insert fact => plain ("insert", fact)
    | .modify index var assignments => plain ("modify", index, var, assignments)
    | .retract index var => plain ("retract", index, var)
    | .setGlobal name value => plain ("setGlobal", name, value)
    | .halt => plain ["halt"]

/-- A consequence is written with the size of its frame. -/
instance : ToPlain Consequence where
  plain consequence := .record
    [("frame", plain consequence.frameSize), ("actions", plain consequence.actions)]

/-- A condition is written with the number that its pattern has in the rule. -/
instance : ToPlain Condition where
  plain
    | .pattern pattern => .record
      [("type", plain pattern.type.fullName), ("alpha", plain pattern.alpha),
        ("beta", plain pattern.beta), ("negated", plain pattern.negated),
        ("index", plain pattern.index), ("span", plain pattern.span)]
    | .eval test => .record [("eval", plain test)]

/-- A rule is written with what the compiler computed of it. -/
instance : ToPlain Rule where
  plain rule := .record
    [("name", plain rule.qualifiedName), ("salience", plain rule.salience),
      ("no_loop", plain rule.noLoop), ("enabled", plain rule.enabled),
      ("arity", plain rule.arity), ("patterns", plain rule.patterns.length),
      ("conditions", plain rule.conditions), ("frame", plain rule.consequence.frameSize),
      ("actions", plain rule.consequence.actions),
      ("functions", plain (rule.functions.package, rule.functions.functions.length)),
      ("span", plain rule.span)]

/-- A compiled function is written with its signature. -/
instance : ToPlain FunctionBody where
  plain function := .record
    [("name", plain function.name), ("params", plain function.signature.params),
      ("ret", plain function.signature.returns), ("body", plain function.body),
      ("frame", plain function.frameSize)]

/-- A package is written with its scope and its compiled rules. -/
instance : ToPlain Package where
  plain package := .record
    [("name", plain package.name), ("package", plain package.scope.table.package.text),
      ("functions", plain package.scope.functions.functions),
      ("globals", plain package.scope.table.globals.entries),
      ("declared", plain (package.scope.table.declared.map Prod.fst)),
      ("rules", plain package.rules)]

/-- The name of an origin in outputs. -/
def BindingOrigin.name : BindingOrigin → String
  | declared => "Local"
  | namedImport => "StaticImport"
  | wildcardImport => "WildcardImport"

/-- A callable is written with where it comes from and what it takes. -/
instance : ToPlain CallableRef where
  plain callable := .record
    [("name", plain callable.name), ("origin", plain callable.origin.name),
      ("holder", plain (callable.holder?.map QualifiedName.text)),
      ("params", plain callable.signature.params), ("ret", plain callable.signature.returns),
      ("text", plain callable.text),
      ("local", match callable.callee with
        | .localFunction index => plain index
        | .native _ => .null)]

end Rete
