import Rete.Operator
import Rete.Text.Split

/-!
# Declarations

What a parser of rule text hands over: packages of imports, globals, functions and rules, with
every name as it was written. Nothing is resolved yet; `Rete.Compile` turns declarations into
compiled rules.
-/

namespace Rete

/-- A span of rule text; line and column of its start are counted from one, and the default
stands for an unknown place. -/
structure Span where
  start : Nat := 0
  stop : Nat := 0
  line : Nat := 0
  column : Nat := 0
  deriving DecidableEq, Inhabited

namespace Span

/-- The place of a line and column, without extent. -/
def point (line column : Nat) : Span := { line, column }

/-- The span from the start of the first to the end of the second. -/
def join (first second : Span) : Span := { first with stop := second.stop }

/-- The place as messages give it: line and column. -/
def text (span : Span) : String := toString span.line ++ ":" ++ toString span.column

end Span

/-- An expression as written. -/
inductive Term where
  | literal (value : Value)
  /-- A variable, a field of the pattern under test, a global, or the head of a type path. -/
  | name (name : String)
  /-- A field of an object, or a constant when the target names a type. -/
  | field (target : Term) (field : String)
  | call (name : String) (args : List Term)
  /-- A method, or a static function when the target names a type. -/
  | method (target : Term) (method : String) (args : List Term)
  /-- A new instance with the values of its fields in the order of declaration. -/
  | construct (typeName : String) (args : List Term)
  | binary (op : BinaryOp) (left right : Term)
  | unary (op : UnaryOp) (operand : Term)
  deriving Inhabited

namespace Term

/-- A dotted path: a name and field accesses after it. -/
def path (dotted : String) : Term :=
  match Text.split '.' dotted with
  | [] => name ""
  | head :: fields => fields.foldl field (name head)

end Term

/-- A statement of a consequence. -/
inductive Statement where
  | eval (e : Term)
  /-- Introduces a variable. -/
  | bind (name : String) (value : Term)
  | insert (fact : Term)
  /-- Sets fields of the fact that a variable is bound to. -/
  | modify (var : String) (assignments : List (String × Term))
  | retract (var : String)
  | setGlobal (name : String) (value : Term)
  | halt
  deriving Inhabited

/-- A constraint inside a pattern. -/
inductive Constraint where
  /-- Binds a variable to a field. -/
  | bind (var field : String)
  | test (condition : Term)
  deriving Inhabited

/-- A pattern for facts of a type. -/
structure PatternDecl where
  typeName : String
  /-- The variable that is bound to the matched fact. -/
  binding : Option String := none
  constraints : List Constraint := []
  span : Span := {}
  deriving Inhabited

/-- A condition of a rule. -/
inductive ConditionDecl where
  | pattern (pattern : PatternDecl)
  /-- No fact may match the pattern. -/
  | absent (pattern : PatternDecl)
  /-- A test of the facts matched so far. -/
  | eval (condition : Term)
  deriving Inhabited

/-- A rule as it is written. -/
structure RuleDecl where
  /-- The name, unique in its package. -/
  name : String
  /-- The priority; higher fires first. -/
  salience : Int := 0
  /-- The rule's own consequence does not make it match again. -/
  noLoop : Bool := false
  /-- A rule that is not enabled is compiled, but never matches. -/
  enabled : Bool := true
  conditions : List ConditionDecl := []
  consequence : List Statement := []
  span : Span := {}
  deriving Inhabited

/-- The import of a type under its simple name, or of everything inside a package or type. -/
inductive ImportDecl where
  | type (name : String) (span : Span)
  | wildcard (package : String) (span : Span)
  deriving DecidableEq, Inhabited

namespace ImportDecl

/-- Reads what stands after the keyword: a wildcard import ends in `.*`. -/
def ofText (target : String) (span : Span := {}) : ImportDecl :=
  match Text.dropTrailing? ".*" target with
  | some package => wildcard package span
  | none => type target span

/-- Where the import stands. -/
def span : ImportDecl → Span
  | type _ span | wildcard _ span => span

end ImportDecl

/-- The import of static functions of a type. -/
structure FunctionImportDecl where
  holder : String
  /-- The function, or `none` for all of them. -/
  function : Option String
  span : Span := {}
  deriving DecidableEq, Inhabited

/-- The declaration of a global by name and written type. -/
structure GlobalDecl where
  name : String
  typeName : String
  span : Span := {}
  deriving DecidableEq, Inhabited

/-- A function of a package; its body is one expression. -/
structure FunctionDecl where
  name : String
  /-- The names of the parameters and of their types. -/
  params : List (String × String) := []
  returnType : String
  body : Term
  span : Span := {}
  deriving Inhabited

/-- A package as it is written, before any name in it is resolved. -/
structure PackageDecl where
  name : String
  imports : List ImportDecl := []
  functionImports : List FunctionImportDecl := []
  globals : List GlobalDecl := []
  functions : List FunctionDecl := []
  rules : List RuleDecl := []
  deriving Inhabited

end Rete
