import Rete.Declaration

/-!
# Diagnostics

Problems found while packages are compiled. They are collected, so that one run shows all of
them; a problem of severity error keeps a knowledge base from being built. Every wording is in
this module.
-/

namespace Rete

/-- Whether a finding stops the build. -/
inductive Severity where
  | warning
  | error
  deriving DecidableEq, Inhabited

/-- The word for the severity in the text of a diagnostic. -/
def Severity.text : Severity → String
  | warning => "warning"
  | error => "error"

/-- The kinds of problems. -/
inductive DiagnosticKind where
  /-- One short type name is imported from two places. -/
  | duplicateImport
  /-- One function name is imported from two types. -/
  | conflict
  /-- A name stands for nothing. -/
  | unresolvedSymbol
  /-- A name stands for more than one thing. -/
  | ambiguousSymbol
  /-- The type has no such field. -/
  | unknownField
  /-- The rule or package cannot be added. -/
  | buildError
  /-- An expression does not fit where it is used. -/
  | typeMismatch
  /-- An expression, statement or declaration is not allowed where it is. -/
  | invalidExpression
  deriving DecidableEq, Inhabited

/-- The words for the kind in the text of a diagnostic. -/
def DiagnosticKind.text : DiagnosticKind → String
  | duplicateImport => "duplicate import"
  | conflict => "conflicting import"
  | unresolvedSymbol => "unresolved symbol"
  | ambiguousSymbol => "ambiguous symbol"
  | unknownField => "unknown field"
  | buildError => "build error"
  | typeMismatch => "type mismatch"
  | invalidExpression => "invalid expression"

/-- One problem. -/
structure Diagnostic where
  severity : Severity := .error
  kind : DiagnosticKind
  package : Option String := none
  /-- The rule or function. -/
  rule : Option String := none
  message : String
  /-- The name that the problem is about. -/
  symbol : Option String := none
  span : Option Span := none
  deriving DecidableEq, Inhabited

namespace Diagnostic

/-- The finding stops the build. -/
def isError (diagnostic : Diagnostic) : Bool := diagnostic.severity == .error

/-- The same finding, which no longer stops the build. -/
def asWarning (diagnostic : Diagnostic) : Diagnostic := { diagnostic with severity := .warning }

/-- The finding, placed in a package. -/
def withPackage (diagnostic : Diagnostic) (package : String) : Diagnostic :=
  { diagnostic with package }

/-- The finding, placed in a rule. -/
def withRule (diagnostic : Diagnostic) (rule : String) : Diagnostic := { diagnostic with rule }

/-- The finding, together with the name it is about. -/
def withSymbol (diagnostic : Diagnostic) (symbol : String) : Diagnostic :=
  { diagnostic with symbol }

/-- Adds a known place, unless there is one already. -/
def withSpan (diagnostic : Diagnostic) (span : Span) : Diagnostic :=
  if diagnostic.span.isNone && span != {} then { diagnostic with span } else diagnostic

/-- The problem in one line: severity, kind, place and message. -/
def text (diagnostic : Diagnostic) : String :=
  diagnostic.severity.text ++ ": " ++ diagnostic.kind.text ++
    (match diagnostic.package, diagnostic.rule with
      | some package, some rule => " in " ++ package ++ "/" ++ rule
      | some owner, none | none, some owner => " in " ++ owner
      | none, none => "") ++
    (match diagnostic.span with
      | some span => " at " ++ span.text
      | none => "") ++
    ": " ++ diagnostic.message

/-! ## The problems -/

/-- A type error that is known before anything runs. -/
def mismatch (message : String) : Diagnostic := { kind := .typeMismatch, message }

/-- An expression that has no meaning where it stands. -/
def invalid (message : String) : Diagnostic := { kind := .invalidExpression, message }

/-- A declaration that does not fit those it is added to. -/
def build (message : String) : Diagnostic := { kind := .buildError, message }

/-- A name in single quotes. -/
def quoted (name : String) : String := "'" ++ name ++ "'"

/-- A number of arguments. -/
def arguments (count : Nat) : String := toString count ++ " argument(s)"

/-- A name that stands for nothing in scope; `what` says what was looked for. -/
def unresolved (what name : String) : Diagnostic :=
  { kind := .unresolvedSymbol
    message := "unable to resolve " ++ what ++ " " ++ quoted name
    symbol := name }

/-- A name that several imports give, which are listed. -/
def ambiguous (name : String) (candidates : List String) : Diagnostic :=
  { kind := .ambiguousSymbol
    message := quoted name ++ " is ambiguous: " ++ ", ".intercalate candidates
    symbol := name }

/-- A field that the type does not declare. -/
def unknownField (typeName field : String) : Diagnostic :=
  { kind := .unknownField
    message := "type " ++ quoted typeName ++ " has no field " ++ quoted field
    symbol := field }

/-! ### Imports and declarations -/

/-- A second import of one short name. -/
def duplicateImport (short existing imported : String) : Diagnostic :=
  { kind := .duplicateImport
    message := quoted short ++ " is already imported as " ++ quoted existing ++
      "; cannot also import " ++ quoted imported
    symbol := existing ++ ", " ++ imported }

/-- Two wildcard imports that give one short name different meanings. -/
def importConflict (name first second : String) : Diagnostic :=
  { kind := .conflict
    message := "function " ++ quoted name ++ " is imported from both " ++ quoted first ++ " and " ++
      quoted second
    symbol := name }

/-- A second function of one name in the package. -/
def functionRedeclared (name : String) : Diagnostic :=
  let message := "function " ++ quoted name ++ " is already declared with the same parameters"
  (invalid message).withSymbol name

/-- A global declared again, with another type. -/
def globalRedeclared (name : String) (declared : ValueType) : Diagnostic :=
  let message := "global " ++ quoted name ++ " is already declared as " ++ declared.text
  (invalid message).withSymbol name

/-- A function whose body has a type that its declared result does not accept. -/
def functionResult (name : String) (declared found : ValueType) : Diagnostic :=
  (mismatch ("function " ++ quoted name ++ " returns " ++ declared.text ++ ", but its body is " ++
    found.text)).withSymbol name

/-! ### Overloads -/

/-- No function of the name has this number of parameters. -/
def noOverloadTakes (name : String) (count : Nat) : Diagnostic :=
  (mismatch ("no overload of " ++ quoted name ++ " takes " ++ arguments count)).withSymbol name

/-- A function of the name has this number of parameters, but none accepts the arguments. -/
def noOverloadAccepts (name : String) (args : List ValueType) : Diagnostic :=
  (mismatch ("no overload of " ++ quoted name ++ " accepts (" ++
    ", ".intercalate (args.map ValueType.text) ++ ")")).withSymbol name

/-! ### Expressions -/

/-- An operator between operands of types it does not take. -/
def binaryOperands (op : BinaryOp) (left right : ValueType) : Diagnostic :=
  mismatch ("operator " ++ quoted op.symbol ++ " cannot be applied to " ++ left.text ++ " and " ++
    right.text)

/-- An operator before an operand of a type it does not take. -/
def unaryOperand (op : UnaryOp) (operand : ValueType) : Diagnostic :=
  mismatch ("operator " ++ op.name ++ " cannot be applied to " ++ operand.text)

/-- A test that is not a truth value. -/
def conditionType (found : ValueType) : Diagnostic :=
  mismatch ("condition must be a boolean, found " ++ found.text)

/-- The name of a type where a value is needed. -/
def typeAsValue (typeName : String) : Diagnostic :=
  (invalid ("type " ++ quoted typeName ++ " cannot be used as a value")).withSymbol typeName

/-- A field of something that has no fields. -/
def fieldOfNonObject (field : String) (owner : ValueType) : Diagnostic :=
  (mismatch ("cannot read field " ++ quoted field ++ " of " ++ owner.text)).withSymbol field

/-- A method called with the wrong number of arguments. -/
def methodArity (method : String) (expected found : Nat) : Diagnostic :=
  mismatch ("method " ++ quoted method ++ " takes " ++ arguments expected ++ ", found " ++
    toString found)

/-- An argument of a type that the method does not take. -/
def methodArgument (method : String) (expected found : ValueType) : Diagnostic :=
  (mismatch ("method " ++ quoted method ++ " expects " ++ expected.text ++ ", found " ++
    found.text)).withSymbol method

/-- A global that is changed elsewhere than in a consequence. -/
def globalUpdateInCondition (global update : String) : Diagnostic :=
  (invalid (quoted (global ++ "." ++ update) ++
    " changes a global and is only allowed in a consequence")).withSymbol global

/-- An update of a global that is not a list. -/
def globalUpdateReceiver (update global : String) (declared : ValueType) : Diagnostic :=
  (mismatch (quoted update ++ " needs a list receiver, but global " ++ quoted global ++ " is " ++
    declared.text)).withSymbol global

/-- An object written with too few or too many arguments. -/
def constructArity (typeName written : String) (expected found : Nat) : Diagnostic :=
  (mismatch ("new " ++ typeName ++ " takes " ++ arguments expected ++ ", found " ++
    toString found)).withSymbol written

/-- A value that the type of a field does not accept. -/
def fieldValue (field typeName : String) (declared found : ValueType) : Diagnostic :=
  (mismatch ("field " ++ quoted field ++ " of " ++ typeName ++ " is " ++ declared.text ++
    ", found " ++ found.text)).withSymbol field

/-! ### Bindings and statements -/

/-- A field bound where there is no pattern. -/
def fieldBindingOutside (name : String) : Diagnostic :=
  invalid ("field binding " ++ quoted name ++ " outside a pattern")

/-- A variable that a negated pattern would bind. -/
def boundInNegation (var : String) : Diagnostic :=
  (invalid (quoted var ++ " cannot be bound inside a negated pattern")).withSymbol var

/-- A variable that stands for no fact, where a fact is needed. -/
def notAFact (var : String) : Diagnostic :=
  (invalid (quoted var ++ " is not bound to a fact")).withSymbol var

/-- Something inserted that is not an object. -/
def insertOfNonObject (found : ValueType) : Diagnostic :=
  mismatch ("insert needs an object, found " ++ found.text)

/-- A value that the type of a global does not accept. -/
def globalValue (name : String) (declared found : ValueType) : Diagnostic :=
  (mismatch ("global " ++ quoted name ++ " is " ++ declared.text ++ ", found " ++
    found.text)).withSymbol name

/-! ### Rules and packages -/

/-- A second rule of one name in the package. -/
def ruleRedeclared (name : String) : Diagnostic :=
  build ("rule " ++ quoted name ++ " is declared more than once")

/-- A rule added to a knowledge base that has one of its name. -/
def rulePresent (qualifiedName : String) : Diagnostic :=
  build ("rule " ++ quoted qualifiedName ++ " is already in the network")

/-- A package added to a knowledge base that has one of its name. -/
def packagePresent (name : String) : Diagnostic :=
  build ("package " ++ quoted name ++ " is already part of the knowledge base")

/-- A global that two packages declare with different types. -/
def globalClash (name : String) (elsewhere here : ValueType) : Diagnostic :=
  (build ("global " ++ quoted name ++ " is declared as " ++ elsewhere.text ++ " elsewhere and " ++
    here.text ++ " here")).withSymbol name

end Diagnostic

/-- Whether one of the problems keeps a knowledge base from being built. -/
def hasErrors (diagnostics : List Diagnostic) : Bool := diagnostics.any Diagnostic.isError

end Rete
