import Rete.Diagnostic
import Rete.Plain.Value

/-!
# Plain form of errors and diagnostics

Records of the kind of problem, its wording and its place. What went wrong inside a failed
consequence is told in the same form.
-/

namespace Rete

/-- The name of the kind of an error. -/
def Cause.kindName : Cause → String
  | typeMismatch .. => "TypeMismatch"
  | arityMismatch .. => "ArityMismatch"
  | unknownFact .. => "UnknownFact"
  | unknownType .. => "UnknownType"
  | unknownField .. => "UnknownField"
  | unknownGlobal .. => "UnknownGlobal"
  | undefinedMethod .. => "UndefinedMethod"
  | duplicateDefinition .. => "DuplicateDefinition"
  | divisionByZero => "DivisionByZero"
  | indexOutOfBounds .. => "IndexOutOfBounds"
  | consequenceFailure .. => "ConsequenceFailure"
  | limitExceeded .. => "LimitExceeded"
  | sessionDisposed => "SessionDisposed"
  | snapshotMismatch .. => "SnapshotMismatch"
  | serialization .. => "SerializationError"
  | io .. => "IoError"
  | internal .. => "Internal"

/-- The wording, unless it comes from outside of the library. -/
def Cause.plainMessage (cause : Cause) : List (String × Plain) :=
  match cause with
  | serialization _ | io _ => []
  | cause => [("message", .text cause.message)]

/-- The fields of a record of an error. -/
def Error.plainFields : Error → List (String × Plain)
  | .mk cause context =>
    [("error", .text cause.kindName)] ++ cause.plainMessage ++
      (match context with
        | some context => [("context", .text context.text)]
        | none => []) ++
      (match cause with
        | .consequenceFailure rule source =>
          [("rule", .text rule), ("source", .record source.plainFields)]
        | _ => [])

/-- An error is written with its kind, text and context. -/
instance : ToPlain Error := ⟨fun error => .record error.plainFields⟩

/-- The name of the kind of a diagnostic. -/
def DiagnosticKind.name : DiagnosticKind → String
  | duplicateImport => "DuplicateImport"
  | conflict => "Conflict"
  | unresolvedSymbol => "UnresolvedSymbol"
  | ambiguousSymbol => "AmbiguousSymbol"
  | unknownField => "UnknownField"
  | buildError => "BuildError"
  | typeMismatch => "TypeMismatch"
  | invalidExpression => "InvalidExpression"

/-- A diagnostic is written with its parts and its full text. -/
instance : ToPlain Diagnostic where
  plain problem := .record
    [("error", plain problem.kind.name), ("severity", plain problem.severity.text),
      ("package", plain problem.package), ("rule", plain problem.rule),
      ("message", plain problem.message), ("symbol", plain problem.symbol),
      ("span", plain problem.span), ("text", plain problem.text)]

/-- A result is a record of a single field `ok`, a failure the form of its problem. -/
instance {ε α : Type} [ToPlain ε] [ToPlain α] : ToPlain (Except ε α) where
  plain
    | .ok result => .record [("ok", plain result)]
    | .error problem => plain problem

end Rete
