import Rete.ValueType

/-!
# Errors of running rules

What can go wrong when facts are inserted, conditions are tested and consequences run. An
error is a cause, told apart by constructor, and optionally the place it came from; the
wording is in `Error.message` alone. Problems found while rules are compiled are not errors
of this kind; see `Rete.Diagnostic`.
-/

namespace Rete

/-- The identity of a fact in a session. -/
abbrev Handle : Type := Nat

/-- The written form of a handle. -/
def Handle.text (handle : Handle) : String := "f" ++ toString handle

/-- A configured limit that was reached. -/
inductive Limit where
  /-- The rule firings of one firing loop; `next` is the rule that would have fired. -/
  | activations (limit : Nat) (next : Option String)
  /-- The calls of local functions open at once; `function` is the one being entered. -/
  | callDepth (limit : Nat) (function : Option String)
  deriving DecidableEq, Inhabited

/-- The text of the error, which names the rule or function at the limit where one is known. -/
def Limit.message : Limit → String
  | activations limit next =>
    "max activations (" ++ toString limit ++ ") exceeded" ++
      (match next with
      | some rule => ": " ++ rule
      | none => "")
  | callDepth limit function =>
    "max call depth (" ++ toString limit ++ ") exceeded" ++
      (match function with
      | some name => " in " ++ name
      | none => "")

/-- Where an error happened. -/
structure ErrorContext where
  /-- The package or rule. -/
  source : Option String := none
  fact : Option Handle := none
  /-- The rules and functions that were being executed. -/
  frames : List String := []
  deriving DecidableEq, Inhabited

/-- Where the error arose, as its text tells it. -/
def ErrorContext.text (context : ErrorContext) : String :=
  (match context.source with
    | some source => "at " ++ source
    | none => "") ++
  (match context.fact with
    | some fact => " (" ++ fact.text ++ ")"
    | none => "") ++
  (if context.frames.isEmpty then ""
    else "\n" ++ String.join (context.frames.map fun frame => "  in " ++ frame ++ "\n"))

mutual

/-- Why an operation failed. -/
inductive Cause where
  | typeMismatch (expected actual : ValueType)
  | arityMismatch (name : String) (expected actual : Nat)
  | unknownFact (handle : Handle)
  | unknownType (name : String)
  | unknownField (typeName field : String)
  | unknownGlobal (name : String)
  | undefinedMethod (method : String) (receiver : ValueType)
  | duplicateDefinition (name : String)
  | divisionByZero
  | indexOutOfBounds (index : Int64) (length : Nat)
  /-- A consequence failed, which ended the firing loop. -/
  | consequenceFailure (rule : String) (source : Error)
  | limitExceeded (limit : Limit)
  | sessionDisposed
  | snapshotMismatch (message : String)
  | serialization (message : String)
  | io (message : String)
  /-- Something that compiled rules never do. -/
  | internal (message : String)

/-- A failed operation: the cause, and where it happened if that is known. -/
inductive Error where
  | mk (cause : Cause) (context : Option ErrorContext)

end

/-- The first cause stands for the others. -/
instance : Inhabited Cause := ⟨.divisionByZero⟩

/-- An error without context stands for the others. -/
instance : Inhabited Error := ⟨.mk default none⟩

namespace Error

/-- An error without a place. -/
@[match_pattern] abbrev of (cause : Cause) : Error := .mk cause none

/-- A cause is an error without context. -/
instance : Coe Cause Error := ⟨of⟩

/-- What went wrong. -/
def cause : Error → Cause
  | mk cause _ => cause

/-- Where it went wrong, if that was recorded. -/
def context : Error → Option ErrorContext
  | mk _ context => context

/-- The same cause, with its context replaced. -/
def withContext (error : Error) (context : ErrorContext) : Error := mk error.cause (some context)

/-- The rule whose consequence failed, for a failed consequence. -/
def failedRule? : Error → Option String
  | mk (.consequenceFailure rule _) _ => some rule
  | _ => none

/-- The error inside a failed consequence. -/
def source? : Error → Option Error
  | mk (.consequenceFailure _ source) _ => some source
  | _ => none

end Error

mutual

/-- The wording of a cause. -/
def Cause.message : Cause → String
  | .typeMismatch expected actual =>
    "type mismatch: expected " ++ expected.text ++ ", got " ++ actual.text
  | .arityMismatch name expected actual =>
    "arity mismatch calling " ++ name ++ ": expected " ++ toString expected ++ ", got " ++
      toString actual
  | .unknownFact handle => "unknown fact: " ++ handle.text
  | .unknownType name => "unknown type: " ++ name
  | .unknownField typeName field => "unknown field: " ++ field ++ " on " ++ typeName
  | .unknownGlobal name => "unknown global: " ++ name
  | .undefinedMethod method receiver => "undefined method: " ++ method ++ " on " ++ receiver.text
  | .duplicateDefinition name => "duplicate definition: " ++ name
  | .divisionByZero => "division by zero"
  | .indexOutOfBounds index length =>
    "index out of bounds: " ++ toString index.toInt ++ " (length " ++ toString length ++ ")"
  | .consequenceFailure rule source =>
    "consequence of rule '" ++ rule ++ "' failed: " ++ source.message
  | .limitExceeded limit => "limit exceeded: " ++ limit.message
  | .sessionDisposed => "session has been disposed"
  | .snapshotMismatch message => "snapshot mismatch: " ++ message
  | .serialization message => "serialization error: " ++ message
  | .io message => "io error: " ++ message
  | .internal message => "internal error: " ++ message

/-- The wording of an error is that of its cause; the place is told separately. -/
def Error.message : Error → String
  | .mk cause _ => cause.message

end

end Rete
