import Rete.SymbolTable

/-!
# Variables in scope

What the variables of a rule or function stand for while it is compiled. Inside a pattern, a
field binding stands for a field of the fact under test; when the pattern ends it becomes a
field of the matched fact, or goes out of scope if the pattern matches no fact.
-/

namespace Rete

/-- What a variable stands for. -/
inductive Variable where
  /-- The fact at an index of the tuple. -/
  | fact (index : Nat) (type : RecordType)
  | factField (index : Nat) (field : String) (type : ValueType)
  /-- A field of the fact under test. -/
  | currentField (field : String) (type : ValueType)
  /-- A slot of the frame. -/
  | slot (index : Nat) (type : ValueType)
  deriving DecidableEq, Inhabited

/-- What a variable stands for after a pattern that matched the fact at an index, or none. -/
def Variable.leavePattern (index : Option Nat) : Variable → Option Variable
  | .currentField field type => index.map fun index => .factField index field type
  | other => some other

/-- The variables of a rule or function at one point of it. -/
structure Bindings where
  vars : SortedMap String Variable := ∅
  /-- The type of the pattern under test, whose fields can be named. -/
  current : Option RecordType := none
  /-- Whether expressions may change globals. -/
  mayUpdate : Bool := false
  /-- The number of frame slots in use. -/
  frameSize : Nat := 0
  deriving DecidableEq

/-- The scope in which no name is bound. -/
instance : Inhabited Bindings := ⟨{}⟩

namespace Bindings

/-- The name stands for a variable of the rule. -/
def isBound (bindings : Bindings) (name : String) : Bool := bindings.vars.contains name

/-- Binds a variable to the fact at an index of the tuple. -/
def bindFact (bindings : Bindings) (name : String) (index : Nat) (type : RecordType) :
    Bindings :=
  { bindings with vars := bindings.vars.insert name (.fact index type) }

/-- Starts a pattern for facts of a type. -/
def enterPattern (bindings : Bindings) (type : RecordType) : Bindings :=
  { bindings with current := some type }

/-- Binds a variable to a field of the fact under test. -/
def bindField (bindings : Bindings) (name field : String) : Except Diagnostic Bindings :=
  match bindings.current with
  | none => .error (.fieldBindingOutside name)
  | some type =>
    match type.field? field with
    | none => .error (.unknownField type.fullName field)
    | some declared =>
      let meaning := .currentField declared.name declared.type
      .ok { bindings with vars := bindings.vars.insert name meaning }

/-- Ends a pattern. -/
def leavePattern (bindings : Bindings) (index : Option Nat) : Bindings :=
  { bindings with
    current := none
    vars := bindings.vars.filterMap fun _ meaning => meaning.leavePattern index }

/-- Binds a variable to a new slot of the frame, which is returned. -/
def bindSlot (bindings : Bindings) (name : String) (type : ValueType) : Nat × Bindings :=
  (bindings.frameSize,
    { bindings with
      vars := bindings.vars.insert name (.slot bindings.frameSize type)
      frameSize := bindings.frameSize + 1 })

/-- The field of the pattern under test that a name means, if it means one. -/
def currentField? (bindings : Bindings) (name : String) : Option FieldDef := do
  (← bindings.current).field? name

end Bindings

end Rete
