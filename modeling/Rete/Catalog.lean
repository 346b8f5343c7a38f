import Rete.Error
import Rete.QualifiedName
import Rete.Value

/-!
# The catalog of types

Rules are compiled against a catalog of the fact types that the host application exposes: their
fields, static constants and static functions. A nested type is registered under a dotted name
below the type that encloses it.

A static function has a signature (`Native`), which compiled expressions refer to and compare,
and a host function behind it, which computes. Full names of types are unique in a catalog, and
`Catalog.call` finds the host function of a signature.
-/

namespace Rete

/-- A declared field. -/
structure FieldDef where
  name : String
  type : ValueType
  /-- The value of the field in an instance made without values. -/
  initial : Value
  deriving DecidableEq, Inhabited

namespace FieldDef

/-- The value that a field of a type starts with: false, zero or nil. -/
def initialFor : ValueType → Value
  | .bool => .bool false
  | .int => .int 0
  | .float => .float ⟨0⟩
  | _ => .nil

/-- A field that starts with the initial value of its type. -/
def ofType (name : String) (type : ValueType) : FieldDef := ⟨name, type, initialFor type⟩

end FieldDef

/-- The fields of a type, in the order of declaration. -/
structure RecordType where
  name : QualifiedName
  fields : List FieldDef := []
  deriving DecidableEq, Inhabited

namespace RecordType

/-- The dotted name by which the catalog knows the type. -/
def fullName (type : RecordType) : String := type.name.text

/-- The type of instances. -/
def valueType (type : RecordType) : ValueType := .object type.fullName

/-- The first field of a name. -/
def field? (type : RecordType) (name : String) : Option FieldDef :=
  type.fields.find? fun field => field.name == name

/-- The instance with every field at its initial value. -/
def initialObject (type : RecordType) : Object :=
  .ofFields type.fullName (type.fields.map fun field => (field.name, field.initial))

/-- Sets fields to values in the order of declaration; each value has to fit its field. -/
def assign (o : Object) : List FieldDef → List Value → Except Error Object
  | field :: fields, value :: values =>
    if field.type.accepts value.type then assign (o.set field.name value) fields values
    else .error (Cause.typeMismatch field.type value.type : Error)
  | _, _ => .ok o

/-- The instance with the given values, one for each field. -/
def instantiate (type : RecordType) (values : List Value) : Except Error Object :=
  if values.length = type.fields.length then assign ⟨type.fullName, []⟩ type.fields values
  else
    .error (Cause.arityMismatch ("new " ++ type.fullName) type.fields.length values.length : Error)

end RecordType

/-- The signature of a static function. -/
structure Native where
  /-- The type that declares the function. -/
  holder : QualifiedName
  name : String
  params : List ValueType
  returns : ValueType
  deriving DecidableEq, Inhabited

namespace Native

/-- The dotted name under which the function is imported. -/
def qualifiedName (function : Native) : String := function.holder.text ++ "." ++ function.name

/-- The signature as messages show it. -/
def text (function : Native) : String :=
  Value.enclose (function.qualifiedName ++ "(") ")" (function.params.map ValueType.text) ++
    " -> " ++ function.returns.text

end Native

/-- A static function: its signature and the host function that computes it. -/
structure HostFunction extends Native where
  host : List Value → Except Error Value

/-- Calls a host function with as many arguments as it has parameters. -/
def HostFunction.call (function : HostFunction) (args : List Value) : Except Error Value :=
  if args.length = function.params.length then function.host args
  else
    .error (Cause.arityMismatch function.qualifiedName function.params.length args.length : Error)

/-- A fact type: fields, static constants and static functions. -/
structure TypeDef extends RecordType where
  constants : SortedMap String Value := ∅
  functions : List HostFunction := []

namespace TypeDef

/-- The value of a static constant. -/
def constant? (type : TypeDef) (name : String) : Option Value := type.constants.find? name

/-- All overloads of a name. -/
def functionsNamed (type : TypeDef) (name : String) : List HostFunction :=
  type.functions.filter fun function => function.name == name

end TypeDef

/-- The types that rules can use, by full name. -/
structure Catalog where
  types : SortedMap String TypeDef := ∅

/-- The catalog without types or functions. -/
instance : Inhabited Catalog := ⟨{}⟩

namespace Catalog

/-- The type of a full name. -/
def get? (catalog : Catalog) (fullName : String) : Option TypeDef := catalog.types.find? fullName

/-- A type of this full name is registered. -/
def contains (catalog : Catalog) (fullName : String) : Bool := catalog.types.contains fullName

/-- The number of registered types. -/
def size (catalog : Catalog) : Nat := catalog.types.size

/-- Adds a type; its full name has to be new. -/
def register (catalog : Catalog) (type : TypeDef) : Except Error Catalog :=
  if catalog.contains type.fullName then
    .error (Cause.duplicateDefinition type.fullName : Error)
  else .ok ⟨catalog.types.insert type.fullName type⟩

/-- The types declared directly inside a package or type, in the order of their names. -/
def typesIn (catalog : Catalog) (package : String) : List TypeDef :=
  let depth := (QualifiedName.ofText package).segments.length + 1
  (catalog.types.entries.filter fun (name, type) =>
    (package ++ ".").toList.isPrefixOf name.toList && type.name.segments.length == depth).map
    Prod.snd

/-- The host function of a signature. -/
def host? (catalog : Catalog) (native : Native) : Option HostFunction := do
  let type ← catalog.get? native.holder.text
  type.functions.find? fun function => function.toNative == native

/-- Calls a static function by its signature. -/
def call (catalog : Catalog) (native : Native) (args : List Value) : Except Error Value :=
  match catalog.host? native with
  | some function => function.call args
  | none => .error (Cause.unknownType native.holder.text : Error)

end Catalog

end Rete
