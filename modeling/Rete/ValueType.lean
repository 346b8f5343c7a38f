import Rete.Text.Split

/-!
# Types of values

The types that are inferred for expressions and declared for fields, globals and parameters.
`ValueType.accepts` is the one relation on them: which values may be stored where a type is
expected.
-/

namespace Rete

/-- The type of a value. -/
inductive ValueType where
  | nil
  | bool
  | int
  | float
  | string
  | list (element : ValueType)
  /-- Instances of a catalog type, by its full name. -/
  | object (typeName : String)
  /-- Nothing is known statically; every value belongs to it. -/
  | any
  deriving DecidableEq, Inhabited, Repr

namespace ValueType

/-- The written form. -/
def text : ValueType → String
  | nil => "nil"
  | bool => "bool"
  | int => "int"
  | float => "float"
  | string => "string"
  | list element => "list<" ++ element.text ++ ">"
  | object typeName => typeName
  | any => "any"

/-- Whether a value of the second type can be stored where the first is expected: `any` goes
with everything, integers widen to floats, nil stands for strings, lists and objects, and
lists agree if their elements do. -/
def accepts : ValueType → ValueType → Bool
  | any, _ | _, any => true
  | float, int => true
  | string, nil | list _, nil | object _, nil => true
  | list first, list second => first.accepts second
  | expected, actual => expected == actual

/-- Arithmetic takes values of the type. -/
def isNumeric : ValueType → Bool
  | int | float => true
  | _ => false

/-- The built-in type with a given name, if there is one; the package in front of a name from
the usual library packages is passed over. -/
def ofBuiltinName? (name : String) : Option ValueType :=
  let short :=
    match Text.dropLeading? "java.lang." name with
    | some rest => rest
    | none => (Text.dropLeading? "java.util." name).getD name
  match short with
  | "boolean" | "Boolean" | "bool" => some bool
  | "int" | "Integer" | "long" | "Long" | "short" | "Short" | "Int" => some int
  | "double" | "Double" | "float" | "Float" | "Number" => some float
  | "String" | "CharSequence" => some string
  | "List" | "ArrayList" | "LinkedList" | "Collection" => some (list any)
  | "Object" | "Any" => some any
  | "void" | "Void" | "Nil" => some nil
  | _ => none

end ValueType

end Rete
