import Rete.Error
import Rete.Value

/-!
# Operators

The unary and binary operators of the rule language, with their typing rules and their effect
on values. Integers are 64 bits wide and wrap; floats follow IEEE 754; a sum with a string on
either side concatenates texts. The typing rules say which operand types an operator takes
and what it yields (`BinaryOp.resultType?`), `BinaryOp.apply` computes on values.
-/

namespace Rete

/-- The operators between two operands. -/
inductive BinaryOp where
  | add
  | sub
  | mul
  | div
  | rem
  | eq
  | ne
  | lt
  | le
  | gt
  | ge
  | and
  | or
  deriving DecidableEq, Inhabited, Repr

/-- The operators before one operand. -/
inductive UnaryOp where
  | not
  | neg
  deriving DecidableEq, Inhabited, Repr

/-- The operator as it is written. -/
def BinaryOp.symbol : BinaryOp → String
  | add => "+"
  | sub => "-"
  | mul => "*"
  | div => "/"
  | rem => "%"
  | eq => "=="
  | ne => "!="
  | lt => "<"
  | le => "<="
  | gt => ">"
  | ge => ">="
  | and => "&&"
  | or => "||"

/-- The name of the operator in messages. -/
def UnaryOp.name : UnaryOp → String
  | not => "Not"
  | neg => "Neg"

/-! ## Typing -/

namespace ValueType

/-- A number, or something that may turn out to be one. -/
def maybeNumeric (type : ValueType) : Bool := type.isNumeric || type == any

/-- A boolean, or something that may turn out to be one. -/
def maybeBool (type : ValueType) : Bool := type == bool || type == any

/-- The type of a sum, difference, product, quotient or remainder of numbers. -/
def arithmetic? (left right : ValueType) : Option ValueType :=
  if !(left.maybeNumeric && right.maybeNumeric) then none
  else if left == any || right == any then some any
  else if left == int && right == int then some int
  else some float

/-- Whether values of the two types have an order: numbers with numbers and strings with
strings. -/
def comparable (left right : ValueType) : Bool :=
  left.maybeNumeric && right.maybeNumeric ||
    (left == string && (right == string || right == any)) || (left == any && right == string)

end ValueType

/-- The type of an application, if the operator takes operands of these types. -/
def BinaryOp.resultType? (op : BinaryOp) (left right : ValueType) : Option ValueType :=
  match op with
  | add => if left == .string || right == .string then some .string else left.arithmetic? right
  | sub | mul | div | rem => left.arithmetic? right
  | eq | ne => some .bool
  | lt | le | gt | ge => if left.comparable right then some .bool else none
  | and | or => if left.maybeBool && right.maybeBool then some .bool else none

/-- The type of an application, if the operator takes an operand of this type. -/
def UnaryOp.resultType? (op : UnaryOp) (operand : ValueType) : Option ValueType :=
  match op with
  | not => if operand.maybeBool then some .bool else none
  | neg => if operand.maybeNumeric then some operand else none

/-! ## Computation -/

namespace Value

/-- A mismatch between an expected type and the type of a value. -/
def mismatch (expected : ValueType) (actual : Value) : Error :=
  Cause.typeMismatch expected actual.type

/-- The boolean a condition needs. -/
def truth (value : Value) : Except Error Bool :=
  match value with
  | bool b => .ok b
  | other => .error (mismatch .bool other)

/-- An operation on numbers: on integers, or on floats when either side is one. -/
def arithmetic (ints : Int64 → Int64 → Int64) (floats : Binary64 → Binary64 → Binary64)
    (left right : Value) : Except Error Value :=
  match left, right with
  | int a, int b => .ok (int (ints a b))
  | float a, float b => .ok (float (floats a b))
  | int a, float b => .ok (float (floats (.ofInt a) b))
  | float a, int b => .ok (float (floats a (.ofInt b)))
  | int _, other | float _, other | other, _ => .error (mismatch .float other)

/-- Equality as the operators see it: an integer and a float are compared as numbers, all
else structurally. -/
def equal (left right : Value) : Bool :=
  match left, right with
  | int a, float b | float b, int a => (Binary64.ofInt a).compare? b == some .eq
  | a, b => a == b

/-- The order of two numbers or two strings; `none` if one of them is NaN. -/
def compare? (left right : Value) : Except Error (Option Ordering) :=
  match left, right with
  | int a, int b => .ok (some (compare a.toInt b.toInt))
  | string a, string b => .ok (some (compare a b))
  | int a, float b => .ok ((Binary64.ofInt a).compare? b)
  | float a, int b => .ok (a.compare? (.ofInt b))
  | float a, float b => .ok (a.compare? b)
  | string _, other => .error (mismatch .string other)
  | int _, other | float _, other | other, _ => .error (mismatch .float other)

/-- A comparison; it is false when the operands are not comparable. -/
def ordered (holds : Ordering → Bool) (left right : Value) : Except Error Value := do
  let ordering ← compare? left right
  return bool (ordering.any holds)

/-- A quotient or remainder: integers cannot be divided by the integer zero. -/
def divide (ints : Int64 → Int64 → Int64) (floats : Binary64 → Binary64 → Binary64)
    (left right : Value) : Except Error Value :=
  match left, right with
  | int _, int 0 => .error (Cause.divisionByZero : Error)
  | _, _ => arithmetic ints floats left right

/-- A sum, or the texts of both sides one after the other if either is a string. -/
def add (left right : Value) : Except Error Value :=
  match left, right with
  | string a, b => .ok (string (a ++ b.text))
  | a, string b => .ok (string (a.text ++ b))
  | _, _ => arithmetic (· + ·) Binary64.add left right

end Value

/-- The value of an application. The right operand of `&&` and `||` is looked at only if the
left one leaves the result open. -/
def BinaryOp.apply (op : BinaryOp) (left right : Value) : Except Error Value :=
  match op with
  | add => Value.add left right
  | sub => Value.arithmetic (· - ·) Binary64.sub left right
  | mul => Value.arithmetic (· * ·) Binary64.mul left right
  | div => Value.divide (· / ·) Binary64.div left right
  | rem => Value.divide (· % ·) Binary64.rem left right
  | eq => .ok (.bool (left.equal right))
  | ne => .ok (.bool !(left.equal right))
  | lt => Value.ordered Ordering.isLT left right
  | le => Value.ordered Ordering.isLE left right
  | gt => Value.ordered Ordering.isGT left right
  | ge => Value.ordered Ordering.isGE left right
  | and => do
    if ← left.truth then return .bool (← right.truth)
    return .bool false
  | or => do
    if ← left.truth then return .bool true
    return .bool (← right.truth)

/-- The value of an application. -/
def UnaryOp.apply (op : UnaryOp) (operand : Value) : Except Error Value :=
  match op, operand with
  | not, .bool b => .ok (.bool !b)
  | neg, .int n => .ok (.int (-n))
  | neg, .float x => .ok (.float x.neg)
  | not, other => .error (Value.mismatch .bool other)
  | neg, other => .error (Value.mismatch .float other)

end Rete
