import Rete.Operator
import Rete.Text.Case

/-!
# Methods

The methods that every value, every string or every list has, and the two calls that change a
list held in a global. For a method, `Method.lookup?` decides by name and static receiver type
whether there is one, `Method.params` and `Method.returnType` give its types, and
`Method.invoke` computes.
-/

namespace Rete

/-- A method that reads its receiver. -/
inductive Method where
  | equals
  | toString
  | length
  | size
  | isEmpty
  | contains
  | get
  | toUpperCase
  | toLowerCase
  | startsWith
  | endsWith
  | concat
  deriving DecidableEq, Inhabited, Repr

namespace Method

/-- The method as it is written. -/
def name : Method → String
  | equals => "equals"
  | toString => "toString"
  | length => "length"
  | size => "size"
  | isEmpty => "isEmpty"
  | contains => "contains"
  | get => "get"
  | toUpperCase => "toUpperCase"
  | toLowerCase => "toLowerCase"
  | startsWith => "startsWith"
  | endsWith => "endsWith"
  | concat => "concat"

/-- The method of a name for receivers of a static type. A receiver of type `any` may turn out
to be a string or a list. -/
def lookup? (name : String) (receiver : ValueType) : Option Method :=
  let stringy := receiver == .string || receiver == .any
  let listy := match receiver with
    | .list _ | .any => true
    | _ => false
  let available (condition : Bool) (method : Method) := if condition then some method else none
  match name with
  | "equals" => some equals
  | "toString" => some toString
  | "length" => available stringy length
  | "size" => available listy size
  | "isEmpty" => available (stringy || listy) isEmpty
  | "contains" => available (stringy || listy) contains
  | "get" => available listy get
  | "toUpperCase" => available stringy toUpperCase
  | "toLowerCase" => available stringy toLowerCase
  | "startsWith" => available stringy startsWith
  | "endsWith" => available stringy endsWith
  | "concat" => available stringy concat
  | _ => none

/-- The types of the parameters. -/
def params : Method → List ValueType
  | equals | contains => [.any]
  | get => [.int]
  | startsWith | endsWith | concat => [.string]
  | toString | length | size | isEmpty | toUpperCase | toLowerCase => []

/-- The type of the result for receivers of a static type. -/
def returnType (method : Method) (receiver : ValueType) : ValueType :=
  match method with
  | equals | isEmpty | contains | startsWith | endsWith => .bool
  | length | size => .int
  | toString | toUpperCase | toLowerCase | concat => .string
  | get => match receiver with
    | .list element => element
    | _ => .any

/-- The element at an index, counted from zero. -/
def elementAt (items : List Value) (index : Int64) : Except Error Value :=
  let found := if index.toInt < 0 then none else items[index.toInt.toNat]?
  match found with
  | some item => .ok item
  | none => .error (Cause.indexOutOfBounds index items.length : Error)

/-- A count as an integer value. -/
def count (n : Nat) : Value := .int (Int64.ofNat n)

/-- Whether the first text occurs somewhere in the second. -/
def occursIn (part : List Char) : List Char → Bool
  | [] => part.isEmpty
  | c :: rest => part.isPrefixOf (c :: rest) || occursIn part rest

/-- Applies a method to its receiver and arguments. A receiver of a kind that does not have the
method is an error, as is an argument that should be a string and is not. -/
def invoke (method : Method) (receiver : Value) (args : List Value) : Except Error Value :=
  let undefined : Except Error Value :=
    .error (Cause.undefinedMethod method.name receiver.type : Error)
  let withString (use : String → Value) (argument : Value) : Except Error Value :=
    match argument with
    | .string s => .ok (use s)
    | other => .error ((Value.mismatch .string other).withContext (.mk none none [method.name]))
  match method, receiver, args with
  | equals, receiver, [other] => .ok (.bool (receiver == other))
  | toString, receiver, [] => .ok (.string receiver.text)
  | length, .string s, [] => .ok (count s.length)
  | size, .list items, [] => .ok (count items.length)
  | isEmpty, .string s, [] => .ok (.bool s.isEmpty)
  | isEmpty, .list items, [] => .ok (.bool items.isEmpty)
  | contains, .string s, [part] =>
    withString (fun part => .bool (occursIn part.toList s.toList)) part
  | contains, .list items, [item] => .ok (.bool (items.contains item))
  | get, .list items, [index] =>
    match index with
    | .int index => elementAt items index
    | other => .error (Value.mismatch .int other)
  | toUpperCase, .string s, [] => .ok (.string (Text.toUpper s))
  | toLowerCase, .string s, [] => .ok (.string (Text.toLower s))
  | startsWith, .string s, [part] =>
    withString (fun part => .bool (part.toList.isPrefixOf s.toList)) part
  | endsWith, .string s, [part] =>
    withString (fun part => .bool (part.toList.isSuffixOf s.toList)) part
  | concat, .string s, [other] => withString (fun other => .string (s ++ other)) other
  | _, _, _ =>
    if args.length = method.params.length then undefined
    else .error (Cause.arityMismatch method.name method.params.length args.length : Error)

end Method

/-- A call that changes a list held in a global. -/
inductive ListUpdate where
  | add
  | clear
  deriving DecidableEq, Inhabited, Repr

namespace ListUpdate

/-- The method name by which an expression calls for the update. -/
def name : ListUpdate → String
  | add => "add"
  | clear => "clear"

/-- The update that a method name calls for. -/
def lookup? : String → Option ListUpdate
  | "add" => some add
  | "clear" => some clear
  | _ => none

/-- The number of arguments. -/
def arity : ListUpdate → Nat
  | add => 1
  | clear => 0

/-- The type of what the update gives: whether it added, or nothing. -/
def returnType : ListUpdate → ValueType
  | add => .bool
  | clear => .nil

/-- The list after the call, and the value of the call. -/
def apply (update : ListUpdate) (current : Value) (args : List Value) :
    Except Error (Value × Value) :=
  match update, args, current with
  | add, [item], .list items => .ok (.list (items ++ [item]), .bool true)
  | clear, [], .list _ => .ok (.list [], .nil)
  | update, args, current =>
    if args.length = update.arity then .error (Value.mismatch (.list .any) current)
    else .error (Cause.arityMismatch update.name update.arity args.length : Error)

end ListUpdate

end Rete
