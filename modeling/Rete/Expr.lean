import Rete.Catalog
import Rete.Method

/-!
# Compiled expressions and actions

Expressions in which every name has been resolved: variables are positions in the tuple of
matched facts or slots of a frame, functions are signatures of host functions or indices into
the function table of a package. Equality of expressions is structural; the matching network
shares tests that are equal.

The three flags `Expr.readsTuple`, `Expr.readsCurrent` and `Expr.callsLocal` say what the value
of an expression can depend on.
-/

namespace Rete

/-- The types of the parameters and of the result of a function. -/
structure Signature where
  params : List ValueType
  returns : ValueType
  deriving DecidableEq, Inhabited

/-- What a call runs. -/
inductive Callee where
  /-- A static function of a catalog type. -/
  | native (native : Native)
  /-- A function of the package, by its index in the function table. -/
  | localFunction (index : Nat)
  deriving DecidableEq, Inhabited

/-- A compiled expression. -/
inductive Expr where
  | const (value : Value)
  /-- A slot of the frame: a variable of the consequence or a parameter. -/
  | slot (index : Nat)
  /-- The fact at an index of the tuple. -/
  | fact (index : Nat)
  /-- A field of the fact at an index of the tuple. -/
  | factField (index : Nat) (field : String)
  /-- A field of the fact under test. -/
  | currentField (field : String)
  | global (name : String)
  /-- A field of the object that an expression yields. -/
  | field (target : Expr) (field : String)
  | call (name : String) (callee : Callee) (args : List Expr)
  | method (receiver : Expr) (method : Method) (args : List Expr)
  /-- A change of the list held in a global. -/
  | updateGlobal (global : String) (update : ListUpdate) (args : List Expr)
  /-- A new instance of a type. -/
  | construct (type : RecordType) (args : List Expr)
  | binary (op : BinaryOp) (left right : Expr)
  | unary (op : UnaryOp) (operand : Expr)
  deriving Inhabited

namespace Expr

/-! ## Equality -/

mutual

/-- Structural equality. -/
def beq : Expr → Expr → Bool
  | const a, const b => a == b
  | slot a, slot b => a == b
  | fact a, fact b => a == b
  | factField i f, factField j g => i == j && f == g
  | currentField f, currentField g => f == g
  | global a, global b => a == b
  | field a f, field b g => beq a b && f == g
  | call n c as, call m d bs => n == m && c == d && beqArgs as bs
  | method a m as, method b n bs => beq a b && m == n && beqArgs as bs
  | updateGlobal a u as, updateGlobal b v bs => a == b && u == v && beqArgs as bs
  | construct a as, construct b bs => a == b && beqArgs as bs
  | binary o a b, binary p c d => o == p && beq a c && beq b d
  | unary o a, unary p b => o == p && beq a b
  | _, _ => false

/-- Structural equality of argument lists. -/
def beqArgs : List Expr → List Expr → Bool
  | [], [] => true
  | a :: as, b :: bs => beq a b && beqArgs as bs
  | _, _ => false

end

mutual

private theorem beq_self : (e : Expr) → beq e e = true
  | const _ | slot _ | fact _ | factField _ _ | currentField _ | global _ => by simp [beq]
  | field a _ => by simp [beq, beq_self a]
  | call _ _ as => by simp [beq, beqArgs_self as]
  | method a _ as => by simp [beq, beq_self a, beqArgs_self as]
  | updateGlobal _ _ as => by simp [beq, beqArgs_self as]
  | construct _ as => by simp [beq, beqArgs_self as]
  | binary _ a b => by simp [beq, beq_self a, beq_self b]
  | unary _ a => by simp [beq, beq_self a]

private theorem beqArgs_self : (as : List Expr) → beqArgs as as = true
  | [] => rfl
  | a :: as => by simp [beqArgs, beq_self a, beqArgs_self as]

end

private theorem eq_of_beq_and_beqArgs :
    (∀ a b : Expr, beq a b = true → a = b) ∧ (∀ as bs, beqArgs as bs = true → as = bs) := by
  apply beq.mutual_induct <;> intros <;> simp_all [beq, beqArgs]

/-- Equality is decided by the comparison of the trees. -/
instance : DecidableEq Expr := fun a b =>
  decidable_of_iff (beq a b = true) ⟨eq_of_beq_and_beqArgs.1 a b, fun same => same ▸ beq_self a⟩

/-! ## What a value depends on -/

mutual

/-- Whether the expression or one inside it satisfies a test. -/
def any (test : Expr → Bool) : Expr → Bool
  | e@(const _) | e@(slot _) | e@(fact _) | e@(factField _ _) | e@(currentField _)
  | e@(global _) => test e
  | e@(field target _) => test e || target.any test
  | e@(call _ _ args) => test e || anyArg test args
  | e@(method receiver _ args) => test e || receiver.any test || anyArg test args
  | e@(updateGlobal _ _ args) => test e || anyArg test args
  | e@(construct _ args) => test e || anyArg test args
  | e@(binary _ left right) => test e || left.any test || right.any test
  | e@(unary _ operand) => test e || operand.any test

/-- Whether one of the arguments or an expression inside one satisfies a test. -/
def anyArg (test : Expr → Bool) : List Expr → Bool
  | [] => false
  | arg :: args => arg.any test || anyArg test args

end

/-- Whether the expression reads facts that earlier patterns matched. Such tests join; all
others look at one fact only. -/
def readsTuple (e : Expr) : Bool :=
  e.any fun
    | fact _ | factField _ _ => true
    | _ => false

/-- Whether the expression reads the fact under test. -/
def readsCurrent (e : Expr) : Bool :=
  e.any fun
    | currentField _ => true
    | _ => false

/-- Whether the expression calls a function of the package, so that it has a meaning only
together with a function table. -/
def callsLocal (e : Expr) : Bool :=
  e.any fun
    | call _ (.localFunction _) _ => true
    | _ => false

end Expr

/-! ## Actions and functions -/

/-- One step of a consequence. -/
inductive Action where
  /-- Evaluates an expression for its effect. -/
  | eval (e : Expr)
  /-- Stores a value in a slot of the frame. -/
  | bind (slot : Nat) (value : Expr)
  | insert (fact : Expr)
  /-- Sets fields of the fact at an index of the tuple; all values are computed first. -/
  | modify (index : Nat) (var : String) (assignments : List (String × Expr))
  | retract (index : Nat) (var : String)
  | setGlobal (name : String) (value : Expr)
  /-- Ends the firing loop after this consequence. -/
  | halt
  deriving DecidableEq, Inhabited

/-- What a rule does when it fires. -/
structure Consequence where
  actions : List Action := []
  /-- The number of frame slots that the actions use. -/
  frameSize : Nat := 0
  deriving DecidableEq, Inhabited

/-- A compiled function of a package; its parameters are the first slots of its frame. -/
structure FunctionBody where
  name : String
  signature : Signature
  body : Expr
  frameSize : Nat
  deriving DecidableEq, Inhabited

/-- The compiled functions of a package; calls refer to them by index. -/
structure FunctionTable where
  package : String
  functions : List FunctionBody := []
  deriving DecidableEq, Inhabited

end Rete
