import Rete.Diagnostic

/-!
# Choice of an overload

Of the functions of one name, a call runs the one whose parameters have exactly the types of
the arguments; failing that, the only one whose parameters accept them. An argument of type
`any` is never an exact match.
-/

namespace Rete

/-- A function that a call may mean: its parameters, and how messages show it. -/
structure Candidate where
  params : List ValueType
  label : String
  deriving DecidableEq, Inhabited

namespace Candidate

/-- The parameters are the argument types, all of them known. -/
def exact (candidate : Candidate) (args : List ValueType) : Bool :=
  (candidate.params.zip args).all fun (param, arg) => param == arg && arg != .any

/-- The parameters accept the argument types. -/
def compatible (candidate : Candidate) (args : List ValueType) : Bool :=
  (candidate.params.zip args).all fun (param, arg) => param.accepts arg

end Candidate

/-- The index of the candidate that a call with the given argument types means. -/
def selectOverload (name : String) (candidates : List Candidate) (args : List ValueType) :
    Except Diagnostic Nat :=
  let ambiguous (picks : List (Candidate × Nat)) : Except Diagnostic Nat :=
    .error (.ambiguous name (picks.map fun pick => pick.1.label))
  match candidates.zipIdx.filter fun pick => pick.1.params.length == args.length with
  | [] => .error (.noOverloadTakes name args.length)
  | fitting =>
    match fitting.filter fun pick => pick.1.exact args with
    | [pick] => .ok pick.2
    | pick :: picks => ambiguous (pick :: picks)
    | [] =>
      match fitting.filter fun pick => pick.1.compatible args with
      | [] => .error (.noOverloadAccepts name args)
      | [pick] => .ok pick.2
      | picks => ambiguous picks

end Rete
