import Mathlib.Data.List.Forall2
import Rete.Proofs.Network.Rules

/-!
# The way from a rule to the root

Left inputs lead from the terminal node of a rule to the root, and right inputs from a join to the
entry of a type (`LeftTrail`, `AlphaTrail`). What is met on the way is what the rule says: one node
for each condition, with its tests, below the entry of its type (`Sound.means`). The functions that
these tests call are those of the rule, where a package has one function table.
-/

namespace Rete.Network

variable {network : Network} {functions : FunctionTable}

/-! ## Following inputs -/

/-- What is met between the root and a left input when left inputs are followed, from the root
on. -/
inductive LeftTrail (network : Network) : Option NodeId → List NodeKind → Prop
  | root : LeftTrail network none []
  | node {id : NodeId} {kind : NodeKind} {left : Option NodeId} {trail : List NodeKind}
      (before : LeftTrail network left trail) (live : network.kind? id = some kind)
      (isLeft : kind.left? = some left) : LeftTrail network (some id) (trail ++ [kind])

/-- The type at whose entry a node of the alpha level is reached, and the tests from there on, each
with the functions of its node. -/
inductive AlphaTrail (network : Network) :
    NodeId → String → List (Expr × FunctionTable) → Prop
  | entry {id : NodeId} {typeName : String}
      (live : network.kind? id = some (.objectType typeName)) :
      AlphaTrail network id typeName []
  | test {id parent : NodeId} {typeName : String} {test : Expr} {own : FunctionTable}
      {trail : List (Expr × FunctionTable)} (above : AlphaTrail network parent typeName trail)
      (live : network.kind? id = some (.alpha parent test own)) :
      AlphaTrail network id typeName (trail ++ [(test, own)])

private theorem LeftTrail.unique {left : Option NodeId} {trail other : List NodeKind}
    (first : network.LeftTrail left trail) (second : network.LeftTrail left other) :
    trail = other := by
  induction first generalizing other with
  | root =>
      cases second
      rfl
  | node before live isLeft ih =>
      cases second with
      | node again lives sameLeft =>
          cases live.symm.trans lives
          cases isLeft.symm.trans sameLeft
          rw [ih again]

private theorem AlphaTrail.unique {id : NodeId} {typeName otherName : String}
    {trail other : List (Expr × FunctionTable)} (first : network.AlphaTrail id typeName trail)
    (second : network.AlphaTrail id otherName other) : typeName = otherName ∧ trail = other := by
  induction first generalizing other with
  | entry live =>
      cases second with
      | entry lives =>
          cases live.symm.trans lives
          exact ⟨rfl, rfl⟩
      | test above lives => cases live.symm.trans lives
  | test above live ih =>
      cases second with
      | entry lives => cases live.symm.trans lives
      | test again lives =>
          cases live.symm.trans lives
          obtain ⟨sameName, same⟩ := ih again
          exact ⟨sameName, by rw [same]⟩

/-! ## What is met -/

/-- Tests that call functions of the package call those of the rule. -/
def Binds (functions own : FunctionTable) (tests : List Expr) : Prop :=
  (∃ test ∈ tests, test.callsLocal = true) → own = functions

/-- A node does what a condition says. For a pattern it joins with the facts that the entry of the
type and the alpha nodes below let through; the alpha nodes are those of the pattern, in order. -/
inductive Implements (network : Network) (functions : FunctionTable) :
    Condition → NodeKind → Prop
  | pattern {left : Option NodeId} {right : NodeId} {pattern : Pattern} {own : FunctionTable}
      {alphas : List (Expr × FunctionTable)}
      (trail : ∀ typeName tests, network.AlphaTrail right typeName tests ↔
        typeName = pattern.type.fullName ∧ tests = alphas)
      (tests : alphas.map Prod.fst = pattern.alpha)
      (tables : ∀ alpha ∈ alphas, Binds functions alpha.2 [alpha.1])
      (table : Binds functions own pattern.beta) :
      Implements network functions (.pattern pattern)
        (.join left right pattern.beta pattern.negated own)
  | eval {left : Option NodeId} {test : Expr} {own : FunctionTable}
      (table : Binds functions own [test]) :
      Implements network functions (.eval test) (.eval left test own)

/-- The terminal node carries what the rule says about firing, and following left inputs from it
meets a node for each condition, in order, which does what the condition says. -/
def Means (network : Network) (functions : FunctionTable) (id : RuleId) (entry : RuleEntry) :
    Prop :=
  ∃ left trail,
    network.kind? entry.terminal =
      some (.terminal left ⟨id, entry.rule.salience, entry.rule.noLoop⟩) ∧
    (∀ nodes, network.LeftTrail left nodes ↔ nodes = trail) ∧
    List.Forall₂ (network.Implements functions) entry.rule.conditions trail

section

-- No other function table of the network is of the package of the given one.
variable (unique : ∀ {id kind own}, network.kind? id = some kind → kind.table? = some own →
  own.package = functions.package → own = functions)

include unique

/-- Tests of one scope call the same functions. -/
theorem SameScope.binds {own : FunctionTable} {tests : List Expr} {id : NodeId} {kind : NodeKind}
    (scope : SameScope own functions tests) (live : network.kind? id = some kind)
    (isOwn : kind.table? = some own) : Binds functions own tests := by
  intro calls
  obtain ⟨test, member, callsLocal⟩ := calls
  rcases scope.table (unique live isOwn) with same | none
  · exact same
  · cases (none test member).symm.trans callsLocal

private theorem CarriesTests.alphaTrail {typeName : String} {id : NodeId} {tests : List Expr}
    (carries : CarriesTests network functions typeName id tests) : ∃ alphas,
      network.AlphaTrail id typeName alphas ∧ alphas.map Prod.fst = tests ∧
        ∀ alpha ∈ alphas, Binds functions alpha.2 [alpha.1] := by
  induction carries with
  | entry live => exact ⟨[], .entry live, rfl, fun _ none => absurd none List.not_mem_nil⟩
  | test above live scope ih =>
      obtain ⟨alphas, trail, tests, tables⟩ := ih
      refine ⟨_, .test trail live, ?_, ?_⟩
      · rw [List.map_append, tests]
        rfl
      · exact List.forall_mem_append.mpr
          ⟨tables, List.forall_mem_singleton.mpr (scope.binds unique live rfl)⟩

private theorem Realizes.leftTrail {left : Option NodeId} {conditions : List Condition}
    (realizes : Realizes network functions left conditions) : ∃ trail,
      network.LeftTrail left trail ∧
        List.Forall₂ (network.Implements functions) conditions trail := by
  induction realizes with
  | root => exact ⟨[], .root, .nil⟩
  | @pattern id right left conditions pattern own before alpha live scope ih =>
      obtain ⟨trail, leads, each⟩ := ih
      obtain ⟨alphas, above, tests, tables⟩ := alpha.alphaTrail unique
      have whole (typeName : String) (others : List (Expr × FunctionTable)) :
          network.AlphaTrail right typeName others ↔
            typeName = pattern.type.fullName ∧ others = alphas := by
        constructor
        · exact fun other => other.unique above
        · intro same
          rw [same.1, same.2]
          exact above
      have last : network.Implements functions (.pattern pattern)
          (.join left right pattern.beta pattern.negated own) :=
        .pattern whole tests tables (scope.binds unique live rfl)
      exact ⟨_, .node leads live rfl, List.rel_append each (.cons last .nil)⟩
  | eval before live scope ih =>
      obtain ⟨trail, leads, each⟩ := ih
      exact ⟨_, .node leads live rfl,
        List.rel_append each (.cons (.eval (scope.binds unique live rfl)) .nil)⟩

end

/-- The nodes of a rule mean what the rule says. -/
theorem Sound.means (sound : network.Sound) {id : RuleId} {entry : RuleEntry}
    (found : network.rules.find? id = some entry)
    (unique : ∀ {id kind own}, network.kind? id = some kind → kind.table? = some own →
      own.package = entry.rule.functions.package → own = entry.rule.functions) :
    network.Means entry.rule.functions id entry := by
  obtain ⟨⟨left, live, -, realizes⟩, -⟩ := sound.represents found
  obtain ⟨trail, leads, each⟩ := realizes.leftTrail unique
  have only (nodes : List NodeKind) : network.LeftTrail left nodes ↔ nodes = trail := by
    constructor
    · exact fun other => other.unique leads
    · intro same
      rw [same]
      exact leads
  exact ⟨left, trail, live, only, each⟩

end Rete.Network
