import Rete.Proofs.Compile.Package
import Rete.Proofs.Network.Levels
import Rete.Proofs.Network.Rules

/-!
# The scope of nodes

A test of a node refers to what there is at its place (`Network.Gives`): the facts of the tokens
that its left input offers, and the fact under test. Adding a rule that is well scoped keeps it so
(`Placed.addRule`), since the nodes that are made stand behind left inputs with a fact for each
condition that matches one (`Realizes.arity`).
-/

namespace Rete.Network

variable {network after : Network}

/-- The tokens of a left input that realizes conditions have a fact for each one that matches
one. -/
theorem Realizes.arity {functions : FunctionTable} {left : Option NodeId}
    {conditions : List Condition} (realizes : Realizes network functions left conditions) :
    network.Arity left (Condition.positives conditions) := by
  induction realizes with
  | root => exact .root
  | @pattern id right left conditions pattern own before alpha live scope ih =>
      rw [Condition.positives_concat_pattern]
      exact .join live ih
  | eval before live scope ih =>
      rw [Condition.positives_concat_eval]
      exact .eval live ih

/-- Tokens have the same length for as long as the nodes stay. -/
theorem Arity.mono {left : Option NodeId} {arity : Nat} (isArity : network.Arity left arity)
    (kept : ∀ {id kind}, network.kind? id = some kind → after.kind? id = some kind) :
    after.Arity left arity := by
  induction isArity with
  | root => exact .root
  | join live _ ih => exact .join (kept live) ih
  | eval live _ ih => exact .eval (kept live) ih

/-- What there is for the tests of a node to refer to. -/
inductive Gives (network : Network) : NodeKind → Room → Prop
  | alpha {parent : NodeId} {test : Expr} {functions : FunctionTable} :
      Gives network (.alpha parent test functions)
        { current := true, functions := functions.functions.length }
  | join {left : Option NodeId} {right : NodeId} {tests : List Expr} {negated : Bool}
      {functions : FunctionTable} {arity : Nat} (isArity : network.Arity left arity) :
      Gives network (.join left right tests negated functions)
        { facts := arity, current := true, functions := functions.functions.length }
  | eval {left : Option NodeId} {test : Expr} {functions : FunctionTable} {arity : Nat}
      (isArity : network.Arity left arity) :
      Gives network (.eval left test functions)
        { facts := arity, functions := functions.functions.length }

namespace Gives

variable {kind : NodeKind} {room other : Room}

/-- A node gives one room to its tests. -/
theorem unique (first : network.Gives kind room) (second : network.Gives kind other) :
    room = other := by
  cases first with
  | alpha =>
      cases second
      rfl
  | join isArity =>
      cases second with
      | join same => rw [isArity.unique same]
  | eval isArity =>
      cases second with
      | eval same => rw [isArity.unique same]

private theorem mono (gives : network.Gives kind room)
    (kept : ∀ {id kind}, network.kind? id = some kind → after.kind? id = some kind) :
    after.Gives kind room := by
  cases gives with
  | alpha => exact .alpha
  | join isArity => exact .join (isArity.mono kept)
  | eval isArity => exact .eval (isArity.mono kept)

/-- Conditions have no frame and change no global. -/
theorem isPlain (gives : network.Gives kind room) : room.slots = 0 ∧ room.updates = false := by
  cases gives <;> exact ⟨rfl, rfl⟩

/-- A node gives its tests the functions of its own table. -/
theorem functions_eq (gives : network.Gives kind room) {own : FunctionTable}
    (isOwn : kind.table? = some own) : room.functions = own.functions.length := by
  cases gives <;> cases isOwn <;> rfl

/-- Every node with tests has a place. -/
theorem exists_of_live (sound : network.Sound) {id : NodeId} (live : network.kind? id = some kind)
    {own : FunctionTable} (isOwn : kind.table? = some own) : ∃ room, network.Gives kind room := by
  cases kind with
  | objectType | terminal => cases isOwn
  | alpha => exact ⟨_, .alpha⟩
  | join left right tests negated functions =>
      obtain ⟨arity, isArity⟩ := sound.wellFormed.exists_left_arity sound.accounted live rfl
      exact ⟨_, .join isArity⟩
  | eval left test functions =>
      obtain ⟨arity, isArity⟩ := sound.wellFormed.exists_left_arity sound.accounted live rfl
      exact ⟨_, .eval isArity⟩

end Gives

/-- The tests of the nodes refer to what there is at their places. -/
def Placed (network : Network) : Prop :=
  ∀ id kind, network.kind? id = some kind → ∀ test ∈ kind.tests,
    ∃ room, network.Gives kind room ∧ test.Fits room

/-- In a network without nodes, every node has its place. -/
theorem placed_empty : ({} : Network).Placed := fun _ _ live => by cases live

/-- The tests of a node that serves a condition refer to what there is. -/
theorem Serves.placed {rule : Rule} (isScoped : rule.Scoped) {kind : NodeKind}
    (serves : Serves network rule.functions rule.conditions kind) {test : Expr}
    (member : test ∈ kind.tests) : ∃ room, network.Gives kind room ∧ test.Fits room := by
  cases serves with
  | entry => cases member
  | alpha place isTest =>
      obtain rfl := List.mem_singleton.mp member
      exact ⟨_, .alpha, (isScoped.conditions place).alpha _ isTest⟩
  | join place realizes =>
      exact ⟨_, .join realizes.arity, (isScoped.conditions place).beta _ member⟩
  | eval place realizes =>
      obtain rfl := List.mem_singleton.mp member
      exact ⟨_, .eval realizes.arity, isScoped.conditions place⟩

/-- Adding a rule that stays in scope keeps tests in their places. -/
theorem Placed.addRule (placed : network.Placed) {rule : Rule} (isScoped : rule.Scoped)
    {id : RuleId} {entry : RuleEntry} (added : RuleAdded network rule id entry after) :
    after.Placed := by
  intro node kind live test member
  rcases added.new live with old | isTerminal | serves
  · obtain ⟨room, gives, fits⟩ := placed node kind old test member
    exact ⟨room, gives.mono added.kept, fits⟩
  · cases kind with
    | terminal => cases member
    | objectType | alpha | join | eval => cases isTerminal
  · exact serves.placed isScoped member

/-- The nodes that stay have the left inputs that they had. -/
theorem Placed.removeRule (placed : network.Placed) {rule : Rule} {id : RuleId} {entry : RuleEntry}
    (removed : RuleRemoved network rule id entry after) : after.Placed := by
  intro node kind live test member
  obtain ⟨room, gives, fits⟩ := placed node kind (removed.old live) test member
  have isOwn : ∃ own, kind.table? = some own := by
    cases kind with
    | objectType | terminal => cases member
    | alpha | join | eval => exact ⟨_, rfl⟩
  obtain ⟨own, isOwn⟩ := isOwn
  obtain ⟨there, givesThere⟩ := Gives.exists_of_live removed.sound live isOwn
  obtain rfl := gives.unique (givesThere.mono removed.old)
  exact ⟨room, givesThere, fits⟩

/-- Everything that the nodes and rules refer to is there. -/
structure Scoped (network : Network) : Prop where
  placed : network.Placed
  /-- No node of the alpha level is a left input. -/
  left : ∀ {id kind input}, network.kind? id = some kind → kind.left? = some (some input) →
    ∃ found, network.kind? input = some found ∧ found.isBetaLevel = true
  tables : ∀ {id kind own}, network.kind? id = some kind → kind.table? = some own → own.Scoped
  rules : ∀ {id rule}, network.rule? id = some rule → rule.Scoped ∧ rule.functions.Scoped

end Rete.Network
