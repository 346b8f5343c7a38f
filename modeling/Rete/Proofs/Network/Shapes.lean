import Rete.Proofs.Network.History

/-!
# The shapes of nodes

A shape is what a node does with its inputs resolved in turn, so that it does not depend on ids. A
live node resolves to one shape at most (`Resolves.unique`), and no two live nodes resolve to the
same one (`Resolves.id_unique`): whatever is the same is shared. The conditions of a rule say which
shapes its path has, node for node (`WellFormed.tracks_useConditions`).
-/

namespace Rete

/-- What a node does, behind what its inputs do. -/
inductive Shape where
  /-- The left input of what comes first in a rule; it is no node. -/
  | root
  | objectType (typeName : String)
  | alpha (parent : Shape) (test : Expr) (scope : Option String)
  | join (left right : Shape) (tests : List Expr) (negated : Bool) (scope : Option String)
  | eval (left : Shape) (test : Expr) (scope : Option String)
  deriving DecidableEq, Inhabited

namespace Shape

/-- The name of the kind of the node. -/
def label : Shape → String
  | root => "root"
  | objectType _ => "object-type"
  | alpha .. => "alpha"
  | join _ _ _ false _ => "join"
  | join _ _ _ true _ => "not"
  | eval .. => "eval"

/-- Whether facts pass the node, rather than tokens. -/
def isAlphaLevel : Shape → Bool
  | objectType _ | alpha .. => true
  | root | join .. | eval .. => false

/-! ## What rules say -/

/-- The alpha node of a test below a node. -/
def tested (functions : FunctionTable) (parent : Shape) (test : Expr) : Shape :=
  .alpha parent test (functions.scopeOf [test])

/-- The alpha nodes of tests below a node. -/
def alphas (functions : FunctionTable) (parent : Shape) : List Expr → List Shape
  | [] => []
  | test :: tests =>
    parent.tested functions test :: alphas functions (parent.tested functions test) tests

/-- The node of a condition behind a left input. -/
def behind (functions : FunctionTable) (left : Shape) : Condition → Shape
  | .pattern pattern =>
    .join left (pattern.alpha.foldl (tested functions) (.objectType pattern.type.fullName))
      pattern.beta pattern.negated (functions.scopeOf pattern.beta)
  | .eval test => .eval left test (functions.scopeOf [test])

/-- The nodes of a condition behind a left input. -/
def ofCondition (functions : FunctionTable) (left : Shape) (condition : Condition) : List Shape :=
  match condition with
  | .pattern pattern =>
    .objectType pattern.type.fullName ::
      (alphas functions (.objectType pattern.type.fullName) pattern.alpha ++
        [left.behind functions condition])
  | .eval _ => [left.behind functions condition]

/-- The nodes of conditions, each behind the one before it. -/
def ofConditions (functions : FunctionTable) (left : Shape) : List Condition → List Shape
  | [] => []
  | condition :: conditions =>
    left.ofCondition functions condition ++
      ofConditions functions (left.behind functions condition) conditions

end Shape

/-- The shapes of the nodes of a rule, its terminal node apart, in the order of its path. -/
def Rule.shapes (rule : Rule) : List Shape :=
  Shape.ofConditions rule.functions .root rule.conditions

namespace Network

variable {network after : Network}

/-! ## Nodes and their shapes -/

/-- A live node has a key. -/
def Keyed (network : Network) (id : NodeId) (key : NodeKey) : Prop :=
  ∃ kind, network.kind? id = some kind ∧ kind.key? = some key

private theorem Keyed.unique {id : NodeId} {key other : NodeKey} (first : network.Keyed id key)
    (second : network.Keyed id other) : key = other := by
  obtain ⟨kind, live, isKey⟩ := first
  obtain ⟨same, present, isOther⟩ := second
  cases live.symm.trans present
  exact Option.some.inj (isKey.symm.trans isOther)

/-- Nodes with one key are one node. -/
theorem WellFormed.id_unique (wellFormed : network.WellFormed) {id other : NodeId} {key : NodeKey}
    (first : network.Keyed id key) (second : network.Keyed other key) : id = other := by
  have listed := wellFormed.mem_keys.mpr first
  exact (Prod.mk.inj (List.inj_on_of_nodup_map wellFormed.keys_nodup listed
    (wellFormed.mem_keys.mpr second) rfl)).2

/-- A left input, or a node, has a shape. -/
inductive Resolves (network : Network) : Option NodeId → Shape → Prop
  | root : Resolves network none .root
  | objectType {id : NodeId} {typeName : String} (keyed : network.Keyed id (.objectType typeName)) :
      Resolves network (some id) (.objectType typeName)
  | alpha {id parent : NodeId} {test : Expr} {scope : Option String} {above : Shape}
      (keyed : network.Keyed id (.alpha parent test scope))
      (resolved : Resolves network (some parent) above) :
      Resolves network (some id) (.alpha above test scope)
  | join {id right : NodeId} {left : Option NodeId} {tests : List Expr} {negated : Bool}
      {scope : Option String} {before facts : Shape}
      (keyed : network.Keyed id (.join left right tests negated scope))
      (resolvedLeft : Resolves network left before)
      (resolvedRight : Resolves network (some right) facts) :
      Resolves network (some id) (.join before facts tests negated scope)
  | eval {id : NodeId} {left : Option NodeId} {test : Expr} {scope : Option String}
      {before : Shape} (keyed : network.Keyed id (.eval left test scope))
      (resolved : Resolves network left before) :
      Resolves network (some id) (.eval before test scope)

namespace Resolves

/-- A node has one shape. -/
theorem unique {id : Option NodeId} {shape other : Shape} (first : Resolves network id shape)
    (second : Resolves network id other) : shape = other := by
  induction first generalizing other with
  | root =>
      cases second
      rfl
  | objectType keyed =>
      cases second <;> cases keyed.unique ‹_›
      rfl
  | alpha keyed _ ih =>
      cases second <;> cases keyed.unique ‹_›
      rw [ih ‹_›]
  | join keyed _ _ ihLeft ihRight =>
      cases second <;> cases keyed.unique ‹_›
      rw [ihLeft ‹_›, ihRight ‹_›]
  | eval keyed _ ih =>
      cases second <;> cases keyed.unique ‹_›
      rw [ih ‹_›]

/-- Nodes of one shape are one node. -/
theorem id_unique (wellFormed : network.WellFormed) {id other : Option NodeId} {shape : Shape}
    (first : Resolves network id shape) (second : Resolves network other shape) : id = other := by
  induction first generalizing other with
  | root =>
      cases second
      rfl
  | objectType keyed =>
      cases second with
      | objectType same => exact congrArg some (wellFormed.id_unique keyed same)
  | alpha keyed _ ih =>
      cases second with
      | alpha same above =>
          cases ih above
          exact congrArg some (wellFormed.id_unique keyed same)
  | join keyed _ _ ihLeft ihRight =>
      cases second with
      | join same left right =>
          cases ihLeft left
          cases ihRight right
          exact congrArg some (wellFormed.id_unique keyed same)
  | eval keyed _ ih =>
      cases second with
      | eval same left =>
          cases ih left
          exact congrArg some (wellFormed.id_unique keyed same)

/-- The shape of a node stays while the nodes above it do. -/
theorem congr {id : Option NodeId} {shape : Shape} (resolves : Resolves network id shape)
    (within : NodeId → Prop)
    (closed : ∀ {id kind}, within id → network.kind? id = some kind →
      ∀ input ∈ kind.inputs, within input)
    (kept : ∀ {id kind}, within id → network.kind? id = some kind → after.kind? id = some kind)
    (here : ∀ node, id = some node → within node) : Resolves after id shape := by
  have stays {node : NodeId} {key : NodeKey} (keyed : network.Keyed node key)
      (inside : within node) : after.Keyed node key ∧ ∀ input ∈ key.inputs, within input := by
    obtain ⟨kind, live, isKey⟩ := keyed
    refine ⟨⟨kind, kept inside live, isKey⟩, fun input isInput => ?_⟩
    rw [NodeKind.inputs_eq_of_key? isKey] at isInput
    exact closed inside live input isInput
  induction resolves with
  | root => exact .root
  | objectType keyed => exact .objectType (stays keyed (here _ rfl)).1
  | alpha keyed _ ih =>
      obtain ⟨stays, inputs⟩ := stays keyed (here _ rfl)
      refine .alpha stays (ih fun node isNode => inputs node ?_)
      exact List.mem_singleton.mpr (Option.some.inj isNode).symm
  | join keyed _ _ ihLeft ihRight =>
      obtain ⟨stays, inputs⟩ := stays keyed (here _ rfl)
      refine .join stays (ihLeft fun node isNode => inputs node ?_)
        (ihRight fun node isNode => inputs node ?_)
      · exact List.mem_append_left _ (Option.mem_toList.mpr isNode)
      · exact List.mem_append_right _ (List.mem_singleton.mpr (Option.some.inj isNode).symm)
  | eval keyed _ ih =>
      obtain ⟨stays, inputs⟩ := stays keyed (here _ rfl)
      exact .eval stays (ih fun node isNode => inputs node (Option.mem_toList.mpr isNode))

/-- A shape that a node resolves to is its shape wherever all nodes are kept. -/
theorem mono {id : Option NodeId} {shape : Shape} (resolves : Resolves network id shape)
    (kept : ∀ {id kind}, network.kind? id = some kind → after.kind? id = some kind) :
    Resolves after id shape :=
  resolves.congr (fun _ => True) (fun _ _ _ _ => trivial) (fun _ live => kept live)
    fun _ _ => trivial

/-- The shape of a node bears the name of its kind. -/
theorem label_eq {id : NodeId} {shape : Shape} (resolves : Resolves network (some id) shape)
    {kind : NodeKind} (live : network.kind? id = some kind) : kind.label = shape.label := by
  have isKey {key : NodeKey} (keyed : network.Keyed id key) : kind.key? = some key := by
    obtain ⟨same, present, isKey⟩ := keyed
    cases live.symm.trans present
    exact isKey
  cases resolves with
  | objectType keyed | alpha keyed | eval keyed =>
      have own := isKey keyed
      cases kind <;> cases own
      rfl
  | @join _ _ _ _ negated _ _ _ keyed =>
      have own := isKey keyed
      cases kind <;> cases own
      cases negated <;> rfl

/-- Facts pass a node with the shape of one that they pass. -/
theorem rightFits {id : NodeId} {shape : Shape} (resolves : Resolves network (some id) shape)
    (alpha : shape.isAlphaLevel = true) : network.RightFits id := by
  cases resolves with
  | objectType keyed | alpha keyed =>
      obtain ⟨kind, live, isKey⟩ := keyed
      refine ⟨kind, live, ?_⟩
      cases kind <;> cases isKey
      rfl
  | join | eval => cases alpha

private theorem leftFits {left : Option NodeId} {shape : Shape}
    (resolves : Resolves network left shape)
    (beta : shape.isAlphaLevel = false) : network.LeftFits left := by
  cases resolves with
  | root => exact trivial
  | objectType | alpha => cases beta
  | join keyed | eval keyed =>
      obtain ⟨kind, live, isKey⟩ := keyed
      refine ⟨kind, live, ?_⟩
      cases kind <;> cases isKey
      rfl

end Resolves

/-! ## The nodes of a rule -/

/-- A path gets longer by nodes of given shapes. -/
structure Tracks (network : Network) (path : List NodeId) (shapes : List Shape)
    (longer : List NodeId) (after : Network) : Prop where
  grown : Grown network after fun _ => True
  wellFormed : after.WellFormed
  nodes : ∃ nodes, longer = path ++ nodes ∧
    List.Forall₂ (fun node shape => Resolves after (some node) shape) nodes shapes

namespace Tracks

variable {path longer : List NodeId} {shapes : List Shape}

private theorem refl (wellFormed : network.WellFormed) (path : List NodeId) :
    Tracks network path [] path network :=
  ⟨.refl _, wellFormed, [], (List.append_nil path).symm, .nil⟩

/-- Paths that track shapes one after the other track all of them. -/
theorem trans {last : Network} {longest : List NodeId} {more : List Shape}
    (first : Tracks network path shapes longer after)
    (second : Tracks after longer more longest last) :
    Tracks network path (shapes ++ more) longest last where
  grown := first.grown.trans second.grown
  wellFormed := second.wellFormed
  nodes := by
    obtain ⟨nodes, rfl, each⟩ := first.nodes
    obtain ⟨later, rfl, rest⟩ := second.nodes
    refine ⟨nodes ++ later, List.append_assoc .., List.rel_append ?_ rest⟩
    exact each.imp fun _ _ resolves => resolves.mono second.grown.kept

end Tracks

/-- Obtaining a node for a path. -/
theorem WellFormed.use_keyed (wellFormed : network.WellFormed) (path : List NodeId)
    (kind : NodeKind) {key : NodeKey} (isKey : kind.key? = some key) (fits : network.Fits kind) :
    ∃ id after, network.use path kind = (id, path ++ [id], after) ∧ after.WellFormed ∧
      Grown network after (fun _ => True) ∧ after.Keyed id key := by
  have shared : kind.isTerminal = false := by
    cases terminal : kind.isTerminal with
    | false => rfl
    | true => cases isKey.symm.trans (NodeKind.key?_eq_none_iff.mpr terminal)
  have counts {before : Network} (wellFormed : before.WellFormed)
      (grown : Grown network before fun _ => True) {id : NodeId} (stands : before.Stands id kind)
      (obtained : network.obtain kind = (id, before)) :
      ∃ id after, network.use path kind = (id, path ++ [id], after) ∧ after.WellFormed ∧
        Grown network after (fun _ => True) ∧ after.Keyed id key := by
    have counted : Grown before (before.modify id fun node => { node with refs := node.refs + 1 })
      fun _ => True := .count ..
    refine ⟨id, _, by simp only [Network.use, obtained], wellFormed.count id _,
      grown.trans counted, ?_⟩
    exact (stands.mono counted).imp fun _ found => ⟨found.1, found.2.trans isKey⟩
  rcases wellFormed.obtain shared fits with
    ⟨id, obtained, stands⟩ | ⟨id, made, obtained, created, kept⟩
  · exact counts wellFormed (.refl _) stands obtained
  · exact counts kept (created.grown.imp fun _ => trivial) ⟨kind, created.kind?_self, rfl⟩ obtained

/-- Obtaining a node extends a path by its shape. -/
theorem Tracks.snoc (path : List NodeId) {id : NodeId} {shape : Shape}
    (grown : Grown network after fun _ => True) (wellFormed : after.WellFormed)
    (resolves : Resolves after (some id) shape) :
    Tracks network path [shape] (path ++ [id]) after :=
  ⟨grown, wellFormed, [id], rfl, .cons resolves .nil⟩

variable (functions : FunctionTable)

/-- Obtaining the alpha nodes of tests. -/
theorem WellFormed.tracks_useAlphas (tests : List Expr) {network : Network}
    (wellFormed : network.WellFormed) (path : List NodeId) {parent : NodeId} {shape : Shape}
    (resolves : Resolves network (some parent) shape) (alpha : shape.isAlphaLevel = true) :
    ∃ id longer after, network.useAlphas functions path parent tests = (id, longer, after) ∧
      Tracks network path (shape.alphas functions tests) longer after ∧
      Resolves after (some id) (tests.foldl (Shape.tested functions) shape) ∧
      (tests.foldl (Shape.tested functions) shape).isAlphaLevel = true := by
  induction tests generalizing network path parent shape with
  | nil => exact ⟨parent, path, network, rfl, .refl wellFormed path, resolves, alpha⟩
  | cons test rest ih =>
      obtain ⟨id, next, obtained, nextFormed, grown, keyed⟩ := wellFormed.use_keyed path
        (.alpha parent test functions) rfl (resolves.rightFits alpha)
      have own : Resolves next (some id) (shape.tested functions test) :=
        .alpha keyed (resolves.mono grown.kept)
      obtain ⟨last, longer, after, others, tracks, isLast, isAlpha⟩ :=
        ih nextFormed (path ++ [id]) own rfl
      refine ⟨last, longer, after, ?_, (Tracks.snoc path grown nextFormed own).trans tracks, isLast,
        isAlpha⟩
      simpa only [Network.useAlphas, obtained] using others

/-- Obtaining the nodes of a condition. -/
theorem WellFormed.tracks_useCondition (wellFormed : network.WellFormed) (path : List NodeId)
    {left : Option NodeId} {shape : Shape} (resolves : Resolves network left shape)
    (beta : shape.isAlphaLevel = false) (condition : Condition) :
    ∃ id longer after, network.useCondition functions path left condition = (id, longer, after) ∧
      Tracks network path (shape.ofCondition functions condition) longer after ∧
      Resolves after (some id) (shape.behind functions condition) := by
  cases condition with
  | pattern pattern =>
      obtain ⟨entry, first, obtainedEntry, firstFormed, grown, keyed⟩ := wellFormed.use_keyed path
        (.objectType pattern.type.fullName) rfl trivial
      have toEntry := Tracks.snoc path grown firstFormed (.objectType keyed)
      obtain ⟨right, longer, second, obtainedAlphas, toRight, isRight, isAlpha⟩ :=
        firstFormed.tracks_useAlphas functions pattern.alpha (path ++ [entry])
          (.objectType keyed) rfl
      have before := (resolves.mono grown.kept).mono toRight.grown.kept
      obtain ⟨id, last, obtained, lastFormed, grownLast, keyedLast⟩ :=
        toRight.wellFormed.use_keyed longer
          (.join left right pattern.beta pattern.negated functions) rfl
          ⟨before.leftFits beta, isRight.rightFits isAlpha⟩
      have own : Resolves last (some id) (shape.behind functions (.pattern pattern)) :=
        .join keyedLast (before.mono grownLast.kept) (isRight.mono grownLast.kept)
      refine ⟨id, longer ++ [id], last, ?_, ?_, own⟩
      · simp only [Network.useCondition, obtainedEntry, obtainedAlphas, obtained]
      · exact toEntry.trans (toRight.trans (.snoc longer grownLast lastFormed own))
  | eval test =>
      obtain ⟨id, after, obtained, afterFormed, grown, keyed⟩ := wellFormed.use_keyed path
        (.eval left test functions) rfl (resolves.leftFits beta)
      have own : Resolves after (some id) (shape.behind functions (.eval test)) :=
        .eval keyed (resolves.mono grown.kept)
      exact ⟨id, path ++ [id], after, obtained, .snoc path grown afterFormed own, own⟩

/-- Obtaining the nodes of conditions. -/
theorem WellFormed.tracks_useConditions (conditions : List Condition) {network : Network}
    (wellFormed : network.WellFormed) (path : List NodeId) {left : Option NodeId} {shape : Shape}
    (resolves : Resolves network left shape) (beta : shape.isAlphaLevel = false) :
    ∃ last longer after,
      network.useConditions functions path left conditions = (last, longer, after) ∧
      Tracks network path (shape.ofConditions functions conditions) longer after ∧
      after.LeftFits last := by
  induction conditions generalizing network path left shape with
  | nil => exact ⟨left, path, network, rfl, .refl wellFormed path, resolves.leftFits beta⟩
  | cons condition rest ih =>
      obtain ⟨id, longer, next, obtained, first, own⟩ :=
        wellFormed.tracks_useCondition functions path resolves beta condition
      obtain ⟨last, longest, after, others, second, fits⟩ :=
        ih first.wellFormed longer own (by cases condition <;> rfl)
      refine ⟨last, longest, after, ?_, first.trans second, fits⟩
      simpa only [Network.useConditions, obtained] using others

end Network

end Rete
