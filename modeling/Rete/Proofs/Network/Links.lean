import Rete.Network.Basic
import Rete.Proofs.SortedMap

/-!
# The graph of a network

What the ids, keys and links of a network have to do with its nodes (`Network.WellFormed`): ids
that are not live can be given out, the key table lists exactly the keys of live nodes, and every
link stands on both of its ends. Making a node whose inputs are live (`WellFormed.create`) and
dropping one that is no node's input (`WellFormed.drop`) keep all of this.
-/

namespace Rete

namespace NodeKind

/-- The left input of a node behind the alpha level; `none` inside is the root. -/
def left? : NodeKind → Option (Option NodeId)
  | join left .. | eval left .. | terminal left _ => some left
  | objectType _ | alpha .. => none

/-- The node of whose outputs a node is one: the node above on the alpha level, or the left
input. -/
def above? : NodeKind → Option NodeId
  | alpha parent .. => some parent
  | join left .. | eval left .. | terminal left _ => left
  | objectType _ => none

/-- The right input of a join. -/
def right? : NodeKind → Option NodeId
  | join _ right .. => some right
  | objectType _ | alpha .. | eval .. | terminal .. => none

/-- The inputs of a node. -/
def inputs (kind : NodeKind) : List NodeId := kind.above?.toList ++ kind.right?.toList

/-- Whether facts pass the node, rather than tokens. -/
def isAlphaLevel : NodeKind → Bool
  | objectType _ | alpha .. => true
  | join .. | eval .. | terminal .. => false

/-- Whether the node lets tokens through to other nodes. -/
def isBetaLevel : NodeKind → Bool
  | join .. | eval .. => true
  | objectType _ | alpha .. | terminal .. => false

/-- The node is the end of a rule. -/
def isTerminal : NodeKind → Bool
  | terminal .. => true
  | objectType _ | alpha .. | join .. | eval .. => false

/-- The tests of a node. -/
def tests : NodeKind → List Expr
  | objectType _ | terminal .. => []
  | alpha _ test _ | eval _ test _ => [test]
  | join _ _ tests _ _ => tests

/-- The function table of the tests of a node. -/
def table? : NodeKind → Option FunctionTable
  | objectType _ | terminal .. => none
  | alpha _ _ functions | join _ _ _ _ functions | eval _ _ functions => some functions

/-- All nodes but terminals can be shared. -/
theorem key?_eq_none_iff {kind : NodeKind} : kind.key? = none ↔ kind.isTerminal = true := by
  cases kind <;> simp only [key?, isTerminal, reduceCtorEq, Bool.false_eq_true]

/-- The inputs of a node are the one above it and the one on its right. -/
theorem mem_inputs {kind : NodeKind} {id : NodeId} :
    id ∈ kind.inputs ↔ kind.above? = some id ∨ kind.right? = some id := by
  simp only [inputs, List.mem_append, Option.mem_toList]

/-- A node with a left input is below it. -/
theorem above?_of_left? {kind : NodeKind} {left : Option NodeId} (input : kind.left? = some left) :
    kind.above? = left := by
  cases kind <;> simp_all only [left?, above?, Option.some.injEq, reduceCtorEq]

end NodeKind

/-- A node whose outputs have gained another node, as far as it is one of the inputs. -/
def Node.linked (node : Node) (self id : NodeId) (kind : NodeKind) : Node :=
  { node with
    children := if kind.above? = some self then node.children ++ [id] else node.children
    rightChildren :=
      if kind.right? = some self then node.rightChildren ++ [id] else node.rightChildren }

/-- A node whose outputs have lost another node, as far as it is one of the inputs. -/
def Node.unlinked (node : Node) (self id : NodeId) (kind : NodeKind) : Node :=
  { node with
    children := if kind.above? = some self then node.children.filter (· != id) else node.children
    rightChildren :=
      if kind.right? = some self then node.rightChildren.filter (· != id)
      else node.rightChildren }

namespace Network

variable {network : Network}

/-! ## Look-ups after a change -/

/-- What the live node of an id does. -/
def kind? (network : Network) (id : NodeId) : Option NodeKind := (network.node? id).map Node.kind

/-- The kind of a node is that of its record. -/
theorem kind?_eq_some {id : NodeId} {kind : NodeKind} :
    network.kind? id = some kind ↔ ∃ node, network.node? id = some node ∧ node.kind = kind :=
  Option.map_eq_some_iff

/-- A node without a kind is not there. -/
theorem kind?_eq_none {id : NodeId} : network.kind? id = none ↔ network.node? id = none :=
  Option.map_eq_none_iff

/-- Changing a node leaves all others as they are. -/
theorem node?_modify (network : Network) (id other : NodeId) (change : Node → Node) :
    (network.modify id change).node? other =
      if other = id then (network.node? id).map change else network.node? other := by
  unfold modify
  cases found : network.node? id with
  | none =>
      by_cases same : other = id
      · simp only [same, found, ↓reduceIte, Option.map_none]
      · simp only [same, ↓reduceIte]
  | some node =>
      by_cases same : other = id <;>
        simp only [node?, SortedMap.find?_insert_eq, same, ↓reduceIte, Option.map_some]

/-- A change of a node leaves all but the table of nodes as it is. -/
theorem modify_eq (network : Network) (id : NodeId) (change : Node → Node) :
    network.modify id change = { network with nodes := (network.modify id change).nodes } := by
  unfold modify
  split <;> rfl

private theorem node?_linkLeft (network : Network) (left : Option NodeId) (child other : NodeId) :
    (network.linkLeft left child).node? other = (network.node? other).map fun node =>
      { node with
        children := if left = some other then node.children ++ [child] else node.children } := by
  cases left with
  | none => simp [linkLeft, node?]
  | some left =>
      rw [linkLeft, node?_modify]
      by_cases same : other = left
      · subst same
        simp only [↓reduceIte]
      · have different : some left ≠ some other := fun equal => same (Option.some.inj equal).symm
        simp [same, different]

private theorem node?_unlinkLeft (network : Network) (left : Option NodeId) (child other : NodeId) :
    (network.unlinkLeft left child).node? other = (network.node? other).map fun node =>
      { node with
        children :=
          if left = some other then node.children.filter (· != child) else node.children } := by
  cases left with
  | none => simp [unlinkLeft, node?]
  | some left =>
      rw [unlinkLeft, node?_modify]
      by_cases same : other = left
      · subst same
        simp only [↓reduceIte]
      · have different : some left ≠ some other := fun equal => same (Option.some.inj equal).symm
        simp [same, different]

/-- Linking a node adds it to the outputs of its inputs. -/
theorem node?_link (network : Network) (id other : NodeId) (kind : NodeKind) :
    (network.link id kind).node? other =
      (network.node? other).map fun node => node.linked other id kind := by
  cases kind with
  | objectType typeName => exact Option.map_id'.symm
  | alpha parent test functions => exact node?_linkLeft network (some parent) id other
  | join left right tests negated functions =>
      rw [link, node?_modify, node?_linkLeft, node?_linkLeft]
      by_cases same : other = right
      · subst same
        simp only [↓reduceIte, Option.map_map]
        refine congrArg (Option.map · _) (funext fun node => ?_)
        simp only [Function.comp, Node.linked, NodeKind.above?, NodeKind.right?, ↓reduceIte]
        rfl
      · have different : some right ≠ some other := fun equal => same (Option.some.inj equal).symm
        simp only [same, ↓reduceIte]
        refine congrArg (Option.map · _) (funext fun node => ?_)
        simp only [Node.linked, NodeKind.above?, NodeKind.right?, different, ↓reduceIte]
        rfl
  | eval left test functions => exact node?_linkLeft network left id other
  | terminal left terminal => exact node?_linkLeft network left id other

/-- Unlinking a node takes it out of the outputs of its inputs. -/
theorem node?_unlink (network : Network) (id other : NodeId) (kind : NodeKind) :
    (network.unlink id kind).node? other =
      (network.node? other).map fun node => node.unlinked other id kind := by
  cases kind with
  | objectType typeName => exact Option.map_id'.symm
  | alpha parent test functions => exact node?_unlinkLeft network (some parent) id other
  | join left right tests negated functions =>
      rw [unlink, node?_modify, node?_unlinkLeft, node?_unlinkLeft]
      by_cases same : other = right
      · subst same
        simp only [↓reduceIte, Option.map_map]
        refine congrArg (Option.map · _) (funext fun node => ?_)
        simp only [Function.comp, Node.unlinked, NodeKind.above?, NodeKind.right?, ↓reduceIte]
        rfl
      · have different : some right ≠ some other := fun equal => same (Option.some.inj equal).symm
        simp only [same, ↓reduceIte]
        refine congrArg (Option.map · _) (funext fun node => ?_)
        simp only [Node.unlinked, NodeKind.above?, NodeKind.right?, different, ↓reduceIte]
        rfl
  | eval left test functions => exact node?_unlinkLeft network left id other
  | terminal left terminal => exact node?_unlinkLeft network left id other

private theorem linkLeft_eq (network : Network) (left : Option NodeId) (child : NodeId) :
    network.linkLeft left child = { network with
      nodes := (network.linkLeft left child).nodes
      rootChildren :=
        if left = none then network.rootChildren ++ [child] else network.rootChildren } := by
  cases left with
  | none => simp only [linkLeft, ↓reduceIte]
  | some left =>
      rw [linkLeft, modify_eq]
      simp only [reduceCtorEq, ↓reduceIte]

private theorem unlinkLeft_eq (network : Network) (left : Option NodeId) (child : NodeId) :
    network.unlinkLeft left child = { network with
      nodes := (network.unlinkLeft left child).nodes
      rootChildren :=
        if left = none then network.rootChildren.filter (· != child)
        else network.rootChildren } := by
  cases left with
  | none => simp only [unlinkLeft, ↓reduceIte]
  | some left =>
      rw [unlinkLeft, modify_eq]
      simp only [reduceCtorEq, ↓reduceIte]

/-- The entries after a node was made. -/
def entriesWith (entries : SortedMap String NodeId) (id : NodeId) :
    NodeKind → SortedMap String NodeId
  | .objectType typeName => entries.insert typeName id
  | .alpha .. | .join .. | .eval .. | .terminal .. => entries

/-- The entries after a node was dropped. -/
def entriesWithout (entries : SortedMap String NodeId) : NodeKind → SortedMap String NodeId
  | .objectType typeName => entries.erase typeName
  | .alpha .. | .join .. | .eval .. | .terminal .. => entries

/-- Linking changes the nodes, the outputs of the root and the entries. -/
theorem link_eq (network : Network) (id : NodeId) (kind : NodeKind) :
    network.link id kind = { network with
      nodes := (network.link id kind).nodes
      rootChildren :=
        if kind.left? = some none then network.rootChildren ++ [id] else network.rootChildren
      objectTypes := entriesWith network.objectTypes id kind } := by
  cases kind with
  | objectType typeName => rfl
  | alpha parent test functions =>
      rw [link, linkLeft_eq]
      rfl
  | join left right tests negated functions =>
      rw [link, modify_eq, linkLeft_eq]
      simp only [NodeKind.left?, Option.some.injEq, entriesWith]
  | eval left test functions =>
      rw [link, linkLeft_eq]
      simp only [NodeKind.left?, Option.some.injEq, entriesWith]
  | terminal left terminal =>
      rw [link, linkLeft_eq]
      simp only [NodeKind.left?, Option.some.injEq, entriesWith]

/-- Unlinking changes the nodes, the outputs of the root and the entries. -/
theorem unlink_eq (network : Network) (id : NodeId) (kind : NodeKind) :
    network.unlink id kind = { network with
      nodes := (network.unlink id kind).nodes
      rootChildren :=
        if kind.left? = some none then network.rootChildren.filter (· != id)
        else network.rootChildren
      objectTypes := entriesWithout network.objectTypes kind } := by
  cases kind with
  | objectType typeName => rfl
  | alpha parent test functions =>
      rw [unlink, unlinkLeft_eq]
      rfl
  | join left right tests negated functions =>
      rw [unlink, modify_eq, unlinkLeft_eq]
      simp only [NodeKind.left?, Option.some.injEq, entriesWithout]
  | eval left test functions =>
      rw [unlink, unlinkLeft_eq]
      simp only [NodeKind.left?, Option.some.injEq, entriesWithout]
  | terminal left terminal =>
      rw [unlink, unlinkLeft_eq]
      simp only [NodeKind.left?, Option.some.injEq, entriesWithout]

/-! ## Well-formed networks -/

/-- A left input is the root or lets tokens through. -/
def LeftFits (network : Network) : Option NodeId → Prop
  | none => True
  | some id => ∃ kind, network.kind? id = some kind ∧ kind.isBetaLevel = true

/-- A right input, or a node above on the alpha level, lets facts through. -/
def RightFits (network : Network) (id : NodeId) : Prop :=
  ∃ kind, network.kind? id = some kind ∧ kind.isAlphaLevel = true

/-- The inputs of a node are live and of the right kind. -/
def Fits (network : Network) : NodeKind → Prop
  | .objectType _ => True
  | .alpha parent .. => network.RightFits parent
  | .join left right .. => network.LeftFits left ∧ network.RightFits right
  | .eval left .. | .terminal left _ => network.LeftFits left

/-- A list has the live nodes of some kinds, each once. -/
structure Lists (network : Network) (wanted : NodeKind → Prop) (nodes : List NodeId) : Prop where
  nodup : nodes.Nodup
  mem : ∀ {id}, id ∈ nodes ↔ ∃ kind, network.kind? id = some kind ∧ wanted kind

/-- Ids, keys and links agree with the live nodes. -/
structure WellFormed (network : Network) : Prop where
  id_lt : ∀ {id kind}, network.kind? id = some kind → id < network.slots
  mem_free : ∀ {id}, id ∈ network.free ↔ id < network.slots ∧ network.kind? id = none
  free_nodup : network.free.Nodup
  mem_keys : ∀ {key id}, (key, id) ∈ network.keys ↔
    ∃ kind, network.kind? id = some kind ∧ kind.key? = some key
  keys_nodup : (network.keys.map Prod.fst).Nodup
  mem_children : ∀ {id node}, network.node? id = some node → ∀ {other}, other ∈ node.children ↔
    ∃ kind, network.kind? other = some kind ∧ kind.above? = some id
  children_nodup : ∀ {id node}, network.node? id = some node → node.children.Nodup
  mem_rightChildren : ∀ {id node}, network.node? id = some node →
    ∀ {other}, other ∈ node.rightChildren ↔
      ∃ kind, network.kind? other = some kind ∧ kind.right? = some id
  rightChildren_nodup : ∀ {id node}, network.node? id = some node → node.rightChildren.Nodup
  mem_rootChildren : ∀ {id}, id ∈ network.rootChildren ↔
    ∃ kind, network.kind? id = some kind ∧ kind.left? = some none
  rootChildren_nodup : network.rootChildren.Nodup
  objectType : ∀ {typeName id}, network.objectType? typeName = some id ↔
    network.kind? id = some (.objectType typeName)
  fits : ∀ {id kind}, network.kind? id = some kind → network.Fits kind

section

variable {network : Network}

/-- The children of a node are the nodes below it. -/
theorem WellFormed.children (wellFormed : network.WellFormed) {id : NodeId} {node : Node}
    (found : network.node? id = some node) :
    network.Lists (fun kind => kind.above? = some id) node.children :=
  ⟨wellFormed.children_nodup found, wellFormed.mem_children found⟩

/-- The right children of a node are the joins that it feeds from the right. -/
theorem WellFormed.rightChildren (wellFormed : network.WellFormed) {id : NodeId} {node : Node}
    (found : network.node? id = some node) :
    network.Lists (fun kind => kind.right? = some id) node.rightChildren :=
  ⟨wellFormed.rightChildren_nodup found, wellFormed.mem_rightChildren found⟩

/-- The children of the root are the nodes whose left input is empty. -/
theorem WellFormed.rootChildren (wellFormed : network.WellFormed) :
    network.Lists (fun kind => kind.left? = some none) network.rootChildren :=
  ⟨wellFormed.rootChildren_nodup, wellFormed.mem_rootChildren⟩

end

/-- The inputs of a node that fit are live. -/
theorem Fits.input_live {kind : NodeKind} (fits : network.Fits kind) {id : NodeId}
    (input : id ∈ kind.inputs) : ∃ found, network.kind? id = some found := by
  rw [NodeKind.mem_inputs] at input
  cases kind with
  | objectType typeName => rcases input with above | right <;> cases ‹_›
  | alpha parent test functions =>
      rcases input with above | right
      · cases above
        exact fits.imp fun _ found => found.1
      · cases right
  | join left right tests negated functions =>
      rcases input with above | right
      · cases above
        exact fits.1.imp fun _ found => found.1
      · cases right
        exact fits.2.imp fun _ found => found.1
  | eval left test functions =>
      rcases input with above | right
      · cases above
        exact fits.imp fun _ found => found.1
      · cases right
  | terminal left terminal =>
      rcases input with above | right
      · cases above
        exact fits.imp fun _ found => found.1
      · cases right

/-- Whether inputs fit depends on the kinds of the inputs only. -/
theorem Fits.congr {other : Network} {kind : NodeKind} (fits : network.Fits kind)
    (same : ∀ id ∈ kind.inputs, ∀ found, network.kind? id = some found →
      other.kind? id = some found) : other.Fits kind := by
  have leftFits : ∀ {left : Option NodeId}, (∀ id, left = some id → id ∈ kind.inputs) →
      network.LeftFits left → other.LeftFits left := by
    intro left within fit
    cases left with
    | none => exact trivial
    | some id =>
        obtain ⟨found, live, beta⟩ := fit
        exact ⟨found, same id (within id rfl) found live, beta⟩
  have rightFits : ∀ {id : NodeId}, id ∈ kind.inputs → network.RightFits id →
      other.RightFits id := by
    rintro id within ⟨found, live, alpha⟩
    exact ⟨found, same id within found live, alpha⟩
  cases kind with
  | objectType typeName => exact trivial
  | alpha parent test functions => exact rightFits (NodeKind.mem_inputs.mpr (.inl rfl)) fits
  | join left right tests negated functions =>
      exact ⟨leftFits (fun id here => NodeKind.mem_inputs.mpr (.inl here)) fits.1,
        rightFits (NodeKind.mem_inputs.mpr (.inr rfl)) fits.2⟩
  | eval left test functions =>
      exact leftFits (fun id here => NodeKind.mem_inputs.mpr (.inl here)) fits
  | terminal left terminal =>
      exact leftFits (fun id here => NodeKind.mem_inputs.mpr (.inl here)) fits

/-- A left input lets tokens through. -/
theorem WellFormed.leftFits (wellFormed : network.WellFormed) {id : NodeId} {kind : NodeKind}
    (live : network.kind? id = some kind) {left : Option NodeId} (input : kind.left? = some left) :
    network.LeftFits left := by
  have fits := wellFormed.fits live
  cases kind with
  | objectType | alpha => cases input
  | join =>
      cases input
      exact fits.1
  | eval | terminal =>
      cases input
      exact fits

/-- The outputs of a node behind the alpha level are those with it as left input. -/
theorem WellFormed.mem_children_of_beta (wellFormed : network.WellFormed) {id : NodeId}
    {node : Node} (found : network.node? id = some node) (beta : node.kind.isBetaLevel = true)
    {child : NodeId} : child ∈ node.children ↔
      ∃ kind, network.kind? child = some kind ∧ kind.left? = some (some id) := by
  rw [wellFormed.mem_children found]
  refine exists_congr fun kind => and_congr_right fun live => ⟨fun above => ?_,
    NodeKind.above?_of_left?⟩
  cases kind with
  | objectType => cases above
  | alpha parent test functions =>
      cases above
      obtain ⟨parentKind, parentLive, alpha⟩ := wellFormed.fits live
      cases (kind?_eq_some.mpr ⟨node, found, rfl⟩).symm.trans parentLive
      cases kind : node.kind <;> simp_all [NodeKind.isBetaLevel, NodeKind.isAlphaLevel]
  | join | eval | terminal => exact congrArg some above

/-- The outputs of a node on the alpha level are the alpha nodes below it. -/
theorem WellFormed.mem_children_of_alpha (wellFormed : network.WellFormed) {id : NodeId}
    {node : Node} (found : network.node? id = some node) (alpha : node.kind.isAlphaLevel = true)
    {child : NodeId} : child ∈ node.children ↔
      ∃ test functions, network.kind? child = some (.alpha id test functions) := by
  rw [wellFormed.mem_children found]
  constructor
  · rintro ⟨kind, live, above⟩
    have notLeft : kind.left? ≠ some (some id) := by
      intro left
      obtain ⟨fitting, isFitting, beta⟩ := wellFormed.leftFits live left
      cases (kind?_eq_some.mpr ⟨node, found, rfl⟩).symm.trans isFitting
      cases kind : node.kind <;> simp_all [NodeKind.isBetaLevel, NodeKind.isAlphaLevel]
    cases kind with
    | objectType => cases above
    | alpha parent test functions =>
        cases above
        exact ⟨test, functions, live⟩
    | join | eval | terminal => exact absurd (congrArg some above) notLeft
  · rintro ⟨test, functions, live⟩
    exact ⟨_, live, rfl⟩

end Network

end Rete
