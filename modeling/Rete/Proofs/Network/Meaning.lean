import Rete.Proofs.Network.Paths

/-!
# What the nodes of a rule mean

A node on the alpha level stands for the tests above it (`CarriesTests`), and a left input for the
conditions before it (`Realizes`). Obtaining nodes for conditions yields a left input that realizes
them (`WellFormed.useConditions`), and each node that is made for it serves one of the conditions
(`Serves`). A network goes on realizing what it realized for as long as the nodes of the path stay
(`Realizes.congr`).
-/

namespace Rete.Network

variable {network after : Network}

/-- Nodes of one scope: they call the functions of one package, as far as they call any. -/
def SameScope (functions others : FunctionTable) (tests : List Expr) : Prop :=
  functions.scopeOf tests = others.scopeOf tests

/-- Function tables of one scope are the same as far as tests depend on them. -/
theorem SameScope.table {own functions : FunctionTable} {tests : List Expr}
    (scope : SameScope own functions tests)
    (unique : own.package = functions.package → own = functions) :
    own = functions ∨ ∀ test ∈ tests, test.callsLocal = false := by
  unfold SameScope FunctionTable.scopeOf at scope
  cases calls : tests.any Expr.callsLocal with
  | true =>
      simp only [calls, ↓reduceIte, Option.some.injEq] at scope
      exact .inl (unique scope)
  | false =>
      refine .inr fun test member => Bool.eq_false_iff.mpr fun here => ?_
      exact Bool.eq_false_iff.mp calls (List.any_eq_true.mpr ⟨test, member, here⟩)

/-- A node on the alpha level passes the facts of a type for which given tests hold, in order. -/
inductive CarriesTests (network : Network) (functions : FunctionTable) (typeName : String) :
    NodeId → List Expr → Prop
  | entry {id : NodeId} (live : network.kind? id = some (.objectType typeName)) :
      CarriesTests network functions typeName id []
  | test {id parent : NodeId} {tests : List Expr} {test : Expr} {own : FunctionTable}
      (above : CarriesTests network functions typeName parent tests)
      (live : network.kind? id = some (.alpha parent test own))
      (scope : SameScope own functions [test]) :
      CarriesTests network functions typeName id (tests ++ [test])

/-- A left input offers the tokens that match given conditions, in order. -/
inductive Realizes (network : Network) (functions : FunctionTable) :
    Option NodeId → List Condition → Prop
  | root : Realizes network functions none []
  | pattern {id right : NodeId} {left : Option NodeId} {conditions : List Condition}
      {pattern : Pattern} {own : FunctionTable}
      (before : Realizes network functions left conditions)
      (alpha : CarriesTests network functions pattern.type.fullName right pattern.alpha)
      (live : network.kind? id = some (.join left right pattern.beta pattern.negated own))
      (scope : SameScope own functions pattern.beta) :
      Realizes network functions (some id) (conditions ++ [.pattern pattern])
  | eval {id : NodeId} {left : Option NodeId} {conditions : List Condition} {test : Expr}
      {own : FunctionTable}
      (before : Realizes network functions left conditions)
      (live : network.kind? id = some (.eval left test own))
      (scope : SameScope own functions [test]) :
      Realizes network functions (some id) (conditions ++ [.eval test])

variable {functions : FunctionTable}

/-- Tests carried by a node stay while the nodes above it do. -/
theorem CarriesTests.congr {typeName : String} {id : NodeId} {tests : List Expr}
    (carries : CarriesTests network functions typeName id tests) (within : NodeId → Prop)
    (closed : ∀ {id kind}, within id → network.kind? id = some kind →
      ∀ input ∈ kind.inputs, within input)
    (kept : ∀ {id kind}, within id → network.kind? id = some kind → after.kind? id = some kind)
    (here : within id) : CarriesTests after functions typeName id tests := by
  induction carries with
  | entry live => exact .entry (kept here live)
  | test above live scope ih =>
      exact .test (ih (closed here live _ (NodeKind.mem_inputs.mpr (.inl rfl)))) (kept here live)
        scope

/-- Realized conditions stay while the nodes of the path do. -/
theorem Realizes.congr {left : Option NodeId} {conditions : List Condition}
    (realizes : Realizes network functions left conditions) (within : NodeId → Prop)
    (closed : ∀ {id kind}, within id → network.kind? id = some kind →
      ∀ input ∈ kind.inputs, within input)
    (kept : ∀ {id kind}, within id → network.kind? id = some kind → after.kind? id = some kind)
    (here : ∀ id, left = some id → within id) : Realizes after functions left conditions := by
  induction realizes with
  | root => exact .root
  | pattern before alpha live scope ih =>
      have inputs := closed (here _ rfl) live
      exact .pattern
        (ih fun id isLeft => inputs id (NodeKind.mem_inputs.mpr (.inl isLeft)))
        (alpha.congr within closed kept (inputs _ (NodeKind.mem_inputs.mpr (.inr rfl))))
        (kept (here _ rfl) live) scope
  | eval before live scope ih =>
      have inputs := closed (here _ rfl) live
      exact .eval (ih fun id isLeft => inputs id (NodeKind.mem_inputs.mpr (.inl isLeft)))
        (kept (here _ rfl) live) scope

section Mono

variable {added : NodeKind → Prop} (grown : Grown network after added)

include grown

private theorem CarriesTests.mono {typeName : String} {id : NodeId} {tests : List Expr}
    (carries : CarriesTests network functions typeName id tests) :
    CarriesTests after functions typeName id tests :=
  carries.congr (fun _ => True) (fun _ _ _ _ => trivial) (fun _ live => grown.kept live)
    trivial

/-- Nodes that realize conditions still do in a network that has grown. -/
theorem Realizes.mono {left : Option NodeId} {conditions : List Condition}
    (realizes : Realizes network functions left conditions) :
    Realizes after functions left conditions :=
  realizes.congr (fun _ => True) (fun _ _ _ _ => trivial)
    (fun _ live => grown.kept live) fun _ _ => trivial

end Mono

private theorem CarriesTests.rightFits {typeName : String} {id : NodeId} {tests : List Expr}
    (carries : CarriesTests network functions typeName id tests) : network.RightFits id := by
  cases carries with
  | entry live => exact ⟨_, live, rfl⟩
  | test above live scope => exact ⟨_, live, rfl⟩

/-- What realizes conditions can stand on the left of a node. -/
theorem Realizes.leftFits {left : Option NodeId} {conditions : List Condition}
    (realizes : Realizes network functions left conditions) : network.LeftFits left := by
  cases realizes with
  | root => exact trivial
  | pattern before alpha live scope => exact ⟨_, live, rfl⟩
  | eval before live scope => exact ⟨_, live, rfl⟩

/-! ## The nodes of conditions -/

/-- A kind of node that is made for one of the conditions of a rule, behind those before it. -/
inductive Serves (network : Network) (functions : FunctionTable) (conditions : List Condition) :
    NodeKind → Prop
  | entry (typeName : String) : Serves network functions conditions (.objectType typeName)
  | alpha {parent : NodeId} {pattern : Pattern} {test : Expr}
      {before : List Condition} (place : before ++ [.pattern pattern] <+: conditions)
      (isTest : test ∈ pattern.alpha) :
      Serves network functions conditions (.alpha parent test functions)
  | join {left : Option NodeId} {right : NodeId} {pattern : Pattern} {before : List Condition}
      (place : before ++ [.pattern pattern] <+: conditions)
      (realizes : Realizes network functions left before) :
      Serves network functions conditions
        (.join left right pattern.beta pattern.negated functions)
  | eval {left : Option NodeId} {test : Expr} {before : List Condition}
      (place : before ++ [.eval test] <+: conditions)
      (realizes : Realizes network functions left before) :
      Serves network functions conditions (.eval left test functions)

/-- A node goes on serving its condition as the rule gets longer and the network larger. -/
theorem Serves.mono {conditions more : List Condition} {kind : NodeKind}
    (serves : Serves network functions conditions kind) (within : conditions <+: more)
    (onward : ∀ {left before}, Realizes network functions left before →
      Realizes after functions left before) : Serves after functions more kind := by
  cases serves with
  | entry typeName => exact .entry typeName
  | alpha place isTest => exact .alpha (place.trans within) isTest
  | join place realizes => exact .join (place.trans within) (onward realizes)
  | eval place realizes => exact .eval (place.trans within) (onward realizes)

/-- The tests of a node call the functions of the rule that it was made for. -/
theorem Serves.table? {conditions : List Condition} {kind : NodeKind} {own : FunctionTable}
    (serves : Serves network functions conditions kind) (isOwn : kind.table? = some own) :
    own = functions := by
  cases serves with
  | entry => cases isOwn
  | alpha | join | eval => exact (Option.some.inj isOwn).symm

/-- A kind of node that is there for one of the conditions of a rule. -/
def Explains (functions : FunctionTable) (conditions : List Condition) : NodeKind → Prop
  | .objectType typeName => ∃ pattern, .pattern pattern ∈ conditions ∧
      pattern.type.fullName = typeName
  | .alpha _ test own => (∃ pattern, .pattern pattern ∈ conditions ∧ test ∈ pattern.alpha) ∧
      SameScope own functions [test]
  | .join _ _ tests negated own => (∃ pattern, .pattern pattern ∈ conditions ∧
      pattern.beta = tests ∧ pattern.negated = negated) ∧ SameScope own functions tests
  | .eval _ test own => .eval test ∈ conditions ∧ SameScope own functions [test]
  | .terminal .. => True

private theorem Explains.mono {conditions more : List Condition} {kind : NodeKind}
    (explains : Explains functions conditions kind) (within : conditions ⊆ more) :
    Explains functions more kind := by
  cases kind with
  | objectType => exact explains.imp fun _ found => ⟨within found.1, found.2⟩
  | alpha | join =>
      exact explains.imp_left fun found => found.imp fun _ member => ⟨within member.1, member.2⟩
  | eval => exact explains.imp_left fun member => within member
  | terminal => exact trivial

/-- What obtaining the nodes of a part of a rule does: the path of the rule gets longer by nodes
that are there for some of its conditions, and those that are new serve one of all so far. -/
structure Extended (network : Network) (paths : List (List NodeId)) (path : List NodeId)
    (functions : FunctionTable) (whole conditions : List Condition) (longer : List NodeId)
    (after : Network) : Prop where
  grown : Grown network after (Serves after functions whole)
  wellFormed : after.WellFormed
  accounted : Accounted after (longer :: paths)
  path_subset : path ⊆ longer
  explained : ∀ id ∈ longer, id ∈ path ∨
    ∃ kind, after.kind? id = some kind ∧ Explains functions conditions kind

namespace Extended

variable {paths : List (List NodeId)} {path longer : List NodeId}
  {whole conditions : List Condition}

private theorem refl (wellFormed : network.WellFormed)
    (accounted : Accounted network (path :: paths)) :
    Extended network paths path functions whole conditions path network :=
  ⟨.refl _, wellFormed, accounted, fun _ => id, fun _ member => .inl member⟩

/-- What extends a path in two steps extends it. -/
theorem trans {last : Network} {longest : List NodeId}
    (first : Extended network paths path functions whole conditions longer after)
    (second : Extended after paths longer functions whole conditions longest last) :
    Extended network paths path functions whole conditions longest last where
  grown := (first.grown.imp fun serves =>
    serves.mono (List.prefix_refl _) fun realizes => realizes.mono second.grown).trans second.grown
  wellFormed := second.wellFormed
  accounted := second.accounted
  path_subset := List.Subset.trans first.path_subset second.path_subset
  explained id member := by
    rcases second.explained id member with earlier | found
    · exact (first.explained id earlier).imp_right fun found =>
        found.imp fun _ here => ⟨second.grown.kept here.1, here.2⟩
    · exact .inr found

private theorem mono {all more : List Condition}
    (extended : Extended network paths path functions whole conditions longer after)
    (isPrefix : whole <+: all) (within : conditions ⊆ more) :
    Extended network paths path functions all more longer after :=
  { extended with
    grown := extended.grown.imp fun serves => serves.mono isPrefix fun realizes => realizes
    explained := fun id member => (extended.explained id member).imp_right fun found =>
      found.imp fun _ here => ⟨here.1, here.2.mono within⟩ }

end Extended

private theorem Used.extended {paths : List (List NodeId)} {path : List NodeId} {kind : NodeKind}
    {id : NodeId} (used : Used network paths path kind id after)
    {whole conditions : List Condition} (serves : Serves after functions whole kind)
    {found : NodeKind} (live : after.kind? id = some found)
    (explains : Explains functions conditions found) :
    Extended network paths path functions whole conditions (path ++ [id]) after where
  grown := used.grown.imp fun same => same ▸ serves
  wellFormed := used.wellFormed
  accounted := used.accounted
  path_subset := List.subset_append_left ..
  explained other member := by
    refine (List.mem_append.mp member).imp_right fun same => ⟨found, ?_, explains⟩
    exact List.mem_singleton.mp same ▸ live

section Stands

variable {id : NodeId}

private theorem Stands.objectType {typeName : String}
    (stands : network.Stands id (.objectType typeName)) :
    network.kind? id = some (.objectType typeName) := by
  obtain ⟨kind, live, same⟩ := stands
  cases kind <;> simp_all [NodeKind.key?]

private theorem Stands.alpha {parent : NodeId} {test : Expr}
    (stands : network.Stands id (.alpha parent test functions)) :
    ∃ own, network.kind? id = some (.alpha parent test own) ∧ SameScope own functions [test] := by
  obtain ⟨kind, live, same⟩ := stands
  cases kind with
  | alpha =>
      simp only [NodeKind.key?, Option.some.injEq, NodeKey.alpha.injEq] at same
      obtain ⟨rfl, rfl, scope⟩ := same
      exact ⟨_, live, scope⟩
  | objectType | join | eval | terminal =>
      simp only [NodeKind.key?, Option.some.injEq, reduceCtorEq] at same

private theorem Stands.join {left : Option NodeId} {right : NodeId} {tests : List Expr}
    {negated : Bool} (stands : network.Stands id (.join left right tests negated functions)) :
    ∃ own, network.kind? id = some (.join left right tests negated own) ∧
      SameScope own functions tests := by
  obtain ⟨kind, live, same⟩ := stands
  cases kind with
  | join =>
      simp only [NodeKind.key?, Option.some.injEq, NodeKey.join.injEq] at same
      obtain ⟨rfl, rfl, rfl, rfl, scope⟩ := same
      exact ⟨_, live, scope⟩
  | objectType | alpha | eval | terminal =>
      simp only [NodeKind.key?, Option.some.injEq, reduceCtorEq] at same

private theorem Stands.eval {left : Option NodeId} {test : Expr}
    (stands : network.Stands id (.eval left test functions)) :
    ∃ own, network.kind? id = some (.eval left test own) ∧ SameScope own functions [test] := by
  obtain ⟨kind, live, same⟩ := stands
  cases kind with
  | eval =>
      simp only [NodeKind.key?, Option.some.injEq, NodeKey.eval.injEq] at same
      obtain ⟨rfl, rfl, scope⟩ := same
      exact ⟨_, live, scope⟩
  | objectType | alpha | join | terminal =>
      simp only [NodeKind.key?, Option.some.injEq, reduceCtorEq] at same

end Stands

variable {paths : List (List NodeId)}

/-- Obtaining the alpha nodes of tests. -/
theorem WellFormed.useAlphas {typeName : String} {pattern : Pattern} {earlier : List Condition}
    (tests : List Expr) (within : tests ⊆ pattern.alpha) {network : Network}
    (wellFormed : network.WellFormed)
    {path : List NodeId} (accounted : Accounted network (path :: paths)) {parent : NodeId}
    {done : List Expr}
    (carries : CarriesTests network functions typeName parent done) (member : parent ∈ path) :
    ∃ id longer after, network.useAlphas functions path parent tests = (id, longer, after) ∧
      Extended network paths path functions (earlier ++ [.pattern pattern]) [.pattern pattern]
        longer after ∧
      CarriesTests after functions typeName id (done ++ tests) ∧ id ∈ longer := by
  induction tests generalizing network path parent done with
  | nil =>
      refine ⟨parent, path, network, rfl, .refl wellFormed accounted, ?_, member⟩
      rwa [List.append_nil]
  | cons test rest ih =>
      obtain ⟨id, next, obtained, used⟩ := wellFormed.use accounted
        (.alpha parent test functions) rfl carries.rightFits
        (fun input isInput => by
          simp only [NodeKind.inputs, NodeKind.above?, NodeKind.right?, Option.toList_some,
            Option.toList_none, List.append_nil, List.mem_singleton] at isInput
          exact isInput ▸ member)
      obtain ⟨own, live, scope⟩ := used.stands.alpha
      have first : Extended network paths path functions (earlier ++ [.pattern pattern])
          [.pattern pattern] _ next :=
        used.extended (.alpha (List.prefix_refl _) (within List.mem_cons_self)) live
          ⟨⟨pattern, List.mem_singleton_self _, within List.mem_cons_self⟩, scope⟩
      obtain ⟨last, longer, after, rest, extended, whole, inside⟩ :=
        ih (List.Subset.trans (List.subset_cons_self ..) within) used.wellFormed used.accounted
          (.test (carries.mono first.grown) live scope)
          (List.mem_append_right _ (List.mem_singleton_self id))
      refine ⟨last, longer, after, ?_, first.trans extended, ?_, inside⟩
      · simpa only [Network.useAlphas, obtained] using rest
      · simpa only [List.append_assoc, List.singleton_append] using whole

/-- Obtaining the nodes of a condition. -/
theorem WellFormed.useCondition (wellFormed : network.WellFormed) {path : List NodeId}
    (accounted : Accounted network (path :: paths)) {left : Option NodeId}
    {done : List Condition} (realizes : Realizes network functions left done)
    (member : ∀ id, left = some id → id ∈ path) (condition : Condition) :
    ∃ id longer after, network.useCondition functions path left condition = (id, longer, after) ∧
      Extended network paths path functions (done ++ [condition]) [condition] longer after ∧
      Realizes after functions (some id) (done ++ [condition]) ∧ id ∈ longer := by
  cases condition with
  | pattern pattern =>
      obtain ⟨entry, first, obtainedEntry, usedEntry⟩ := wellFormed.use accounted
        (.objectType pattern.type.fullName) rfl trivial
        (fun input isInput => absurd isInput List.not_mem_nil)
      have toEntry : Extended network paths path functions (done ++ [.pattern pattern])
          [.pattern pattern] _ first :=
        usedEntry.extended (.entry _) usedEntry.stands.objectType
          ⟨pattern, List.mem_singleton_self _, rfl⟩
      obtain ⟨right, longer, second, obtainedAlphas, toRight, carries, rightMember⟩ :=
        usedEntry.wellFormed.useAlphas pattern.alpha (List.Subset.refl _) usedEntry.accounted
          (.entry usedEntry.stands.objectType)
          (List.mem_append_right _ (List.mem_singleton_self entry))
      have upToRight := toEntry.trans toRight
      have before := realizes.mono upToRight.grown
      obtain ⟨id, last, obtained, used⟩ := toRight.wellFormed.use toRight.accounted
        (.join left right pattern.beta pattern.negated functions) rfl
        ⟨before.leftFits, carries.rightFits⟩
        (fun input isInput => by
          rcases NodeKind.mem_inputs.mp isInput with isLeft | isRight
          · exact upToRight.path_subset (member input isLeft)
          · cases isRight
            exact rightMember)
      obtain ⟨own, live, scope⟩ := used.stands.join
      have toJoin : Extended second paths longer functions (done ++ [.pattern pattern])
          [.pattern pattern] _ last :=
        used.extended (.join (List.prefix_refl _) (before.mono used.grown)) live
          ⟨⟨pattern, List.mem_singleton_self _, rfl, rfl⟩, scope⟩
      refine ⟨id, longer ++ [id], last, ?_, upToRight.trans toJoin, ?_,
        List.mem_append_right _ (List.mem_singleton_self id)⟩
      · simp only [Network.useCondition, obtainedEntry, obtainedAlphas, obtained]
      · exact .pattern (before.mono toJoin.grown) (carries.mono toJoin.grown) live scope
  | eval test =>
      obtain ⟨id, after, obtained, used⟩ := wellFormed.use accounted
        (.eval left test functions) rfl realizes.leftFits
        (fun input isInput => by
          rcases NodeKind.mem_inputs.mp isInput with isLeft | isRight
          · exact member input isLeft
          · cases isRight)
      obtain ⟨own, live, scope⟩ := used.stands.eval
      have extended : Extended network paths path functions (done ++ [.eval test]) [.eval test] _
          after :=
        used.extended (.eval (List.prefix_refl _) (realizes.mono used.grown)) live
          ⟨List.mem_singleton_self _, scope⟩
      exact ⟨id, path ++ [id], after, obtained, extended, .eval (realizes.mono extended.grown) live
        scope, List.mem_append_right _ (List.mem_singleton_self id)⟩

/-- Obtaining the nodes of conditions. -/
theorem WellFormed.useConditions (functions : FunctionTable) (conditions : List Condition)
    {network : Network} (wellFormed : network.WellFormed) {path : List NodeId}
    (accounted : Accounted network (path :: paths)) {left : Option NodeId}
    {done : List Condition} (realizes : Realizes network functions left done)
    (member : ∀ id, left = some id → id ∈ path) :
    ∃ last longer after,
      network.useConditions functions path left conditions = (last, longer, after) ∧
      Extended network paths path functions (done ++ conditions) conditions longer after ∧
      Realizes after functions last (done ++ conditions) ∧ ∀ id, last = some id → id ∈ longer := by
  induction conditions generalizing network path left done with
  | nil =>
      refine ⟨left, path, network, rfl, .refl wellFormed accounted, ?_, member⟩
      rwa [List.append_nil]
  | cons condition rest ih =>
      obtain ⟨id, longer, next, obtained, first, here, within⟩ :=
        wellFormed.useCondition accounted realizes member condition
      obtain ⟨last, longest, after, obtainedRest, second, whole, lastWithin⟩ :=
        ih first.wellFormed first.accounted here (fun _ same => Option.some.inj same ▸ within)
      refine ⟨last, longest, after, ?_, ?_, ?_, lastWithin⟩
      · simpa only [Network.useConditions, obtained] using obtainedRest
      · rw [List.append_assoc, List.singleton_append] at second
        exact (first.mono (List.prefix_append_right_inj done |>.mpr (List.prefix_append ..))
          (List.cons_subset.mpr ⟨List.mem_cons_self, List.nil_subset _⟩)).trans
            (second.mono (List.prefix_refl _) (List.subset_cons_self ..))
      · simpa only [List.append_assoc, List.singleton_append] using whole

end Rete.Network
