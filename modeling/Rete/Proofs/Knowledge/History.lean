import Rete.Proofs.Knowledge
import Rete.Proofs.Network.Size
import Rete.Proofs.Network.Trails

/-!
# Knowledge bases after any history

Packages and rules are added to a knowledge base and rules are removed from it, in any order, and
some of these changes are refused (`KnowledgeBase.history`). Whatever rules share its nodes, the
network means each rule that is left as its package means it (`Made.means_history`). The size of the
network depends on nothing but these rules: it is that of a network to which just they are added, in
whatever order (`Made.size_history`).
-/

namespace Rete

/-- The package and the name of a rule, which are those of no other rule in a network. -/
def Rule.identity (rule : Rule) : String × String := (rule.package, rule.name)

namespace Network

variable {network after : Network}

/-! ## Rules that are added one after the other -/

/-- A rule whose package and name are new is added. -/
theorem exists_addRule {rule : Rule} (fresh : network.ruleId? rule.package rule.name = none) :
    ∃ id after, network.addRule rule = .ok (id, after) := by
  unfold addRule
  rw [fresh, Option.isSome_none, if_neg Bool.false_ne_true]
  exact ⟨_, _, rfl⟩

private theorem RuleAdded.members_perm {rule : Rule} {id : RuleId} {entry : RuleEntry}
    (done : RuleAdded network rule id entry after) (sound : network.Sound) :
    after.members.Perm (rule :: network.members) := by
  have unused : network.rules.find? id = none := by
    refine Option.eq_none_iff_forall_ne_some.mpr fun other found => ?_
    exact absurd (sound.rule_lt found) (Nat.not_lt.mpr (Nat.le_of_eq done.isNext.symm))
  have entries := SortedMap.perm_entries_insert unused entry
  rw [← done.rules] at entries
  have rules := (entries.map Prod.snd).map RuleEntry.rule
  rw [List.map_cons, List.map_cons, done.isRule] at rules
  exact rules

/-- The names of the rules that are there stay taken, and one more is taken. -/
theorem RuleAdded.ruleId?_of_ne {rule other : Rule} {id : RuleId} {entry : RuleEntry}
    (done : RuleAdded network rule id entry after) (different : other.identity ≠ rule.identity) :
    after.ruleId? other.package other.name = network.ruleId? other.package other.name := by
  unfold ruleId?
  rw [done.names, List.lookup_cons]
  have unequal : ((other.package, other.name) == (rule.package, rule.name)) = false :=
    beq_eq_false_iff_ne.mpr different
  rw [unequal]

/-- No two rules of a network have the same package and name. -/
theorem Sound.identities_nodup (sound : network.Sound) :
    (network.members.map Rule.identity).Nodup := by
  rw [members, SortedMap.values, List.map_map, List.map_map]
  refine network.rules.ascending.nodup.map_on fun first isFirst second isSecond same => ?_
  have one := sound.names.mpr ⟨first.2, (SortedMap.mem_entries ..).mp isFirst, rfl⟩
  have two := sound.names.mpr ⟨second.2, (SortedMap.mem_entries ..).mp isSecond, same.symm⟩
  exact List.inj_on_of_nodup_map network.rules.nodup_keys isFirst isSecond
    (Option.some.inj (one.symm.trans two))

/-- Rules of different names can be added to a network, whatever their order. -/
theorem Sound.exists_addRules (rules : List Rule) {network : Network} (sound : network.Sound)
    (distinct : (rules.map Rule.identity).Nodup)
    (fresh : ∀ rule ∈ rules, network.ruleId? rule.package rule.name = none) :
    ∃ ids after, KnowledgeBase.addRules network rules = .ok (ids, after) ∧
      after.members.Perm (rules ++ network.members) := by
  induction rules generalizing network with
  | nil => exact ⟨[], network, rfl, .refl _⟩
  | cons rule rest ih =>
      obtain ⟨unnamed, others⟩ := List.forall_mem_cons.mp fresh
      obtain ⟨different, distinctRest⟩ := List.nodup_cons.mp distinct
      obtain ⟨id, mid, added⟩ := exists_addRule unnamed
      obtain ⟨entry, done⟩ := sound.addRule added
      have stillFresh : ∀ other ∈ rest, mid.ruleId? other.package other.name = none := by
        intro other member
        rw [done.ruleId?_of_ne fun same => different (same ▸ List.mem_map_of_mem member)]
        exact others other member
      obtain ⟨ids, after, later, isPerm⟩ := ih done.sound distinctRest stillFresh
      have middle := (done.members_perm sound).append_left rest
      exact ⟨id :: ids, after,
        KnowledgeBase.addRules_cons.mpr ⟨id, mid, ids, added, later, rfl⟩,
        isPerm.trans (middle.trans List.perm_middle)⟩

/-- A network is as large as one to which its rules were added in another order. -/
theorem Composed.exists_rebuilt {origin : Rule → Prop} (composed : network.Composed origin)
    {rules : List Rule} (same : rules.Perm network.members) : ∃ ids fresh,
      KnowledgeBase.addRules {} rules = .ok (ids, fresh) ∧ fresh.members.Perm rules ∧
        fresh.nodeCount = network.nodeCount ∧ fresh.summary = network.summary := by
  have distinct : (rules.map Rule.identity).Nodup :=
    (same.map Rule.identity).nodup_iff.mpr composed.sound.identities_nodup
  obtain ⟨ids, fresh, added, isPerm⟩ :=
    sound_empty.exists_addRules rules distinct fun _ _ => rfl
  have members : fresh.members.Perm rules := by
    rw [← List.append_nil rules]
    exact isPerm
  have start : ({} : Network).Composed fun _ => True := .empty
  have isComposed := KnowledgeBase.composed_addRules (fun _ _ => trivial) start added
  obtain ⟨count, summary⟩ := isComposed.sound.size_eq_of_perm isComposed.drawn composed.sound
    composed.drawn (members.trans same)
  exact ⟨ids, fresh, added, members, count, summary⟩

end Network

namespace KnowledgeBase

variable {base after : KnowledgeBase}

/-! ## Changes -/

/-- A change of a knowledge base. -/
inductive Change where
  | addPackage (declared : PackageDecl)
  | addRule (package : String) (declared : RuleDecl)
  | removeRule (id : RuleId)
  deriving Inhabited

/-- The knowledge base after a change. One that is refused changes nothing. -/
def alter (base : KnowledgeBase) : Change → KnowledgeBase
  | .addPackage declared =>
    match base.addPackage declared with
    | .ok (_, after) => after
    | .error _ => base
  | .addRule package declared =>
    match base.addRule package declared with
    | .ok (_, after) => after
    | .error _ => base
  | .removeRule id =>
    match base.removeRule id with
    | some (_, after) => after
    | none => base

/-- The knowledge base after changes, one after the other. -/
def history (base : KnowledgeBase) (changes : List Change) : KnowledgeBase :=
  changes.foldl alter base

private theorem history_append (base : KnowledgeBase) (earlier later : List Change) :
    base.history (earlier ++ later) = (base.history earlier).history later :=
  List.foldl_append ..

private theorem Made.alter (made : base.Made) (change : Change) : (base.alter change).Made := by
  cases change with
  | addPackage declared =>
      cases added : base.addPackage declared with
      | error problems =>
          simp only [KnowledgeBase.alter, added]
          exact made
      | ok result =>
          simp only [KnowledgeBase.alter, added]
          exact .addPackage made added
  | addRule package declared =>
      cases added : base.addRule package declared with
      | error problems =>
          simp only [KnowledgeBase.alter, added]
          exact made
      | ok result =>
          simp only [KnowledgeBase.alter, added]
          exact .addRule made added
  | removeRule id =>
      cases removed : base.removeRule id with
      | none =>
          simp only [KnowledgeBase.alter, removed]
          exact made
      | some result =>
          simp only [KnowledgeBase.alter, removed]
          exact .removeRule made removed

/-- A knowledge base stays one whatever is changed. -/
theorem Made.history (made : base.Made) (changes : List Change) : (base.history changes).Made := by
  induction changes generalizing base with
  | nil => exact made
  | cons change rest ih => exact ih (made.alter change)

/-- After a rule was removed it is not there, and no rule has come. -/
theorem Made.find?_alter_removeRule (made : base.Made) (id other : RuleId) :
    (base.alter (.removeRule id)).network.rules.find? other =
      if other = id then none else base.network.rules.find? other := by
  cases removed : base.removeRule id with
  | none =>
      have absent : base.network.rules.find? id = none :=
        Option.map_eq_none_iff.mp (Option.map_eq_none_iff.mp removed)
      simp only [KnowledgeBase.alter, removed]
      split
      · next same => exact same ▸ absent
      · rfl
  | some result =>
      obtain ⟨⟨rule, network⟩, isRemoved, rfl⟩ := Option.map_eq_some_iff.mp removed
      obtain ⟨entry, done⟩ := made.compiled.network.sound.removeRule isRemoved
      simp only [KnowledgeBase.alter, removed]
      rw [done.rules, SortedMap.find?_erase_eq]

/-- After rules were removed one after the other, they are not there. -/
theorem Made.find?_history_removeRule (made : base.Made) (ids : List RuleId) (other : RuleId) :
    (base.history (ids.map .removeRule)).network.rules.find? other =
      if other ∈ ids then none else base.network.rules.find? other := by
  induction ids generalizing base with
  | nil =>
      rw [if_neg List.not_mem_nil]
      rfl
  | cons id rest ih =>
      have first := made.find?_alter_removeRule id other
      refine (ih (made.alter _)).trans ?_
      rw [first]
      by_cases here : other = id
      · rw [if_pos here, ite_self, if_pos (here ▸ List.mem_cons_self)]
      · rw [if_neg here]
        simp only [List.mem_cons, here, false_or]

/-- Nothing is left when all rules were removed. -/
theorem Made.bare_of_removed (made : base.Made) {ids : List RuleId}
    (all : base.network.rules.keys ⊆ ids) :
    let bare := (base.history (ids.map .removeRule)).network
    bare.nodes = ∅ ∧ bare.nodeCount = 0 ∧ bare.objectTypes = ∅ ∧ bare.rootChildren = [] := by
  have after := made.history (ids.map .removeRule)
  refine after.compiled.network.sound.bare fun id => ?_
  rw [made.find?_history_removeRule]
  by_cases removed : id ∈ ids
  · exact if_pos removed
  · rw [if_neg removed]
    refine SortedMap.contains_eq_false.mp (Bool.eq_false_iff.mpr fun here => ?_)
    exact removed (all (SortedMap.mem_keys.mpr here))

/-! ## The meaning and the size of the network -/

/-- A rule that is there was compiled in a package, and its nodes mean what the rule says with the
functions of this package. -/
theorem Made.means_history (made : base.Made) (changes : List Change) {id : RuleId}
    {entry : RuleEntry} (found : (base.history changes).network.rules.find? id = some entry) :
    ∃ name scope, (base.history changes).Owns name scope entry.rule ∧
      entry.rule.package = (QualifiedName.ofText name).text ∧
      (base.history changes).network.Means scope.functions id entry := by
  have now := made.history changes
  obtain ⟨name, scope, isScope, declared, compiled⟩ := now.compiled.network.origin_of_found found
  obtain ⟨package, rfl, -, rfl⟩ := now.compiled.packages isScope
  obtain ⟨functions, -⟩ := RuleDecl.scoped_of_compile compiled
  refine ⟨package.name, _, ⟨isScope, declared, compiled⟩, ?_, ?_⟩
  · rw [RuleDecl.package_of_compile compiled, PackageDecl.package_compile]
  · rw [← functions]
    exact now.proper.network.sound.means found fun live isOwn same =>
      (now.proper.network.node live isOwn).unique (now.proper.network.rule found).2 same

/-- The network is as large as one to which only the rules that are left were added, in whatever
order; and when all rules were removed nothing is left of it. -/
theorem Made.size_history (made : base.Made) (changes : List Change) :
    let network := (base.history changes).network
    network.nodeCount = network.nodes.size ∧
    (∀ rules : List Rule, rules.Perm network.members → ∃ ids fresh,
      addRules {} rules = .ok (ids, fresh) ∧ fresh.members.Perm rules ∧
        fresh.nodeCount = network.nodeCount ∧ fresh.summary = network.summary) ∧
    ∀ ids : List RuleId, network.rules.keys ⊆ ids →
      let bare := (base.history (changes ++ ids.map .removeRule)).network
      bare.nodes = ∅ ∧ bare.nodeCount = 0 ∧ bare.objectTypes = ∅ ∧ bare.rootChildren = [] := by
  have now := made.history changes
  have composed := now.compiled.network
  refine ⟨composed.sound.wellFormed.nodeCount_eq, fun rules same => ?_, fun ids all => ?_⟩
  · exact composed.exists_rebuilt same
  · rw [history_append]
    exact now.bare_of_removed all

end KnowledgeBase

/-! ## A market of two stalls -/

namespace Market

/-- A type with a price. -/
def cheese : TypeDef := { name := ⟨["app", "Cheese"]⟩, fields := [.ofType "price" .int] }

/-- A cheese that is cheap, unless there is one for nothing. -/
def bargain (name : String) : RuleDecl :=
  { name
    conditions :=
      [.pattern
          { typeName := "Cheese"
            constraints :=
              [.test (.binary .gt (.name "price") (.literal (.int 0))),
                .test (.call "cheap" [.name "price"])] },
        .absent
          { typeName := "Cheese"
            constraints := [.test (.binary .le (.name "price") (.literal (.int 0)))] }] }

/-- Any cheese that costs something. -/
def priced : RuleDecl :=
  { name := "priced"
    conditions :=
      [.pattern
          { typeName := "Cheese"
            constraints := [.test (.binary .gt (.name "price") (.literal (.int 0)))] }] }

/-- A stall where cheeses below a price are cheap. -/
def stall (name : String) (below : Int64) : PackageDecl :=
  { name
    imports := [.type "app.Cheese" {}]
    functions :=
      [{ name := "cheap"
         params := [("price", "int")]
         returnType := "boolean"
         body := .binary .lt (.name "price") (.literal (.int below)) }]
    rules := [bargain "bargain"] }

/-- The result of building the two packages. -/
def built : Except (List Diagnostic) KnowledgeBase :=
  KnowledgeBase.build ⟨SortedMap.insert ∅ "app.Cheese" cheese⟩
    [stall "north" 10, stall "south" 20]

/-- The knowledge base of two stalls. -/
def base : KnowledgeBase := built.toOption.getD default

/-- The two packages do build. -/
theorem made : base.Made := .built (eq_ok_getD (by decide +kernel : built.toOption.isSome = true))

/-- A third stall comes, and the rule of the first one goes and comes back under another name. Names
that are taken, a package that is not there and an id that is not known are refused. -/
def changes : List KnowledgeBase.Change :=
  [.addPackage (stall "east" 30), .removeRule 0, .addRule "north" priced,
    .addRule "south" (bargain "bargain"), .addRule "west" priced, .removeRule 7,
    .addRule "north" (bargain "again"), .addPackage (stall "east" 40)]

/-- The stalls share what does not depend on what is cheap to them, in whatever order they come. -/
theorem size_of_market : base.Made ∧
    (base.history changes).network.members.map Rule.qualifiedName =
      ["south.bargain", "east.bargain", "north.priced", "north.again"] ∧
    (base.history changes).network.nodeCount = 17 ∧
    (∃ ids fresh, KnowledgeBase.addRules {} (base.history changes).network.members.reverse =
      .ok (ids, fresh) ∧ fresh.nodeCount = 17) ∧
    (base.history (changes ++ [1, 2, 3, 4].map .removeRule)).network.nodes = ∅ := by
  obtain ⟨-, again, gone⟩ := KnowledgeBase.Made.size_history made changes
  have present : (base.history changes).network.rules.keys = [1, 2, 3, 4] := by decide +kernel
  have count : (base.history changes).network.nodeCount = 17 := by decide +kernel
  refine ⟨made, by decide +kernel, count, ?_, (gone [1, 2, 3, 4] ?_).1⟩
  · obtain ⟨ids, fresh, added, -, same, -⟩ := again _ (List.reverse_perm _)
    exact ⟨ids, fresh, added, same.trans count⟩
  · rw [present]
    exact List.Subset.refl _

/-- The rule that came back asks what is cheap in the north, whatever it shares with the others. -/
theorem again_means : base.Made ∧ ∃ entry,
    (base.history changes).network.rules.find? 4 = some entry ∧
    entry.rule.qualifiedName = "north.again" ∧
    (entry.rule.patterns.map fun pattern => pattern.alpha.map Expr.callsLocal) =
      [[false, true], [false]] ∧
    ∃ name scope, (base.history changes).Owns name scope entry.rule ∧
      "north" = (QualifiedName.ofText name).text ∧
      (base.history changes).network.Means scope.functions 4 entry := by
  have isThere : ((base.history changes).network.rules.find? 4).isSome = true := by decide +kernel
  obtain ⟨entry, found⟩ := Option.isSome_iff_exists.mp isThere
  have described : ((base.history changes).network.rule? 4).map (fun rule =>
      (rule.package, rule.qualifiedName,
        rule.patterns.map fun pattern => pattern.alpha.map Expr.callsLocal)) =
      some ("north", "north.again", [[false, true], [false]]) := by
    decide +kernel
  rw [Network.rule?, found] at described
  obtain ⟨package, rest⟩ := Prod.mk.inj (Option.some.inj described)
  obtain ⟨qualified, calls⟩ := Prod.mk.inj rest
  obtain ⟨name, scope, owns, isPackage, means⟩ :=
    KnowledgeBase.Made.means_history made changes found
  exact ⟨made, entry, found, qualified, calls, name, scope, owns, package.symm.trans isPackage,
    means⟩

end Market

end Rete
