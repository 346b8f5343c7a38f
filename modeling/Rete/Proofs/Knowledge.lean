import Rete.Knowledge
import Rete.Proofs.Network.Scoping

/-!
# How knowledge bases come about

A knowledge base is built from packages; packages and rules may be added to it later, and rules
removed (`KnowledgeBase.Made`). Whatever the order, its packages are compiled ones and its network
is made of rules that were compiled in them (`Made.compiled`). So the network is sound, a function
table that a node or a rule refers to is that of a package (`Made.proper`), and everything that they
refer to is there (`Proper.scoped`).
-/

namespace Rete

/-! ## Networks of rules -/

/-- A sound network whose function tables are among given ones. -/
structure Network.Proper (provided : FunctionTable → Prop) (network : Network) : Prop where
  sound : network.Sound
  placed : network.Placed
  node : ∀ {id kind own}, network.kind? id = some kind → kind.table? = some own → provided own
  rule : ∀ {id entry}, network.rules.find? id = some entry →
    entry.rule.Scoped ∧ provided entry.rule.functions

namespace Network.Proper

variable {provided : FunctionTable → Prop} {network after : Network}

private theorem empty : ({} : Network).Proper provided where
  sound := sound_empty
  placed := placed_empty
  node live := by cases live
  rule found := by cases found

private theorem addRule (proper : network.Proper provided) {rule : Rule} {id : RuleId}
    (isScoped : rule.Scoped) (isProvided : provided rule.functions)
    (added : network.addRule rule = .ok (id, after)) : after.Proper provided := by
  obtain ⟨entry, ruleAdded⟩ := proper.sound.addRule added
  refine ⟨ruleAdded.sound, proper.placed.addRule isScoped ruleAdded,
    fun {node kind own} live isOwn => ?_, fun {other found} isFound => ?_⟩
  · rcases ruleAdded.new live with old | isTerminal | serves
    · exact proper.node old isOwn
    · cases kind with
      | terminal => cases isOwn
      | objectType | alpha | join | eval => cases isTerminal
    · exact serves.table? isOwn ▸ isProvided
  · rw [ruleAdded.rules, SortedMap.find?_insert_eq] at isFound
    by_cases same : other = id
    · rw [if_pos same] at isFound
      cases isFound
      rw [ruleAdded.isRule]
      exact ⟨isScoped, isProvided⟩
    · rw [if_neg same] at isFound
      exact proper.rule isFound

private theorem removeRule (proper : network.Proper provided) {rule : Rule} {id : RuleId}
    (removed : network.removeRule id = some (rule, after)) : after.Proper provided := by
  obtain ⟨entry, ruleRemoved⟩ := proper.sound.removeRule removed
  refine ⟨ruleRemoved.sound, proper.placed.removeRule ruleRemoved,
    fun {node kind own} live isOwn => ?_, fun {other found} isFound => ?_⟩
  · exact proper.node (ruleRemoved.old live) isOwn
  · rw [ruleRemoved.rules, SortedMap.find?_erase_eq] at isFound
    by_cases same : other = id
    · rw [if_pos same] at isFound
      cases isFound
    · rw [if_neg same] at isFound
      exact proper.rule isFound

end Network.Proper

/-- A network made of well-scoped rules is proper. -/
theorem Network.Composed.proper {origin : Rule → Prop} {provided : FunctionTable → Prop}
    {network : Network} (composed : network.Composed origin)
    (each : ∀ {rule}, origin rule → rule.Scoped ∧ provided rule.functions) :
    network.Proper provided := by
  induction composed with
  | empty => exact .empty
  | add _ isOrigin added ih => exact ih.addRule (each isOrigin).1 (each isOrigin).2 added
  | remove _ removed ih => exact ih.removeRule removed

/-! ## Knowledge bases -/

/-- A rule was compiled against a scope. -/
def PackageScope.Compiles (scope : PackageScope) (rule : Rule) : Prop :=
  ∃ declared : RuleDecl, declared.compile scope.table scope.functions = .ok rule

namespace KnowledgeBase

/-- A function table is that of a package. -/
def Provides (base : KnowledgeBase) (own : FunctionTable) : Prop :=
  ∃ scope, base.packages.find? own.package = some scope ∧ scope.functions = own

/-- The network is that of rules of the packages. -/
structure Proper (base : KnowledgeBase) : Prop where
  network : base.network.Proper base.Provides
  scopes : ∀ {name scope}, base.packages.find? name = some scope →
    scope.functions.package = name ∧ scope.Complete

/-- A rule was compiled in the scope of a package. -/
def Owns (base : KnowledgeBase) (name : String) (scope : PackageScope) (rule : Rule) : Prop :=
  base.packages.find? name = some scope ∧ scope.Compiles rule

/-- The packages are compiled ones, and the network is made of rules that were compiled in them. -/
structure Compiled (base : KnowledgeBase) : Prop where
  packages : ∀ {name scope}, base.packages.find? name = some scope → ∃ declared : PackageDecl,
    declared.name = name ∧ hasErrors (declared.compile base.catalog).2 = false ∧
      (declared.compile base.catalog).1.scope = scope
  network : base.network.Composed fun rule => ∃ name scope, base.Owns name scope rule

/-- A knowledge base that was built and changed without errors. -/
inductive Made : KnowledgeBase → Prop
  | built {catalog : Catalog} {packages : List PackageDecl} {base : KnowledgeBase}
      (built : build catalog packages = .ok base) : Made base
  | addPackage {base after : KnowledgeBase} {declared : PackageDecl} {ids : List RuleId}
      (made : Made base) (added : base.addPackage declared = .ok (ids, after)) : Made after
  | addRule {base after : KnowledgeBase} {package : String} {declared : RuleDecl}
      {id? : Option RuleId} (made : Made base)
      (added : base.addRule package declared = .ok (id?, after)) : Made after
  | removeRule {base after : KnowledgeBase} {id : RuleId} {rule : Rule} (made : Made base)
      (removed : base.removeRule id = some (rule, after)) : Made after

end KnowledgeBase

namespace KnowledgeBuilder

/-- The packages are compiled ones under different names, and none of them had errors unless there
are errors. -/
structure Compiled (builder : KnowledgeBuilder) : Prop where
  packages : ∀ package ∈ builder.packages, ∃ declared : PackageDecl,
    (declared.compile builder.catalog).1 = package ∧
      (hasErrors builder.problems = false → hasErrors (declared.compile builder.catalog).2 = false)
  distinct : (builder.packages.map Package.name).Nodup

private theorem Compiled.addPackage {builder : KnowledgeBuilder} (compiled : builder.Compiled)
    (declared : PackageDecl) : (builder.addPackage declared).Compiled := by
  unfold KnowledgeBuilder.addPackage
  dsimp only
  split
  · refine ⟨fun package member => ?_, compiled.distinct⟩
    obtain ⟨own, isOwn, clean⟩ := compiled.packages package member
    refine ⟨own, isOwn, fun none => clean ?_⟩
    simp only [hasErrors_append, Bool.or_eq_false_iff] at none
    exact none.1.1
  · next new =>
      refine ⟨fun package member => ?_, ?_⟩
      · rcases List.mem_append.mp member with earlier | here
        · obtain ⟨own, isOwn, clean⟩ := compiled.packages package earlier
          refine ⟨own, isOwn, fun none => clean ?_⟩
          simp only [hasErrors_append, Bool.or_eq_false_iff] at none
          exact none.1.1
        · refine ⟨declared, (List.mem_singleton.mp here).symm, fun none => ?_⟩
          simp only [hasErrors_append, Bool.or_eq_false_iff] at none
          exact none.1.2
      · rw [List.map_append, List.map_singleton, List.nodup_append]
        refine ⟨compiled.distinct, List.nodup_singleton _, fun name member other isOther same => ?_⟩
        obtain ⟨package, present, rfl⟩ := List.mem_map.mp member
        rw [List.mem_singleton.mp isOther] at same
        exact new (List.any_eq_true.mpr ⟨package, present, beq_iff_eq.mpr same⟩)

private theorem Compiled.foldl {builder : KnowledgeBuilder} (compiled : builder.Compiled)
    (packages : List PackageDecl) :
    (packages.foldl KnowledgeBuilder.addPackage builder).Compiled := by
  induction packages generalizing builder with
  | nil => exact compiled
  | cons declared rest ih => exact ih (compiled.addPackage declared)

/-- A builder to which packages were added holds what they compile to. -/
theorem compiled_of_packages (catalog : Catalog) (packages : List PackageDecl) :
    (packages.foldl KnowledgeBuilder.addPackage { catalog }).Compiled := by
  have start : KnowledgeBuilder.Compiled { catalog } :=
    ⟨fun _ none => absurd none List.not_mem_nil, List.nodup_nil⟩
  exact start.foldl packages

/-- What the packages are found by is their names. -/
theorem Compiled.find?_packages {builder : KnowledgeBuilder} (compiled : builder.Compiled)
    {name : String} {scope : PackageScope} :
    (SortedMap.ofList (builder.packages.map fun package => (package.name, package.scope))).find?
        name = some scope ↔
      ∃ package ∈ builder.packages, package.name = name ∧ package.scope = scope := by
  rw [SortedMap.find?_ofList (by rw [List.map_map]; exact compiled.distinct)]
  simp only [List.mem_map, Prod.mk.injEq]

/-- The rules of a package are added to what the network is made of. -/
theorem composed_addRules {origin : Rule → Prop} {network : Network}
    (composed : network.Composed origin) {package : Package}
    (each : ∀ rule ∈ package.rules, origin rule) :
    (addRules network package).1.Composed origin := by
  unfold addRules
  apply List.foldlRecOn (motive := fun state : Network × List Diagnostic =>
    state.1.Composed origin)
  · exact composed
  · intro state before rule member
    dsimp only
    split
    · next added => exact .add before (each rule (List.mem_filter.mp member).1) added
    · exact before

private theorem Compiled.build {builder : KnowledgeBuilder} (compiled : builder.Compiled)
    {base : KnowledgeBase} (built : builder.build = .ok base) : base.Compiled := by
  unfold KnowledgeBuilder.build at built
  split at built
  · cases built
  next noErrors =>
  have clean := Bool.eq_false_iff.mpr noErrors
  dsimp only at built
  split at built
  · cases built
    refine ⟨fun {name scope} found => ?_, ?_⟩
    · obtain ⟨package, member, rfl, rfl⟩ := compiled.find?_packages.mp found
      obtain ⟨declared, rfl, noProblem⟩ := compiled.packages package member
      exact ⟨declared, rfl, noProblem clean, rfl⟩
    · refine List.foldlRecOn (motive := fun state : Network × List Diagnostic =>
        state.1.Composed _) _ _ .empty fun state before package member => ?_
      refine composed_addRules before fun rule isRule => ?_
      refine ⟨package.name, package.scope,
        compiled.find?_packages.mpr ⟨package, member, rfl, rfl⟩, ?_⟩
      obtain ⟨declared, rfl, -⟩ := compiled.packages package member
      obtain ⟨own, -, isOwn⟩ := PackageDecl.compiled_of_mem_rules isRule
      exact ⟨own, isOwn⟩
  · cases built

end KnowledgeBuilder

namespace KnowledgeBase

variable {base after : KnowledgeBase}

/-- A knowledge base has the catalog that it was built for. -/
theorem catalog_of_build {catalog : Catalog} {packages : List PackageDecl}
    (built : build catalog packages = .ok base) : base.catalog = catalog := by
  have same : ∀ (packages : List PackageDecl) (builder : KnowledgeBuilder),
      (packages.foldl KnowledgeBuilder.addPackage builder).catalog = builder.catalog := by
    intro packages
    induction packages with
    | nil => exact fun _ => rfl
    | cons declared rest ih =>
        intro builder
        refine (ih _).trans ?_
        unfold KnowledgeBuilder.addPackage
        dsimp only
        split <;> rfl
  rw [build, KnowledgeBuilder.build] at built
  split at built
  · cases built
  · dsimp only at built
    split at built
    · cases built
      exact same packages { catalog }
    · cases built

/-- Adding rules adds one after the other. -/
theorem addRules_cons {network last : Network} {rule : Rule} {rest : List Rule}
    {ids : List RuleId} :
    addRules network (rule :: rest) = .ok (ids, last) ↔ ∃ id mid others,
      network.addRule rule = .ok (id, mid) ∧ addRules mid rest = .ok (others, last) ∧
        ids = id :: others := by
  rw [addRules]
  constructor
  · intro added
    cases isAdded : network.addRule rule with
    | error problem =>
        rw [isAdded] at added
        cases added
    | ok step =>
        obtain ⟨id, mid⟩ := step
        simp only [isAdded] at added
        cases later : addRules mid rest with
        | error problems =>
            rw [later] at added
            cases added
        | ok step =>
            rw [later] at added
            cases added
            exact ⟨id, mid, step.1, rfl, later, rfl⟩
  · rintro ⟨id, mid, others, isAdded, later, rfl⟩
    simp only [isAdded, later]
    rfl

/-- Adding rules to a network composes it of them. -/
theorem composed_addRules {origin : Rule → Prop} {rules : List Rule}
    (each : ∀ rule ∈ rules, origin rule) {network last : Network}
    (composed : network.Composed origin) {ids : List RuleId}
    (added : addRules network rules = .ok (ids, last)) : last.Composed origin := by
  induction rules generalizing network ids with
  | nil =>
      cases added
      exact composed
  | cons rule rest ih =>
      obtain ⟨isOrigin, others⟩ := List.forall_mem_cons.mp each
      obtain ⟨id, mid, issued, isAdded, later, -⟩ := addRules_cons.mp added
      exact ih others (.add composed isOrigin isAdded) later

/-- Rules are added one list after the other. -/
theorem addRules_append {network last : Network} {first second : List Rule} {ids : List RuleId} :
    addRules network (first ++ second) = .ok (ids, last) ↔ ∃ mid earlier later,
      addRules network first = .ok (earlier, mid) ∧ addRules mid second = .ok (later, last) ∧
        ids = earlier ++ later := by
  induction first generalizing network ids with
  | nil =>
      constructor
      · exact fun added => ⟨network, [], ids, rfl, added, rfl⟩
      · rintro ⟨mid, earlier, later, none, added, rfl⟩
        cases none
        exact added
  | cons rule rest ih =>
      rw [List.cons_append, addRules_cons]
      constructor
      · rintro ⟨id, mid, others, added, ofRest, rfl⟩
        obtain ⟨middle, earlier, later, first, second, rfl⟩ := ih.mp ofRest
        exact ⟨middle, id :: earlier, later, addRules_cons.mpr
          ⟨id, mid, earlier, added, first, rfl⟩,
          second, rfl⟩
      · rintro ⟨middle, earlier, later, ofFirst, second, rfl⟩
        obtain ⟨id, mid, others, added, first, rfl⟩ := addRules_cons.mp ofFirst
        exact ⟨id, mid, others ++ later, added, ih.mpr ⟨middle, others, later, first, second, rfl⟩,
          rfl⟩

/-- What adding a package does: it is compiled, its name is new, none of its globals has another
type elsewhere, and its enabled rules are added. -/
structure PackageAdded (base : KnowledgeBase) (declared : PackageDecl) (ids : List RuleId)
    (after : KnowledgeBase) : Prop where
  clean : hasErrors (declared.compile base.catalog).2 = false
  fresh : base.packages.find? declared.name = none
  globals : base.globals.merge (declared.compile base.catalog).1 = (after.globals, [])
  rules : addRules base.network ((declared.compile base.catalog).1.rules.filter Rule.enabled) =
    .ok (ids, after.network)
  packages : after.packages =
    base.packages.insert declared.name (declared.compile base.catalog).1.scope
  catalog : after.catalog = base.catalog

/-- A package is added exactly if all the checks on the way pass. -/
theorem addPackage_eq_ok {declared : PackageDecl} {ids : List RuleId} :
    base.addPackage declared = .ok (ids, after) ↔ PackageAdded base declared ids after := by
  have named : (declared.compile base.catalog).1.name = declared.name := rfl
  unfold KnowledgeBase.addPackage
  dsimp only
  constructor
  · intro added
    split at added
    · cases added
    next noErrors =>
    split at added
    · cases added
    next new =>
    split at added
    · cases added
    next agree =>
    cases listed : addRules base.network
      ((declared.compile base.catalog).1.rules.filter Rule.enabled) with
    | error problems =>
        rw [listed] at added
        cases added
    | ok step =>
        rw [listed] at added
        cases added
        have noClash : (base.globals.merge (declared.compile base.catalog).1).2 = [] := by
          simpa using agree
        exact ⟨Bool.eq_false_iff.mpr noErrors,
          SortedMap.contains_eq_false.mp (Bool.eq_false_iff.mpr new), Prod.ext rfl noClash, listed,
          rfl, rfl⟩
  · intro done
    rw [done.clean, named, SortedMap.contains_eq_false.mpr done.fresh, done.globals, done.rules,
      ← done.packages, ← done.catalog]
    rfl

/-- What is known when a package was added. -/
theorem packageAdded {declared : PackageDecl} {ids : List RuleId}
    (added : base.addPackage declared = .ok (ids, after)) :
    PackageAdded base declared ids after :=
  addPackage_eq_ok.mp added

/-- Adding a list of one rule is adding the rule. -/
theorem addRules_singleton {network last : Network} {rule : Rule} {ids : List RuleId} :
    addRules network [rule] = .ok (ids, last) ↔
      ∃ id, network.addRule rule = .ok (id, last) ∧ ids = [id] := by
  rw [addRules_cons]
  constructor
  · rintro ⟨id, mid, others, added, none, rfl⟩
    cases none
    exact ⟨id, added, rfl⟩
  · rintro ⟨id, added, rfl⟩
    exact ⟨id, last, [], added, rfl, rfl⟩

/-- A rule is compiled in the scope of its package, and added if it is enabled. -/
theorem addRule_eq_ok {package : String} {declared : RuleDecl} {id? : Option RuleId} :
    base.addRule package declared = .ok (id?, after) ↔ ∃ scope rule ids network,
      base.packages.find? package = some scope ∧
      declared.compile scope.table scope.functions = .ok rule ∧
      addRules base.network ([rule].filter Rule.enabled) = .ok (ids, network) ∧
      id? = ids.head? ∧ after = { base with network } := by
  unfold KnowledgeBase.addRule
  constructor
  · intro added
    cases found : base.packages.find? package with
    | none =>
        rw [found] at added
        cases added
    | some scope =>
        simp only [found] at added
        cases compiled : declared.compile scope.table scope.functions with
        | error problems =>
            rw [compiled] at added
            cases added
        | ok rule =>
            simp only [compiled, Except.bind, bind] at added
            cases enabled : rule.enabled with
            | false =>
                simp only [enabled, Bool.false_eq_true, ↓reduceIte] at added
                cases added
                refine ⟨scope, rule, [], base.network, rfl, compiled, ?_, rfl, rfl⟩
                rw [List.filter_singleton, enabled]
                rfl
            | true =>
                simp only [enabled, ↓reduceIte] at added
                cases isAdded : base.network.addRule rule with
                | error problem =>
                    rw [isAdded] at added
                    cases added
                | ok step =>
                    rw [isAdded] at added
                    cases added
                    refine ⟨scope, rule, [step.1], step.2, rfl, compiled, ?_, rfl, rfl⟩
                    rw [List.filter_singleton, enabled]
                    exact addRules_singleton.mpr ⟨step.1, isAdded, rfl⟩
  · rintro ⟨scope, rule, ids, network, found, compiled, added, rfl, rfl⟩
    rw [List.filter_singleton] at added
    simp only [found, compiled, Except.bind, bind]
    cases enabled : rule.enabled with
    | false =>
        rw [enabled] at added
        cases added
        rfl
    | true =>
        rw [enabled] at added
        obtain ⟨id, isAdded, rfl⟩ := addRules_singleton.mp added
        simp only [↓reduceIte, isAdded]
        rfl

/-- What adding a rule does: it is compiled in the scope of its package, and added if enabled. -/
structure RuleAdded (base : KnowledgeBase) (package : String) (declared : RuleDecl)
    (after : KnowledgeBase) : Prop where
  rule : ∃ scope rule, base.packages.find? package = some scope ∧
    declared.compile scope.table scope.functions = .ok rule ∧
    (after.network = base.network ∨ ∃ id, base.network.addRule rule = .ok (id, after.network))
  packages : after.packages = base.packages
  catalog : after.catalog = base.catalog

private theorem ruleAdded {package : String} {declared : RuleDecl} {id? : Option RuleId}
    (added : base.addRule package declared = .ok (id?, after)) :
    RuleAdded base package declared after := by
  obtain ⟨scope, rule, ids, network, found, compiled, ofRule, -, rfl⟩ := addRule_eq_ok.mp added
  refine ⟨⟨scope, rule, found, compiled, ?_⟩, rfl, rfl⟩
  rw [List.filter_singleton] at ofRule
  cases enabled : rule.enabled with
  | false =>
      rw [enabled] at ofRule
      cases ofRule
      exact .inl rfl
  | true =>
      rw [enabled] at ofRule
      obtain ⟨id, isAdded, -⟩ := addRules_singleton.mp ofRule
      exact .inr ⟨id, isAdded⟩

namespace Compiled

private theorem addPackage (compiled : base.Compiled) {declared : PackageDecl} {ids : List RuleId}
    (added : base.addPackage declared = .ok (ids, after)) : after.Compiled := by
  have done := packageAdded added
  have stays : ∀ {name scope}, base.packages.find? name = some scope →
      after.packages.find? name = some scope := by
    intro name scope found
    rw [done.packages, SortedMap.find?_insert_eq, if_neg]
    · exact found
    · rintro rfl
      cases done.fresh.symm.trans found
  refine ⟨fun {name scope} found => ?_, ?_⟩
  · rw [done.catalog]
    rw [done.packages, SortedMap.find?_insert_eq] at found
    by_cases same : name = declared.name
    · rw [if_pos same] at found
      exact ⟨declared, same.symm, done.clean, Option.some.inj found⟩
    · rw [if_neg same] at found
      exact compiled.packages found
  · refine composed_addRules (fun rule member => ?_) (compiled.network.mono ?_) done.rules
    · obtain ⟨own, -, isOwn⟩ := PackageDecl.compiled_of_mem_rules (List.mem_filter.mp member).1
      refine ⟨declared.name, (declared.compile base.catalog).1.scope, ?_, own, isOwn⟩
      rw [done.packages, SortedMap.find?_insert_eq, if_pos rfl]
    · exact fun ⟨name, scope, found, compiles⟩ => ⟨name, scope, stays found, compiles⟩

/-- A network of rules of the packages, when the packages stay. -/
theorem of_network (compiled : base.Compiled) (packages : after.packages = base.packages)
    (catalog : after.catalog = base.catalog)
    (network : after.network.Composed fun rule => ∃ name scope, base.Owns name scope rule) :
    after.Compiled := by
  refine ⟨fun found => ?_, network.mono fun ⟨name, scope, found, compiles⟩ => ?_⟩
  · rw [packages] at found
    exact catalog ▸ compiled.packages found
  · exact ⟨name, scope, packages ▸ found, compiles⟩

private theorem addRule (compiled : base.Compiled) {package : String} {declared : RuleDecl}
    {id? : Option RuleId} (added : base.addRule package declared = .ok (id?, after)) :
    after.Compiled := by
  obtain ⟨⟨scope, rule, found, isRule, stays | ⟨id, isAdded⟩⟩, packages, catalog⟩ :=
    ruleAdded added
  · exact compiled.of_network packages catalog (stays ▸ compiled.network)
  · exact compiled.of_network packages catalog
      (.add compiled.network ⟨package, scope, found, declared, isRule⟩ isAdded)

private theorem removeRule (compiled : base.Compiled) {id : RuleId} {rule : Rule}
    (removed : base.removeRule id = some (rule, after)) : after.Compiled := by
  obtain ⟨⟨other, network⟩, isRemoved, same⟩ := Option.map_eq_some_iff.mp removed
  cases same
  exact compiled.of_network rfl rfl (.remove compiled.network isRemoved)

private theorem proper (compiled : base.Compiled) : base.Proper := by
  have scopes : ∀ {name scope}, base.packages.find? name = some scope →
      scope.functions.package = name ∧ scope.Complete := by
    intro name scope found
    obtain ⟨declared, rfl, clean, rfl⟩ := compiled.packages found
    exact ⟨rfl, PackageDecl.complete_compile clean⟩
  refine ⟨compiled.network.proper ?_, scopes⟩
  rintro rule ⟨name, scope, found, declared, isRule⟩
  obtain ⟨functions, isScoped⟩ := RuleDecl.scoped_of_compile isRule
  obtain ⟨named, complete⟩ := scopes found
  refine ⟨isScoped complete.declared, scope, ?_, functions.symm⟩
  rw [functions, named]
  exact found

end Compiled

/-- However a knowledge base came about, its network is made of rules compiled in its packages. -/
theorem Made.compiled (made : Made base) : base.Compiled := by
  induction made with
  | @built catalog packages base built =>
      exact (KnowledgeBuilder.compiled_of_packages catalog packages).build built
  | addPackage _ added ih => exact ih.addPackage added
  | addRule _ added ih => exact ih.addRule added
  | removeRule _ removed ih => exact ih.removeRule removed

/-- However a knowledge base came about, its network is that of rules of its packages. -/
theorem Made.proper (made : Made base) : base.Proper := made.compiled.proper

/-- A package has one function table. -/
theorem Provides.unique {own other : FunctionTable}
    (provides : base.Provides own) (provided : base.Provides other)
    (same : own.package = other.package) : own = other := by
  obtain ⟨scope, found, rfl⟩ := provides
  obtain ⟨elsewhere, isElsewhere, rfl⟩ := provided
  rw [same, isElsewhere] at found
  cases found
  rfl

/-- The function table of a package is complete. -/
theorem Proper.scoped_of_provides (proper : base.Proper) {own : FunctionTable}
    (provided : base.Provides own) : own.Scoped := by
  obtain ⟨scope, found, rfl⟩ := provided
  exact (proper.scopes found).2.functions

/-- Everything that the nodes and rules of a knowledge base refer to is there. -/
theorem Proper.scoped (proper : base.Proper) : base.network.Scoped where
  placed := proper.network.placed
  left live input := proper.network.sound.wellFormed.leftFits live input
  tables live isOwn := proper.scoped_of_provides (proper.network.node live isOwn)
  rules found := by
    obtain ⟨entry, isEntry, rfl⟩ := Option.map_eq_some_iff.mp found
    exact (proper.network.rule isEntry).imp_right proper.scoped_of_provides

end KnowledgeBase

end Rete
