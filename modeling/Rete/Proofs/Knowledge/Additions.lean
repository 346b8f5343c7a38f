import Rete.Proofs.Compile.Problems
import Rete.Proofs.Knowledge.History

/-!
# Packages and rules that are added later

A package that is added to a knowledge base makes the same of it as a package that it was built
from, if it was built last (`KnowledgeBase.build_concat`). So does a rule that is added to the last
package of a knowledge base, compared with one that is declared behind the rules of this package, as
long as its name is new there (`KnowledgeBase.build_withRule`). Where the name is taken the two
differ: declaring it is refused, but adding it is refused only if both rules are enabled
(`Market.closed_twice`).
-/

namespace Rete

/-! ## Builders -/

/-- A name that has two types is an error. -/
theorem GlobalTypes.isError_merge (globals : GlobalTypes) (package : Package) :
    ∀ problem ∈ (globals.merge package).2, problem.isError = true := by
  unfold merge
  apply List.foldlRecOn (motive := fun state : GlobalTypes × List Diagnostic =>
    ∀ problem ∈ state.2, problem.isError = true)
  · exact fun _ none => absurd none List.not_mem_nil
  · intro state before entry _
    dsimp only
    split
    · exact before
    · split
      · exact before
      · exact List.forall_mem_append.mpr ⟨before, List.forall_mem_singleton.mpr rfl⟩

/-- Problems that are errors keep a knowledge base from being built, unless there are none. -/
theorem hasErrors_eq_false_iff_nil {problems : List Diagnostic}
    (errors : ∀ problem ∈ problems, problem.isError = true) :
    hasErrors problems = false ↔ problems = [] := by
  rw [hasErrors_eq_false, List.eq_nil_iff_forall_not_mem]
  constructor
  · intro clean problem member
    cases (clean problem member).symm.trans (errors problem member)
  · exact fun none problem member => absurd member (none problem)

namespace KnowledgeBuilder

variable {builder : KnowledgeBuilder} {network last : Network}

/-- The rules that a package adds to a network. -/
def enabledRules (package : Package) : List Rule := package.rules.filter Rule.enabled

section

variable {step : Network × List Diagnostic → Rule → Network × List Diagnostic}

/-- Rules are added without further problems when they can be added one after the other. -/
theorem foldl_addRule_eq_nil
    (adds : ∀ {network problems rule id next}, network.addRule rule = .ok (id, next) →
      step (network, problems) rule = (next, problems))
    (fails : ∀ {network problems rule problem}, network.addRule rule = .error problem →
      step (network, problems) rule = (network, problems ++ [problem]))
    {rules : List Rule} {problems : List Diagnostic} :
    rules.foldl step (network, problems) = (last, []) ↔
      problems = [] ∧ ∃ ids, KnowledgeBase.addRules network rules = .ok (ids, last) := by
  induction rules generalizing network problems with
  | nil =>
      constructor
      · intro done
        cases done
        exact ⟨rfl, [], rfl⟩
      · rintro ⟨rfl, ids, done⟩
        cases done
        rfl
  | cons rule rest ih =>
      simp only [List.foldl_cons, KnowledgeBase.addRules_cons]
      cases added : network.addRule rule with
      | error problem =>
          rw [fails added, ih]
          apply iff_of_false
          · exact fun done => absurd done.1
              (List.append_ne_nil_of_right_ne_nil _ (List.cons_ne_nil _ _))
          · rintro ⟨-, ids, id, mid, others, isAdded, -⟩
            cases isAdded
      | ok taken =>
          rw [adds added, ih]
          apply and_congr_right
          intro _
          constructor
          · rintro ⟨ids, later⟩
            exact ⟨taken.1 :: ids, taken.1, taken.2, ids, rfl, later, rfl⟩
          · rintro ⟨ids, id, mid, others, isAdded, later, -⟩
            cases isAdded
            exact ⟨others, later⟩

end

private theorem addRules_eq_nil {package : Package} : addRules network package = (last, []) ↔
    ∃ ids, KnowledgeBase.addRules network (enabledRules package) = .ok (ids, last) := by
  have folded : addRules network package = (last, []) ↔ [] = ([] : List Diagnostic) ∧ _ :=
    foldl_addRule_eq_nil (fun added => by simp only [added]) fun failed => by simp only [failed]
  exact folded.trans (and_iff_right rfl)

/-- Packages are added without problems when all their rules can be added one after the other. -/
theorem foldl_addRules_eq_nil
    {step : Network × List Diagnostic → Package → Network × List Diagnostic}
    (adds : ∀ state package, step state package =
      ((addRules state.1 package).1, state.2 ++ (addRules state.1 package).2))
    {packages : List Package} : packages.foldl step (network, []) = (last, []) ↔
    ∃ ids, KnowledgeBase.addRules network (packages.flatMap enabledRules) = .ok (ids, last) := by
  induction packages using List.reverseRecOn generalizing last with
  | nil =>
      constructor
      · intro done
        cases done
        exact ⟨[], rfl⟩
      · rintro ⟨ids, done⟩
        cases done
        rfl
  | append_singleton earlier package ih =>
      rw [List.foldl_concat, List.flatMap_append, List.flatMap_singleton, adds]
      set before := earlier.foldl step (network, [])
      constructor
      · intro done
        obtain ⟨isLast, none⟩ := Prod.mk.inj done
        obtain ⟨ofEarlier, ofPackage⟩ := List.append_eq_nil_iff.mp none
        obtain ⟨ids, first⟩ := ih.mp (Prod.ext rfl ofEarlier)
        obtain ⟨more, second⟩ := addRules_eq_nil.mp (Prod.ext isLast ofPackage)
        exact ⟨ids ++ more, KnowledgeBase.addRules_append.mpr
          ⟨before.1, ids, more, first, second, rfl⟩⟩
      · rintro ⟨_, added⟩
        obtain ⟨mid, ids, more, first, second, rfl⟩ := KnowledgeBase.addRules_append.mp added
        have isBefore : before = (mid, []) := ih.mpr ⟨ids, first⟩
        have ofPackage := addRules_eq_nil.mpr ⟨more, second⟩
        rw [isBefore, ofPackage]
        rfl

/-- What a builder makes a knowledge base of. -/
structure Builds (builder : KnowledgeBuilder) (base : KnowledgeBase) : Prop where
  clean : hasErrors builder.problems = false
  rules : ∃ ids, KnowledgeBase.addRules {} (builder.packages.flatMap enabledRules) =
    .ok (ids, base.network)
  globals : base.globals = builder.globals
  packages : base.packages =
    .ofList (builder.packages.map fun package => (package.name, package.scope))
  catalog : base.catalog = builder.catalog

private theorem build_eq_ok {base : KnowledgeBase} :
    builder.build = .ok base ↔ builder.Builds base := by
  unfold build
  constructor
  · intro built
    split at built
    · cases built
    next noErrors =>
    dsimp only at built
    split at built
    · next none =>
        cases built
        have added := (foldl_addRules_eq_nil fun _ _ => rfl).mp
          (Prod.ext rfl (List.isEmpty_iff.mp none))
        exact ⟨Bool.eq_false_iff.mpr noErrors, added, rfl, rfl, rfl⟩
    · cases built
  · intro builds
    rw [builds.clean, (foldl_addRules_eq_nil fun _ _ => rfl).mpr builds.rules, ← builds.globals,
      ← builds.packages, ← builds.catalog]
    rfl

/-- A package whose name is taken leaves an error behind. -/
theorem hasErrors_addPackage_of_taken {declared : PackageDecl}
    (taken : (builder.packages.any fun other => other.name == declared.name) = true) :
    hasErrors (builder.addPackage declared).problems = true := by
  have added : builder.addPackage declared = { builder with
      problems := builder.problems ++ (declared.compile builder.catalog).2 ++
        [.packageTaken declared.name] } := if_pos taken
  rw [added, hasErrors_append]
  exact Bool.or_true _

private theorem addPackage_of_new {declared : PackageDecl}
    (new : (builder.packages.any fun other => other.name == declared.name) = false) :
    builder.addPackage declared =
      let package := (declared.compile builder.catalog).1
      let merged := builder.globals.merge package
      { builder with
        packages := builder.packages ++ [package]
        globals := merged.1
        problems := builder.problems ++ (declared.compile builder.catalog).2 ++ merged.2 } :=
  if_neg (Bool.eq_false_iff.mp new)

private theorem Compiled.fresh_iff (compiled : builder.Compiled) {name : String} :
    (SortedMap.ofList (builder.packages.map fun package => (package.name, package.scope))).find?
        name = none ↔ (builder.packages.any fun other => other.name == name) = false := by
  rw [Option.eq_none_iff_forall_ne_some, List.any_eq_false]
  constructor
  · intro absent package member same
    exact absent package.scope
      (compiled.find?_packages.mpr ⟨package, member, beq_iff_eq.mp same, rfl⟩)
  · intro new scope found
    obtain ⟨package, member, same, -⟩ := compiled.find?_packages.mp found
    exact new package member (beq_iff_eq.mpr same)

/-- What is built of one more package is what was built, with this package added. -/
theorem Compiled.build_addPackage (compiled : builder.Compiled) {declared : PackageDecl}
    {after : KnowledgeBase} : (builder.addPackage declared).build = .ok after ↔
      ∃ base ids, builder.build = .ok base ∧ base.addPackage declared = .ok (ids, after) := by
  simp only [build_eq_ok, KnowledgeBase.addPackage_eq_ok]
  cases taken : builder.packages.any fun other => other.name == declared.name with
  | true =>
      constructor
      · intro builds
        cases builds.clean.symm.trans (hasErrors_addPackage_of_taken taken)
      · rintro ⟨base, ids, builds, added⟩
        have absent := added.fresh
        rw [builds.packages, compiled.fresh_iff] at absent
        cases absent.symm.trans taken
  | false =>
      rw [addPackage_of_new taken]
      set package := (declared.compile builder.catalog).1
      have clashes := hasErrors_eq_false_iff_nil (builder.globals.isError_merge package)
      have packages : SortedMap.ofList ((builder.packages ++ [package]).map fun package =>
            (package.name, package.scope)) =
          (SortedMap.ofList (builder.packages.map fun package =>
            (package.name, package.scope))).insert declared.name package.scope := by
        rw [List.map_append, SortedMap.ofList, List.foldl_append]
        rfl
      constructor
      · intro builds
        obtain ⟨issued, added⟩ := builds.rules
        rw [List.flatMap_append, List.flatMap_singleton] at added
        obtain ⟨mid, earlier, ids, first, second, -⟩ := KnowledgeBase.addRules_append.mp added
        have clean := builds.clean
        simp only [hasErrors_append, Bool.or_eq_false_iff, clashes] at clean
        obtain ⟨⟨ofEarlier, ofPackage⟩, ofGlobals⟩ := clean
        let base : KnowledgeBase :=
          { catalog := builder.catalog
            network := mid
            globals := builder.globals
            packages := .ofList (builder.packages.map fun package =>
              (package.name, package.scope)) }
        have merged : builder.globals.merge package = (after.globals, []) := by
          rw [builds.globals]
          exact Prod.ext rfl ofGlobals
        exact ⟨base, ids, ⟨ofEarlier, ⟨earlier, first⟩, rfl, rfl, rfl⟩, ofPackage,
          compiled.fresh_iff.mpr taken, merged, second, builds.packages.trans packages,
          builds.catalog⟩
      · rintro ⟨base, ids, builds, clean, -, merged, second, isLast, catalog⟩
        obtain ⟨earlier, first⟩ := builds.rules
        rw [builds.catalog] at clean second isLast catalog
        rw [builds.globals, builds.catalog] at merged
        refine ⟨?_, ⟨earlier ++ ids, ?_⟩, ?_, ?_, catalog⟩
        · simp only [hasErrors_append, Bool.or_eq_false_iff, clashes]
          exact ⟨⟨builds.clean, clean⟩, congrArg Prod.snd merged⟩
        · rw [List.flatMap_append, List.flatMap_singleton]
          exact KnowledgeBase.addRules_append.mpr ⟨base.network, earlier, ids, first, second, rfl⟩
        · exact (congrArg Prod.fst merged).symm
        · rw [isLast, builds.packages]
          exact packages.symm

end KnowledgeBuilder

/-! ## Rules of a package -/

/-- Rules that are added one after the other are there under the ids that they were given. -/
theorem Network.Sound.forall₂_addRules {network last : Network} (sound : network.Sound)
    {rules : List Rule} {ids : List RuleId}
    (added : KnowledgeBase.addRules network rules = .ok (ids, last)) :
    List.Forall₂ (fun rule id => last.rule? id = some rule) rules ids ∧
      ∀ {id entry}, network.rules.find? id = some entry → last.rules.find? id = some entry := by
  induction rules generalizing network ids with
  | nil =>
      cases added
      exact ⟨.nil, id⟩
  | cons rule rest ih =>
      obtain ⟨id, mid, others, isAdded, later, rfl⟩ := KnowledgeBase.addRules_cons.mp added
      obtain ⟨entry, done⟩ := sound.addRule isAdded
      obtain ⟨ofRest, stays⟩ := ih done.sound later
      have entered : mid.rules.find? id = some entry := by
        rw [done.rules, SortedMap.find?_insert_eq, if_pos rfl]
      refine ⟨.cons ?_ ofRest, fun {other found} isFound => stays ?_⟩
      · rw [Network.rule?, stays entered, Option.map_some, done.isRule]
      · have different : other ≠ id := fun same =>
          Nat.ne_of_lt (sound.rule_lt isFound) (same.trans done.isNext)
        rw [done.rules, SortedMap.find?_insert_eq, if_neg different, isFound]

/-- What the enabled rules compile to is there under the ids, if it is for the compiled rules. -/
theorem PackageScope.forall₂_enabled {scope : PackageScope} {network : Network}
    {declared : List RuleDecl} {rules : List Rule} {ids : List RuleId}
    (compiled : List.Forall₂ (fun own rule => own.compile scope.table scope.functions = .ok rule)
      declared rules)
    (issued : List.Forall₂ (fun rule id => network.rule? id = some rule)
      (rules.filter Rule.enabled) ids) :
    List.Forall₂ (fun own id => ∃ rule, own.compile scope.table scope.functions = .ok rule ∧
      network.rule? id = some rule) (declared.filter RuleDecl.enabled) ids := by
  induction compiled generalizing ids with
  | nil =>
      cases issued
      exact .nil
  | @cons own rule _ _ isRule _ ih =>
      have same := (RuleDecl.header_of_compile isRule).2
      cases enabled : own.enabled with
      | false =>
          rw [List.filter_cons_of_neg (Bool.eq_false_iff.mp (same.trans enabled))] at issued
          rw [List.filter_cons_of_neg (Bool.eq_false_iff.mp enabled)]
          exact ih issued
      | true =>
          rw [List.filter_cons_of_pos (same.trans enabled)] at issued
          rw [List.filter_cons_of_pos enabled]
          cases issued with
          | cons here others => exact .cons ⟨rule, isRule, here⟩ (ih others)

namespace KnowledgeBase

variable {base after : KnowledgeBase} {last : PackageDecl} {declared : RuleDecl}

/-- The ids that adding a package returns are those of its enabled rules, in order. -/
theorem Made.forall₂_addPackage (made : base.Made) {ids : List RuleId}
    (added : base.addPackage last = .ok (ids, after)) :
    ∃ scope, after.packages.find? last.name = some scope ∧
      List.Forall₂ (fun own id => ∃ rule, own.compile scope.table scope.functions = .ok rule ∧
        after.network.rule? id = some rule) (last.rules.filter RuleDecl.enabled) ids := by
  have done := packageAdded added
  refine ⟨(last.compile base.catalog).1.scope, ?_, ?_⟩
  · rw [done.packages, SortedMap.find?_insert_eq, if_pos rfl]
  · have issued := (made.compiled.network.sound.forall₂_addRules done.rules).1
    exact PackageScope.forall₂_enabled (PackageDecl.forall₂_compile done.clean) issued

/-- A knowledge base built of one more package is that of the others, with this package added. -/
theorem build_concat_eq_ok {catalog : Catalog} {packages : List PackageDecl} :
    build catalog (packages ++ [last]) = .ok after ↔
      ∃ base ids, build catalog packages = .ok base ∧ base.addPackage last = .ok (ids, after) := by
  rw [build, List.foldl_concat]
  exact (KnowledgeBuilder.compiled_of_packages catalog packages).build_addPackage

/-- A package that is added later makes the same of a knowledge base as one that it is built from
last: the same network under the same ids, the same globals and packages. The ids that are returned
are those of its enabled rules, in order; and a package that is refused changes nothing. -/
theorem build_concat (catalog : Catalog) (packages : List PackageDecl) (last : PackageDecl) :
    (∀ after, build catalog (packages ++ [last]) = .ok after ↔
      ∃ base ids, build catalog packages = .ok base ∧ base.addPackage last = .ok (ids, after)) ∧
    (∀ (base after : KnowledgeBase) ids, base.Made → base.addPackage last = .ok (ids, after) →
      ∃ scope, after.packages.find? last.name = some scope ∧
        List.Forall₂ (fun own id => ∃ rule, own.compile scope.table scope.functions = .ok rule ∧
          after.network.rule? id = some rule) (last.rules.filter RuleDecl.enabled) ids) ∧
    ∀ (base : KnowledgeBase) problems, base.addPackage last = .error problems →
      base.alter (.addPackage last) = base := by
  refine ⟨fun after => build_concat_eq_ok, fun base after ids made added => ?_,
    fun base problems refused => ?_⟩
  · exact made.forall₂_addPackage added
  · simp only [alter, refused]

/-- A package with one more rule is added as the package without it and then the rule, if no other
rule of the package has its name. -/
theorem addPackage_withRule : (∃ ids, base.addPackage (last.withRule declared) = .ok (ids, after)) ↔
    (∀ own ∈ last.rules, own.name ≠ declared.name) ∧
    ∃ ids mid id?, base.addPackage last = .ok (ids, mid) ∧
      mid.addRule last.name declared = .ok (id?, after) := by
  simp only [addPackage_eq_ok, addRule_eq_ok]
  constructor
  · rintro ⟨issued, done⟩
    obtain ⟨clean, different, rule, compiled⟩ := PackageDecl.clean_withRule.mp done.clean
    have added := done.rules
    have merged := done.globals
    have packages := done.packages
    rw [PackageDecl.compile_withRule clean different compiled] at added merged packages
    rw [List.filter_append] at added
    obtain ⟨network, ids, more, first, second, -⟩ := addRules_append.mp added
    let mid : KnowledgeBase := { after with network }
    refine ⟨different, ids, mid, more.head?, ?_, ?_⟩
    · exact ⟨clean, done.fresh, merged, first, packages, done.catalog⟩
    · refine ⟨(last.compile base.catalog).1.scope, rule, more, after.network, ?_, compiled, second,
        rfl, rfl⟩
      change after.packages.find? last.name = _
      rw [packages, SortedMap.find?_insert_eq]
      exact if_pos rfl
  · rintro ⟨different, ids, mid, _, done, scope, rule, more, network, found, compiled, second,
      -, rfl⟩
    rw [done.packages, SortedMap.find?_insert_eq, if_pos rfl] at found
    cases found
    have grown := PackageDecl.compile_withRule done.clean different compiled
    refine ⟨ids ++ more, ?_, done.fresh, ?_, ?_, ?_, done.catalog⟩
    · rw [grown]
      exact done.clean
    · rw [grown]
      exact done.globals
    · rw [grown, List.filter_append]
      exact addRules_append.mpr ⟨mid.network, ids, more, done.rules, second, rfl⟩
    · rw [grown]
      exact done.packages

/-- A rule that is enabled cannot be added beside an enabled one of its name. -/
theorem Made.not_addRule_of_enabled {ids : List RuleId} (made : base.Made)
    (added : base.addPackage last = .ok (ids, after)) {own : RuleDecl} (member : own ∈ last.rules)
    (same : own.name = declared.name) (isEnabled : own.enabled = true)
    (enabled : declared.enabled = true) (id? : Option RuleId) (more : KnowledgeBase) :
    after.addRule last.name declared ≠ .ok (id?, more) := by
  intro accepted
  obtain ⟨scope, rule, _, network, found, compiled, ofRule, -, -⟩ := addRule_eq_ok.mp accepted
  obtain ⟨named, ruleEnabled⟩ := RuleDecl.header_of_compile compiled
  rw [List.filter_singleton, ruleEnabled, enabled] at ofRule
  obtain ⟨id, isAdded, -⟩ := addRules_singleton.mp ofRule
  -- The enabled rule of this name is in the network, so its name is taken.
  have sound : after.network.Sound := (Made.addPackage made added).compiled.network.sound
  obtain ⟨entry, done⟩ := sound.addRule isAdded
  obtain ⟨elsewhere, isFound, issued⟩ := made.forall₂_addPackage added
  cases found.symm.trans isFound
  obtain ⟨taken, -, other, isOther, isThere⟩ :=
    (exists_of_forall₂ issued).1 own (List.mem_filter.mpr ⟨member, isEnabled⟩)
  obtain ⟨present, isPresent, rfl⟩ := Option.map_eq_some_iff.mp isThere
  have sameName : present.rule.name = rule.name :=
    ((RuleDecl.header_of_compile isOther).1.trans same).trans named.symm
  have samePackage : present.rule.package = rule.package :=
    (RuleDecl.package_of_compile isOther).trans (RuleDecl.package_of_compile compiled).symm
  have indexed := sound.names.mpr ⟨present, isPresent, rfl⟩
  rw [sameName, samePackage] at indexed
  cases done.fresh.symm.trans indexed

/-- A rule that is added later makes the same of a knowledge base as one that is declared behind the
rules of its last package, if its name is new there. A name that is taken is refused when the rule
is declared, and when it is added if both rules are enabled. -/
theorem build_withRule (catalog : Catalog) (packages : List PackageDecl) (last : PackageDecl)
    (declared : RuleDecl) :
    ((∀ own ∈ last.rules, own.name ≠ declared.name) → ∀ after,
      build catalog (packages ++ [last.withRule declared]) = .ok after ↔
        ∃ base id?, build catalog (packages ++ [last]) = .ok base ∧
          base.addRule last.name declared = .ok (id?, after)) ∧
    ∀ own ∈ last.rules, own.name = declared.name →
      (∀ after, build catalog (packages ++ [last.withRule declared]) ≠ .ok after) ∧
      ∀ base, build catalog (packages ++ [last]) = .ok base →
        own.enabled = true → declared.enabled = true →
        ∀ id? after, base.addRule last.name declared ≠ .ok (id?, after) := by
  have stepwise : ∀ after, build catalog (packages ++ [last.withRule declared]) = .ok after ↔
      (∀ own ∈ last.rules, own.name ≠ declared.name) ∧
        ∃ base id?, build catalog (packages ++ [last]) = .ok base ∧
          base.addRule last.name declared = .ok (id?, after) := by
    intro after
    simp only [build_concat_eq_ok]
    constructor
    · rintro ⟨base, ids, built, added⟩
      obtain ⟨different, issued, mid, id?, first, second⟩ := addPackage_withRule.mp ⟨ids, added⟩
      exact ⟨different, mid, id?, ⟨base, issued, built, first⟩, second⟩
    · rintro ⟨different, mid, id?, ⟨base, issued, built, first⟩, second⟩
      obtain ⟨ids, added⟩ := addPackage_withRule.mpr ⟨different, issued, mid, id?, first, second⟩
      exact ⟨base, ids, built, added⟩
  refine ⟨fun different after => (stepwise after).trans (and_iff_right different),
    fun own member same => ⟨fun after built => ?_,
      fun base built ownEnabled enabled id? after => ?_⟩⟩
  · exact ((stepwise after).mp built).1 own member same
  · obtain ⟨before, ids, ofOthers, added⟩ := build_concat_eq_ok.mp built
    exact (Made.built ofOthers).not_addRule_of_enabled added member same ownEnabled enabled id?
      after

end KnowledgeBase

/-! ## A third stall -/

namespace Market

/-- The catalog of the one type. -/
def catalog : Catalog := ⟨SortedMap.insert ∅ "app.Cheese" cheese⟩

/-- The knowledge base with a third stall. -/
def widened : List RuleId × KnowledgeBase :=
  (base.addPackage (stall "east" 30)).toOption.getD default

private theorem widened_eq : base.addPackage (stall "east" 30) = .ok widened :=
  eq_ok_getD (by decide +kernel : (base.addPackage (stall "east" 30)).toOption.isSome = true)

private theorem base_eq : KnowledgeBase.build catalog
    [stall "north" 10, stall "south" 20] = .ok base :=
  eq_ok_getD (by decide +kernel : built.toOption.isSome = true)

/-- A third stall comes; a stall that is there already is refused. -/
theorem widened_built :
    KnowledgeBase.build catalog [stall "north" 10, stall "south" 20, stall "east" 30] =
      .ok widened.2 ∧
    widened.1 = [2] ∧ (widened.2.network.rule? 2).map Rule.qualifiedName = some "east.bargain" ∧
    (∃ scope, widened.2.packages.find? "east" = some scope ∧
      List.Forall₂ (fun own id => ∃ rule, own.compile scope.table scope.functions = .ok rule ∧
        widened.2.network.rule? id = some rule) [bargain "bargain"] widened.1) ∧
    (base.addPackage (stall "north" 40)).toOption = none ∧
    base.alter (.addPackage (stall "north" 40)) = base := by
  obtain ⟨built, issued, kept⟩ :=
    KnowledgeBase.build_concat catalog [stall "north" 10, stall "south" 20] (stall "east" 30)
  obtain ⟨-, -, refused⟩ := KnowledgeBase.build_concat catalog [] (stall "north" 40)
  have taken : (base.addPackage (stall "north" 40)).toOption = none := by decide +kernel
  refine ⟨(built _).mpr ⟨base, widened.1, base_eq, widened_eq⟩, by decide +kernel,
    by decide +kernel, issued base _ _ made widened_eq, taken, ?_⟩
  cases added : base.addPackage (stall "north" 40) with
  | error problems => exact refused base problems added
  | ok result =>
      rw [added] at taken
      cases taken

/-- The knowledge base in which the second stall has one more rule. -/
def extended : Option RuleId × KnowledgeBase := (base.addRule "south" priced).toOption.getD default

private theorem extended_eq : base.addRule "south" priced = .ok extended :=
  eq_ok_getD (by decide +kernel : (base.addRule "south" priced).toOption.isSome = true)

/-- The second stall comes to sell what is priced, but not two bargains. -/
theorem extended_built :
    KnowledgeBase.build catalog [stall "north" 10, (stall "south" 20).withRule priced] =
      .ok extended.2 ∧
    (extended.2.network.rule? 2).map Rule.qualifiedName = some "south.priced" ∧
    (∀ after, KnowledgeBase.build catalog
      [stall "north" 10, (stall "south" 20).withRule (bargain "bargain")] ≠ .ok after) ∧
    ∀ id? after, base.addRule "south" (bargain "bargain") ≠ .ok (id?, after) := by
  obtain ⟨fresh, -⟩ :=
    KnowledgeBase.build_withRule catalog [stall "north" 10] (stall "south" 20) priced
  obtain ⟨-, taken⟩ :=
    KnowledgeBase.build_withRule catalog [stall "north" 10] (stall "south" 20) (bargain "bargain")
  obtain ⟨declaring, adding⟩ := taken (bargain "bargain") List.mem_cons_self rfl
  exact ⟨(fresh (by decide) _).mpr ⟨base, extended.1, base_eq, extended_eq⟩, by decide +kernel,
    declaring, adding base base_eq rfl rfl⟩

/-- A rule that is not enabled. -/
def closed : RuleDecl := { bargain "bargain" with enabled := false }

/-- Of two rules of one name of which one is not enabled, the second is refused when it is declared,
but not when it is added. -/
theorem closed_twice :
    ¬ ((∃ after, KnowledgeBase.build catalog
          [{ stall "south" 20 with rules := [closed, bargain "bargain"] }] = .ok after) ↔
        ∃ base id? after, KnowledgeBase.build catalog
            [{ stall "south" 20 with rules := [closed] }] = .ok base ∧
          base.addRule "south" (bargain "bargain") = .ok (id?, after)) ∧
    ¬ ((∃ after, KnowledgeBase.build catalog
          [{ stall "south" 20 with rules := [bargain "bargain", closed] }] = .ok after) ↔
        ∃ base id? after, KnowledgeBase.build catalog
            [{ stall "south" 20 with rules := [bargain "bargain"] }] = .ok base ∧
          base.addRule "south" closed = .ok (id?, after)) := by
  have differ : ∀ first second : RuleDecl,
      (KnowledgeBase.build catalog [{ stall "south" 20 with rules := [first, second] }]).toOption =
        none →
      (((KnowledgeBase.build catalog [{ stall "south" 20 with rules := [first] }]).toOption.bind
        fun base => (base.addRule "south" second).toOption).isSome = true) →
      ¬ ((∃ after, KnowledgeBase.build catalog
            [{ stall "south" 20 with rules := [first, second] }] = .ok after) ↔
          ∃ base id? after, KnowledgeBase.build catalog
              [{ stall "south" 20 with rules := [first] }] = .ok base ∧
            base.addRule "south" second = .ok (id?, after)) := by
    intro first second refused accepted same
    obtain ⟨result, isResult⟩ := Option.isSome_iff_exists.mp accepted
    obtain ⟨base, isBase, added⟩ := Option.bind_eq_some_iff.mp isResult
    obtain ⟨after, built⟩ := same.mpr
      ⟨base, result.1, result.2, eq_ok_of_toOption isBase, eq_ok_of_toOption added⟩
    rw [built] at refused
    cases refused
  exact ⟨differ closed (bargain "bargain") (by decide +kernel) (by decide +kernel),
    differ (bargain "bargain") closed (by decide +kernel) (by decide +kernel)⟩

end Market

end Rete
