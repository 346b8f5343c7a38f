import Mathlib.Algebra.Order.BigOperators.Group.List
import Mathlib.Algebra.Order.Group.Nat
import Rete.Proofs.Compile.Names
import Rete.Proofs.Compile.Renaming

/-!
# The scope of negated patterns

The variables that a negated pattern binds to fields go out of scope at its end. They are not set
back: a variable of the same name that was bound before is gone as well, and nothing else changes
(`RuleDraft.bindings_addPattern_absent`). With names that are new the scope is as it was
(`RuleDraft.addPattern_rename`), so the rule is compiled to the same with them if nothing later
mentions a variable that is gone (`RuleDecl.compile_absent`).
-/

namespace Rete

/-! ## Between conditions -/

/-- No variable stands for a field of a fact under test. -/
structure Bindings.Outside (bindings : Bindings) : Prop where
  current : bindings.current = none
  vars {name : String} {meaning : Variable} (found : bindings.vars.find? name = some meaning) :
    meaning.leavePattern none = some meaning

namespace Bindings

private theorem outside_leavePattern (bindings : Bindings) (index : Option Nat) :
    (bindings.leavePattern index).Outside where
  current := rfl
  vars {name meaning} found := by
    change (bindings.vars.filterMap _).find? name = some meaning at found
    rw [SortedMap.find?_filterMap] at found
    obtain ⟨inside, -, leaves⟩ := Option.bind_eq_some_iff.mp found
    cases inside with
    | currentField field type =>
        obtain ⟨i, -, rfl⟩ := Option.map_eq_some_iff.mp leaves
        rfl
    | fact | factField | slot =>
        cases leaves
        rfl

private theorem Outside.bindFact {bindings : Bindings} (outside : bindings.Outside) (name : String)
    (index : Nat) (type : RecordType) : (bindings.bindFact name index type).Outside where
  current := outside.current
  vars {other meaning} found := by
    change (bindings.vars.insert name _).find? other = some meaning at found
    rw [SortedMap.find?_insert_eq] at found
    split at found
    next =>
      cases found
      rfl
    next => exact outside.vars found

end Bindings

namespace RuleDraft

variable {table : SymbolTable}

private theorem PatternDraft.outside_leave (inside : PatternDraft) (binding : Option String)
    (index : Option Nat) (type : RecordType) :
    (inside.leave binding index type).bindings.Outside := by
  have left := inside.bindings.outside_leavePattern index
  cases binding with
  | none => exact left
  | some var =>
      cases index with
      | none => exact left
      | some index => exact left.bindFact var index type

private theorem outside_addPattern {draft : RuleDraft} (outside : draft.bindings.Outside)
    (pattern : PatternDecl) (negated : Bool) :
    (draft.addPattern table pattern negated).bindings.Outside := by
  cases resolved : table.resolveType pattern.typeName with
  | error problem =>
      unfold addPattern
      rw [resolved]
      exact outside
  | ok type =>
      rw [addPattern_resolved draft negated resolved]
      dsimp only
      split
      · exact PatternDraft.outside_leave ..
      · exact PatternDraft.outside_leave ..

/-- This is so between the conditions of every rule, with problems or without. -/
theorem outside_of (table : SymbolTable) (conditions : List ConditionDecl) :
    (RuleDraft.of table conditions).bindings.Outside := by
  induction conditions using List.reverseRecOn with
  | nil => exact ⟨rfl, nofun⟩
  | append_singleton conditions last ih =>
      rw [of_concat]
      cases last with
      | pattern given => exact outside_addPattern ih given false
      | absent given => exact outside_addPattern ih given true
      | eval condition =>
          unfold addCondition
          dsimp only
          split
          · exact ih
          · exact ih

end RuleDraft

/-! ## What is gone -/

/-- The variable that a constraint binds. -/
def Constraint.variable? : Constraint → Option String
  | .bind var _ => some var
  | .test _ => none

/-- The variables that a pattern binds to fields. -/
def PatternDecl.variables (pattern : PatternDecl) : List String :=
  pattern.constraints.filterMap Constraint.variable?

/-- The scope without variables of some names. -/
def Bindings.without (bindings : Bindings) (names : List String) : Bindings :=
  { bindings with vars := bindings.vars.filter fun name _ => decide (name ∉ names) }

/-- Names taken out of a scope are unbound, all others are as before. -/
theorem Bindings.find?_without (bindings : Bindings) (names : List String) (name : String) :
    (bindings.without names).vars.find? name =
      if name ∈ names then none else bindings.vars.find? name := by
  unfold without
  rw [SortedMap.find?_filter]
  by_cases gone : name ∈ names
  · rw [if_pos gone]
    cases bindings.vars.find? name <;> simp [gone]
  · rw [if_neg gone]
    cases bindings.vars.find? name <;> simp [gone]

/-- Nothing is gone if no variable has one of the names. -/
theorem Bindings.without_of_unbound {bindings : Bindings} {names : List String}
    (unbound : ∀ name ∈ names, bindings.isBound name = false) :
    bindings.without names = bindings := by
  have same : (bindings.without names).vars = bindings.vars := by
    refine SortedMap.ext_find? fun name => ?_
    rw [find?_without]
    split
    next gone => exact (SortedMap.contains_eq_false.mp (unbound name gone)).symm
    next => rfl
  exact congrArg (fun vars => { bindings with vars }) same

private theorem Bindings.without_nil (bindings : Bindings) : bindings.without [] = bindings :=
  without_of_unbound fun _ none => absurd none List.not_mem_nil

private theorem Bindings.without_append (bindings : Bindings) (names others : List String) :
    bindings.without (names ++ others) = (bindings.without names).without others := by
  have same : (bindings.without (names ++ others)).vars =
      ((bindings.without names).without others).vars := by
    refine SortedMap.ext_find? fun name => ?_
    rw [find?_without, find?_without, find?_without]
    by_cases gone : name ∈ others <;> simp [gone]
  exact congrArg (fun vars => { bindings with vars }) same

/-- Between conditions, to leave a pattern again changes nothing. -/
theorem Bindings.Outside.leavePattern {bindings : Bindings} (outside : bindings.Outside) :
    bindings.leavePattern none = bindings := by
  have same : (bindings.leavePattern none).vars = bindings.vars := by
    refine SortedMap.ext_find? fun name => ?_
    change (bindings.vars.filterMap _).find? name = _
    rw [SortedMap.find?_filterMap]
    cases found : bindings.vars.find? name with
    | none => rfl
    | some meaning => exact outside.vars found
  calc bindings.leavePattern none
      = { bindings with vars := (bindings.leavePattern none).vars, current := none } := rfl
    _ = bindings := by rw [same, ← outside.current]

/-- A field that can be bound can be bound to any name. -/
theorem Bindings.fieldVariable_of_ok {current : Option RecordType} {name field : String}
    {meaning : Variable} (isField : fieldVariable current name field = .ok meaning)
    (other : String) : fieldVariable current other field = .ok meaning := by
  unfold fieldVariable at isField ⊢
  split at isField
  · cases isField
  · exact isField

/-- What a field binding makes of a name goes out of scope with a pattern that matches no fact. -/
theorem Bindings.leavePattern_of_fieldVariable {current : Option RecordType} {name field : String}
    {meaning : Variable} (isField : fieldVariable current name field = .ok meaning) :
    meaning.leavePattern none = none := by
  unfold fieldVariable at isField
  split at isField
  · cases isField
  · split at isField
    · cases isField
    · cases isField
      rfl

/-- A variable that a pattern bound to a field is gone after it, if it matches no fact. -/
theorem Bindings.leavePattern_bindField {bindings after : Bindings} {name field : String}
    (bound : bindings.bindField name field = .ok after) :
    after.leavePattern none = (bindings.leavePattern none).without [name] := by
  rw [bindField_eq] at bound
  cases isField : fieldVariable bindings.current name field with
  | error problem =>
      rw [isField] at bound
      cases bound
  | ok meaning =>
      rw [isField] at bound
      cases bound
      have same : (Bindings.leavePattern
            { bindings with vars := bindings.vars.insert name meaning } none).vars =
          ((bindings.leavePattern none).without [name]).vars := by
        refine SortedMap.ext_find? fun other => ?_
        rw [find?_without]
        unfold Bindings.leavePattern
        rw [SortedMap.find?_filterMap, SortedMap.find?_filterMap, SortedMap.find?_insert_eq]
        by_cases here : other = name
        · rw [if_pos here, if_pos (List.mem_singleton.mpr here)]
          exact leavePattern_of_fieldVariable isField
        · rw [if_neg here, if_neg (fun member => here (List.mem_singleton.mp member))]
      exact congrArg (fun vars => { bindings.leavePattern none with vars }) same

namespace RuleDraft

variable {table : SymbolTable} {draft : RuleDraft} {pattern : PatternDecl}

/-- The variables that the constraints of a pattern bound are gone after it, if it matches no
fact. -/
theorem leavePattern_enter {type : RecordType} {constraints : List Constraint}
    (clean : (draft.enter table type constraints).problems = []) :
    (draft.enter table type constraints).bindings.leavePattern none =
      (draft.bindings.leavePattern none).without
        (constraints.filterMap Constraint.variable?) := by
  induction constraints using List.reverseRecOn with
  | nil => exact (Bindings.without_nil _).symm
  | append_singleton done last ih =>
      have before := ih (enter_append clean).1
      have same : draft.enter table type (done ++ [last]) =
          (draft.enter table type done).addConstraint table last := List.foldl_concat ..
      rw [same] at clean ⊢
      obtain ⟨-, -, -, adds⟩ := PatternDraft.addConstraint_clean clean
      rw [List.filterMap_append, Bindings.without_append, ← before]
      cases last with
      | bind var field => exact Bindings.leavePattern_bindField adds
      | test condition =>
          rw [adds.1]
          exact (Bindings.without_nil _).symm

/-- A negated pattern without problems has a type and no variable for a fact, and its constraints
have no problems. -/
theorem clean_addPattern_absent
    (clean : (draft.addPattern table pattern true).problems = draft.problems) :
    ∃ type, table.resolveType pattern.typeName = .ok type ∧ pattern.binding = none ∧
      (draft.enter table type.toRecordType pattern.constraints).problems = [] := by
  cases resolved : table.resolveType pattern.typeName with
  | error problem =>
      unfold addPattern at clean
      rw [resolved] at clean
      exact absurd (List.append_right_eq_self.mp clean) (List.cons_ne_nil _ _)
  | ok type =>
      rw [addPattern_resolved draft true resolved] at clean
      dsimp only at clean
      split at clean
      next noProblem =>
        cases named : pattern.binding with
        | none =>
            rw [named] at noProblem
            exact ⟨type, rfl, rfl, List.isEmpty_iff.mp noProblem⟩
        | some var =>
            rw [named] at noProblem
            have none := List.isEmpty_iff.mp noProblem
            exact absurd (List.append_eq_nil_iff.mp none).2 (List.cons_ne_nil _ _)
      next problem =>
        have none := List.map_eq_nil_iff.mp (List.append_right_eq_self.mp clean)
        exact absurd (List.isEmpty_iff.mpr none) problem

/-- What a negated pattern without problems adds to a rule. -/
theorem addPattern_absent {type : TypeDef}
    (resolved : table.resolveType pattern.typeName = .ok type) (unnamed : pattern.binding = none)
    (clean : (draft.enter table type.toRecordType pattern.constraints).problems = []) :
    draft.addPattern table pattern true =
      { draft with
        bindings :=
          (draft.enter table type.toRecordType pattern.constraints).bindings.leavePattern none
        conditions := draft.conditions ++ [.pattern
          { type := type.toRecordType
            alpha := (draft.enter table type.toRecordType pattern.constraints).alpha
            beta := (draft.enter table type.toRecordType pattern.constraints).beta
            negated := true, index := none, span := pattern.span }] } := by
  rw [addPattern_resolved draft true resolved, unnamed]
  have noProblem : ((draft.enter table type.toRecordType pattern.constraints).leave none
      (draft.nextIndex true) type.toRecordType).problems.isEmpty = true :=
    List.isEmpty_iff.mpr clean
  dsimp only
  rw [if_pos noProblem]
  rfl

/-- After a negated pattern without problems its variables are gone, and all others are what they
were before. -/
theorem bindings_addPattern_absent (outside : draft.bindings.Outside)
    (clean : (draft.addPattern table pattern true).problems = draft.problems) :
    (draft.addPattern table pattern true).bindings =
      draft.bindings.without pattern.variables := by
  obtain ⟨type, resolved, unnamed, constraints⟩ := clean_addPattern_absent clean
  rw [addPattern_absent resolved unnamed constraints]
  exact (leavePattern_enter constraints).trans (by rw [outside.leavePattern]; rfl)

end RuleDraft

/-! ## Other names -/

/-- The other name of a variable, once it is bound. -/
def otherName (naming : String → String) (bound : List String) (name : String) : String :=
  if name ∈ bound then naming name else name

/-- Constraints with other names for the variables that they bind. In a test, a name means such a
variable only if a constraint before it has bound it. -/
def Constraint.renameAll (naming : String → String) (bound : List String) :
    List Constraint → List Constraint
  | [] => []
  | .bind var field :: rest => .bind (naming var) field :: renameAll naming (var :: bound) rest
  | .test condition :: rest =>
    .test (condition.rename (otherName naming bound)) :: renameAll naming bound rest

/-- A pattern with other names for the variables that it binds to fields. -/
def PatternDecl.rename (naming : String → String) (pattern : PatternDecl) : PatternDecl :=
  { pattern with constraints := Constraint.renameAll naming [] pattern.constraints }

/-- Names are new in a scope and a pattern: no variable in scope has them, the tests of the pattern
do not mention them, and no two variables of the pattern have the same one. -/
structure PatternDecl.Fresh (pattern : PatternDecl) (naming : String → String)
    (bindings : Bindings) : Prop where
  unbound : ∀ name ∈ pattern.variables, bindings.isBound (naming name) = false
  unmentioned : ∀ name ∈ pattern.variables, naming name ∉ pattern.mentioned
  distinct : ∀ name ∈ pattern.variables, ∀ other ∈ pattern.variables,
    naming name = naming other → name = other

/-- There always are such names: the old ones behind a long enough line. -/
theorem PatternDecl.exists_fresh (pattern : PatternDecl) (bindings : Bindings) :
    ∃ naming, pattern.Fresh naming bindings := by
  let taken := bindings.vars.keys ++ pattern.mentioned
  let line := String.ofList (List.replicate ((taken.map String.length).sum + 1) '_')
  have new (name : String) : line ++ name ∉ taken := by
    intro member
    have long : (line ++ name).length ≤ (taken.map String.length).sum :=
      List.le_sum_of_mem (List.mem_map_of_mem member)
    rw [String.length_append, String.length_ofList, List.length_replicate] at long
    omega
  refine ⟨(line ++ ·), fun name _ => ?_, fun name _ mentioned => ?_, fun name _ other _ same => ?_⟩
  · rw [← Bool.not_eq_true]
    exact fun isBound => new name (List.mem_append_left _ (SortedMap.mem_keys.mpr isBound))
  · exact new name (List.mem_append_right _ mentioned)
  · exact (String.append_right_inj line).mp same

/-- The variables of renamed constraints have the other names. -/
theorem Constraint.variables_renameAll (naming : String → String) (bound : List String)
    (constraints : List Constraint) :
    (Constraint.renameAll naming bound constraints).filterMap Constraint.variable? =
      (constraints.filterMap Constraint.variable?).map naming := by
  induction constraints generalizing bound with
  | nil => rfl
  | cons constraint rest ih =>
      cases constraint with
      | bind var field => exact congrArg (naming var :: ·) (ih (var :: bound))
      | test condition => exact ih bound

/-- A variable is bound once more, under its other name. -/
theorem Bindings.Renames.bind {naming : String → String} {bound : List String}
    {bindings others : Bindings} {name var : String}
    (renames : bindings.Renames (otherName naming bound) others name) (meaning : Variable)
    (different : name ≠ var → otherName naming bound name ≠ naming var) :
    Bindings.Renames (otherName naming (var :: bound))
      { bindings with vars := bindings.vars.insert var meaning }
      { others with vars := others.vars.insert (naming var) meaning } name := by
  by_cases here : name = var
  · have isOther : otherName naming (var :: bound) name = naming var := by
      rw [here, otherName, if_pos List.mem_cons_self]
    constructor
    · rw [isOther, SortedMap.find?_insert_eq, SortedMap.find?_insert_eq, if_pos rfl, if_pos here]
    · intro none
      rw [SortedMap.find?_insert_eq, if_pos here] at none
      cases none
  · have isOther : otherName naming (var :: bound) name = otherName naming bound name := by
      unfold otherName
      simp only [List.mem_cons, here, false_or]
    constructor
    · rw [isOther, SortedMap.find?_insert_eq, SortedMap.find?_insert_eq, if_neg (different here),
        if_neg here]
      exact renames.same
    · rw [isOther, SortedMap.find?_insert_eq, if_neg here]
      exact renames.kept

namespace RuleDraft

variable {table : SymbolTable} {draft other : PatternDraft} {naming : String → String}
  {bound names : List String}

/-- A pattern with other names for the variables bound so far. What it mentions stands for the
same. -/
structure PatternDraft.Renamed (naming : String → String) (bound names : List String)
    (draft other : PatternDraft) : Prop where
  renames : ∀ name ∈ names,
    draft.bindings.Renames (otherName naming bound) other.bindings name
  current : other.bindings.current = draft.bindings.current
  mayUpdate : other.bindings.mayUpdate = draft.bindings.mayUpdate
  alpha : other.alpha = draft.alpha
  beta : other.beta = draft.beta
  problems : other.problems = draft.problems

/-- A test is compiled to the same with other names. -/
theorem PatternDraft.Renamed.test (renamed : draft.Renamed naming bound names other)
    (condition : Term) (each : ∀ name ∈ condition.mentioned, name ∈ names) :
    (draft.addConstraint table (.test condition)).Renamed naming bound names
      (other.addConstraint table (.test (condition.rename (otherName naming bound)))) := by
  have same : other.bindings.compileCondition table (condition.rename (otherName naming bound)) =
      draft.bindings.compileCondition table condition :=
    Bindings.compileCondition_rename renamed.current renamed.mayUpdate condition
      fun name member => renamed.renames name (each name member)
  obtain ⟨renames, current, mayUpdate, alpha, beta, problems⟩ := renamed
  unfold addConstraint
  dsimp only
  rw [same]
  cases draft.bindings.compileCondition table condition with
  | ok test =>
      dsimp only
      split
      · exact ⟨renames, current, mayUpdate, alpha, congrArg (· ++ [test]) beta, problems⟩
      · exact ⟨renames, current, mayUpdate, congrArg (· ++ [test]) alpha, beta, problems⟩
  | error problem =>
      exact ⟨renames, current, mayUpdate, alpha, beta, congrArg (· ++ [problem]) problems⟩

/-- A variable is bound under a name that nothing else has. -/
theorem PatternDraft.Renamed.bind (renamed : draft.Renamed naming bound names other)
    {var field : String} (clean : (draft.addConstraint table (.bind var field)).problems = [])
    (unmentioned : naming var ∉ names)
    (distinct : ∀ name ∈ bound, naming name = naming var → name = var) :
    (draft.addConstraint table (.bind var field)).Renamed naming (var :: bound) names
      (other.addConstraint table (.bind (naming var) field)) := by
  obtain ⟨renames, current, mayUpdate, alpha, beta, problems⟩ := renamed
  unfold addConstraint at clean ⊢
  dsimp only at clean ⊢
  rw [Bindings.bindField_eq] at clean ⊢
  cases isField : Bindings.fieldVariable draft.bindings.current var field with
  | error problem =>
      rw [isField] at clean
      exact absurd (List.append_eq_nil_iff.mp clean).2 (List.cons_ne_nil _ _)
  | ok meaning =>
      have isOther : Bindings.fieldVariable other.bindings.current (naming var) field =
          .ok meaning := by
        rw [current]
        exact Bindings.fieldVariable_of_ok isField (naming var)
      rw [Bindings.bindField_eq, isOther]
      refine ⟨fun name member => (renames name member).bind meaning fun different => ?_, current,
        mayUpdate, alpha, beta, problems⟩
      unfold otherName
      split
      next isBound => exact fun same => different (distinct name isBound same)
      next => exact fun same => unmentioned (same ▸ member)

private theorem PatternDraft.problems_of_foldl {constraints : List Constraint}
    (clean : (constraints.foldl (addConstraint table) draft).problems = []) :
    draft.problems = [] := by
  induction constraints generalizing draft with
  | nil => exact clean
  | cons constraint rest ih => exact (addConstraint_clean (ih clean)).1

/-- Constraints without problems are compiled to the same with other names. -/
theorem PatternDraft.Renamed.foldl (renamed : draft.Renamed naming bound names other)
    {constraints : List Constraint}
    (clean : (constraints.foldl (addConstraint table) draft).problems = [])
    (each : ∀ name ∈ constraints.flatMap Constraint.mentioned, name ∈ names)
    (unmentioned : ∀ name ∈ constraints.filterMap Constraint.variable?, naming name ∉ names)
    (distinct : ∀ name ∈ bound ++ constraints.filterMap Constraint.variable?,
      ∀ other ∈ bound ++ constraints.filterMap Constraint.variable?,
        naming name = naming other → name = other) :
    ∃ last, (constraints.foldl (addConstraint table) draft).Renamed naming last names
      ((Constraint.renameAll naming bound constraints).foldl (addConstraint table) other) := by
  induction constraints generalizing draft other bound with
  | nil => exact ⟨bound, renamed⟩
  | cons constraint rest ih =>
      rw [List.flatMap_cons, List.forall_mem_append] at each
      cases constraint with
      | bind var field =>
          have next := renamed.bind (problems_of_foldl clean) (unmentioned var List.mem_cons_self)
            fun name isBound => distinct name (List.mem_append_left _ isBound) var
              (List.mem_append_right _ List.mem_cons_self)
          refine ih next clean each.2 (fun name later => unmentioned name
            (List.mem_cons_of_mem var later)) ?_
          have among {name : String}
              (member : name ∈ (var :: bound) ++ rest.filterMap Constraint.variable?) :
              name ∈ bound ++ (Constraint.bind var field :: rest).filterMap Constraint.variable? :=
            List.perm_middle.symm.subset member
          exact fun name member other isOther => distinct name (among member) other (among isOther)
      | test condition => exact ih (renamed.test condition each.1) clean each.2 unmentioned distinct

/-- A negated pattern with new names adds the same to a rule, and leaves the scope as it was. -/
theorem addPattern_rename {draft : RuleDraft} {pattern : PatternDecl}
    (outside : draft.bindings.Outside)
    (clean : (draft.addPattern table pattern true).problems = draft.problems)
    (fresh : pattern.Fresh naming draft.bindings) :
    draft.addPattern table (pattern.rename naming) true =
      { draft.addPattern table pattern true with bindings := draft.bindings } := by
  obtain ⟨type, resolved, unnamed, constraints⟩ := clean_addPattern_absent clean
  let inside : PatternDraft := { bindings := draft.bindings.enterPattern type.toRecordType }
  have start : inside.Renamed naming [] pattern.mentioned inside :=
    ⟨fun name _ => ⟨rfl, fun _ => rfl⟩, rfl, rfl, rfl, rfl, rfl⟩
  obtain ⟨last, renamed⟩ := start.foldl constraints (fun _ member => member) fresh.unmentioned
    fresh.distinct
  have renamedClean :
      (draft.enter table type.toRecordType (pattern.rename naming).constraints).problems = [] :=
    renamed.problems.trans constraints
  have unbound (name : String)
      (member : name ∈ (pattern.constraints.filterMap Constraint.variable?).map naming) :
      draft.bindings.isBound name = false := by
    obtain ⟨var, isVar, rfl⟩ := List.mem_map.mp member
    exact fresh.unbound var isVar
  have bindings : (draft.enter table type.toRecordType
      (pattern.rename naming).constraints).bindings.leavePattern none = draft.bindings := by
    rw [leavePattern_enter renamedClean, outside.leavePattern, PatternDecl.rename,
      Constraint.variables_renameAll, Bindings.without_of_unbound unbound]
  have alpha : (draft.enter table type.toRecordType (pattern.rename naming).constraints).alpha =
      (draft.enter table type.toRecordType pattern.constraints).alpha := renamed.alpha
  have beta : (draft.enter table type.toRecordType (pattern.rename naming).constraints).beta =
      (draft.enter table type.toRecordType pattern.constraints).beta := renamed.beta
  have added := @addPattern_absent table draft (pattern.rename naming) type resolved unnamed
    renamedClean
  rw [added, addPattern_absent resolved unnamed constraints, bindings, alpha, beta]
  rfl

/-- The scopes after a negated pattern, with new names and without, are the same but for variables
that are gone. -/
theorem agrees_rename {draft : RuleDraft} {pattern : PatternDecl} (outside : draft.bindings.Outside)
    (clean : (draft.addPattern table pattern true).problems = draft.problems)
    (fresh : pattern.Fresh naming draft.bindings) :
    (draft.addPattern table pattern true).Agrees
      (fun name => name ∈ pattern.variables → draft.bindings.isBound name = false)
      (draft.addPattern table (pattern.rename naming) true) := by
  have gone := bindings_addPattern_absent outside clean
  rw [addPattern_rename outside clean fresh]
  refine ⟨⟨fun {name} isShared => ?_, ?_, ?_, ?_⟩, rfl, rfl, rfl⟩
  · rw [gone, Bindings.find?_without]
    split
    next member => exact SortedMap.contains_eq_false.mp (isShared member)
    next => rfl
  all_goals
    rw [gone]
    rfl

end RuleDraft

/-! ## Rules -/

/-- Rules are compiled to the same if their conditions are, in scopes that agree on what the
consequence mentions. -/
theorem RuleDecl.compile_of_agrees (declared : RuleDecl) {table : SymbolTable}
    {shared : String → Prop} {conditions others : List ConditionDecl}
    (agrees : (RuleDraft.of table conditions).Agrees shared (RuleDraft.of table others))
    (each : ∀ name ∈ declared.consequence.flatMap Statement.mentioned, shared name)
    (functions : FunctionTable) :
    { declared with conditions := others }.compile table functions =
      { declared with conditions }.compile table functions := by
  unfold RuleDraft.of at agrees
  unfold RuleDecl.compile
  dsimp only
  rw [agrees.bindings.compileConsequence declared.consequence each, agrees.problems,
    agrees.conditions, agrees.arity]

/-- After a negated pattern without problems, a name stands for what it did before, unless the
pattern has bound it to a field: then it stands for nothing. With new names for the variables of
the pattern, and there are such names, every name stands for what it did before, and the rule is
compiled to the same as long as nothing after the pattern mentions a variable that was bound before
and is gone. -/
theorem RuleDecl.compile_absent {declared : RuleDecl} {table : SymbolTable}
    {before after : List ConditionDecl} {pattern : PatternDecl}
    (placed : declared.conditions = before ++ ConditionDecl.absent pattern :: after)
    (clean : (RuleDraft.of table (before ++ [ConditionDecl.absent pattern])).problems =
      (RuleDraft.of table before).problems) :
    (RuleDraft.of table (before ++ [ConditionDecl.absent pattern])).bindings =
        (RuleDraft.of table before).bindings.without pattern.variables ∧
      (∃ naming, pattern.Fresh naming (RuleDraft.of table before).bindings) ∧
      ∀ naming : String → String, pattern.Fresh naming (RuleDraft.of table before).bindings →
        RuleDraft.of table (before ++ [ConditionDecl.absent (pattern.rename naming)]) =
            { RuleDraft.of table (before ++ [ConditionDecl.absent pattern]) with
              bindings := (RuleDraft.of table before).bindings } ∧
          ((∀ name ∈ pattern.variables, (RuleDraft.of table before).bindings.isBound name = true →
              name ∉ after.flatMap ConditionDecl.mentioned ∧
                name ∉ declared.consequence.flatMap Statement.mentioned) →
            ∀ functions : FunctionTable,
              RuleDecl.compile
                  { declared with
                    conditions := before ++ ConditionDecl.absent (pattern.rename naming) :: after }
                  table functions =
                declared.compile table functions) := by
  have whole (last : PatternDecl) :
      RuleDraft.of table (before ++ .absent last :: after) =
        after.foldl (RuleDraft.addCondition table)
          ((RuleDraft.of table before).addPattern table last true) :=
    List.foldl_append
  rw [RuleDraft.of_concat] at clean ⊢
  have outside := RuleDraft.outside_of table before
  refine ⟨RuleDraft.bindings_addPattern_absent outside clean, pattern.exists_fresh _,
    fun naming fresh => ?_⟩
  rw [RuleDraft.of_concat]
  refine ⟨RuleDraft.addPattern_rename outside clean fresh, fun unused functions => ?_⟩
  have later := (RuleDraft.agrees_rename outside clean fresh).foldl table after
    fun name mentioned member => Bool.eq_false_iff.mpr fun isBound =>
      (unused name member isBound).1 mentioned
  rw [← whole, ← whole] at later
  have same := declared.compile_of_agrees later (fun name mentioned member =>
    Bool.eq_false_iff.mpr fun isBound => (unused name member isBound).2 mentioned) functions
  rw [same, ← placed]

namespace Namesakes

/-- Persons and cheeses. -/
def catalog : Catalog :=
  ⟨.ofList [("app.Person", { name := .ofText "app.Person", fields := [.ofType "name" .string] }),
    ("app.Cheese", { name := .ofText "app.Cheese", fields := [.ofType "kind" .string] })]⟩

/-- The table of a package of these types. -/
def table : SymbolTable := .ofPackage "app" catalog

/-- A person, whose name is bound. -/
def person : ConditionDecl := .pattern { typeName := "Person", constraints := [.bind "$n" "name"] }

/-- A cheese, whose kind is bound. -/
def cheese (var : String) : PatternDecl :=
  { typeName := "Cheese", constraints := [.bind var "kind"] }

/-- A person where there is no cheese. -/
def alone (after : List ConditionDecl) : RuleDecl :=
  { name := "alone", conditions := person :: .absent (cheese "$n") :: after
    consequence := [.halt] }

/-- The kind of a cheese has a name of its own. -/
def naming (_ : String) : String := "$k"

private theorem clean : (RuleDraft.of table ([person] ++ [.absent (cheese "$n")])).problems =
    (RuleDraft.of table [person]).problems := by
  decide +kernel

private theorem fresh : (cheese "$n").Fresh naming (RuleDraft.of table [person]).bindings where
  unbound _ _ :=
    (by decide +kernel : (RuleDraft.of table [person]).bindings.isBound "$k" = false)
  unmentioned _ _ := List.not_mem_nil
  distinct name isName other isOther _ := (List.mem_singleton.mp isName).trans
    (List.mem_singleton.mp isOther).symm

/-- The rule compiles to the same under both names of the kind, as nothing mentions the person's
name later on. -/
theorem alone_compile :
    (RuleDraft.of table [person]).bindings.isBound "$n" = true ∧
      ∀ functions, { alone [] with conditions := [person, .absent (cheese "$k")] }.compile table
        functions = (alone []).compile table functions := by
  have placed : (alone []).conditions = [person] ++ .absent (cheese "$n") :: [] := rfl
  obtain ⟨-, -, renamed⟩ := RuleDecl.compile_absent placed clean
  exact ⟨by decide +kernel, (renamed naming fresh).2 fun _ _ _ =>
    ⟨List.not_mem_nil, List.not_mem_nil⟩⟩

/-- A test of the person's name. -/
def named : ConditionDecl := .eval (.binary .eq (.name "$n") (.literal (.string "mark")))

/-- The cheese takes the name of the person with it: a test of that name behind it does not compile,
although it does if the kind has a name of its own. -/
theorem name_lost :
    (RuleDraft.of table [person, .absent (cheese "$n")]).problems =
        (RuleDraft.of table [person]).problems ∧
      (RuleDraft.of table [person]).bindings.vars.find? "$n" =
        some (.factField 0 "name" .string) ∧
      (RuleDraft.of table [person, .absent (cheese "$n")]).bindings.vars.find? "$n" = none ∧
      (match (alone [named]).compile table ⟨"app", []⟩ with
        | .ok _ => []
        | .error problems => problems.map (·.message)) = ["unable to resolve variable '$n'"] ∧
      (cheese "$n").Fresh naming (RuleDraft.of table [person]).bindings ∧
      (({ alone [named] with
        conditions := [person, .absent ((cheese "$n").rename naming), named] }.compile table
          ⟨"app", []⟩).toOption.isSome) = true :=
  ⟨clean, by decide +kernel, by decide +kernel, by decide +kernel, fresh, by decide +kernel⟩

end Namesakes

end Rete
