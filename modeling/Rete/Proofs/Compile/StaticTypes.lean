import Rete.Proofs.Compile.Instances
import Rete.Proofs.Evaluation.EvidentTypes

/-!
# Static types and the check of assignments

Where the form of an expression tells a type, the compiler has given it that type
(`Bindings.telling_compile`), since variables are declared with the types of what they stand for
(`Bindings.Declares`). So the check that a `modify` passes when it is compiled is one of the types
that are evident (`KnowledgeBase.Made.checked`).
-/

namespace Rete

/-! ## Variables -/

/-- The types of the facts that conditions match, in the order of a tuple. -/
def Condition.matchedTypes (conditions : List Condition) : List RecordType :=
  conditions.filterMap fun
    | .pattern given => if given.negated then none else some given.type
    | .eval _ => none

/-- A pattern matches one more fact, of its type, unless it is negated. -/
theorem Condition.matchedTypes_concat_pattern (conditions : List Condition) (given : Pattern) :
    matchedTypes (conditions ++ [.pattern given]) =
      if given.negated then matchedTypes conditions
      else matchedTypes conditions ++ [given.type] := by
  unfold matchedTypes
  rw [List.filterMap_append]
  cases negated : given.negated <;> simp [negated]

/-- A test matches no further fact. -/
theorem Condition.matchedTypes_concat_eval (conditions : List Condition) (test : Expr) :
    matchedTypes (conditions ++ [.eval test]) = matchedTypes conditions := by
  unfold matchedTypes
  rw [List.filterMap_append]
  exact List.append_nil _

private theorem Condition.length_matchedTypes (conditions : List Condition) :
    (matchedTypes conditions).length = positives conditions := by
  induction conditions using List.reverseRecOn with
  | nil => rfl
  | append_singleton conditions last ih =>
      cases last with
      | eval test => rw [matchedTypes_concat_eval, positives_concat_eval, ih]
      | pattern given =>
          rw [matchedTypes_concat_pattern, positives_concat_pattern, ← ih]
          split
          · rfl
          · exact List.length_append

/-- The type at an index is that of the pattern that matches the fact there. -/
theorem Condition.exists_of_matchedTypes {conditions : List Condition} {index : Nat}
    {type : RecordType} (isType : (matchedTypes conditions)[index]? = some type) :
    ∃ before given, before ++ [.pattern given] <+: conditions ∧ given.negated = false ∧
      given.type = type ∧ positives before = index := by
  induction conditions using List.reverseRecOn with
  | nil => cases isType
  | append_singleton conditions last ih =>
      have earlier (found : (matchedTypes conditions)[index]? = some type) :
          ∃ before given, before ++ [.pattern given] <+: conditions ++ [last] ∧
            given.negated = false ∧ given.type = type ∧ positives before = index := by
        obtain ⟨before, given, place, rest⟩ := ih found
        exact ⟨before, given, place.trans (List.prefix_append _ _), rest⟩
      cases last with
      | eval test =>
          rw [matchedTypes_concat_eval] at isType
          exact earlier isType
      | pattern given =>
          rw [matchedTypes_concat_pattern] at isType
          cases negated : given.negated with
          | true =>
              rw [negated, if_pos rfl] at isType
              exact earlier isType
          | false =>
              rw [negated, if_neg Bool.false_ne_true, List.getElem?_append] at isType
              split at isType
              · exact earlier isType
              · next beyond =>
                  obtain ⟨isLast, same⟩ := List.getElem?_eq_some_iff.mp isType
                  rw [List.length_singleton] at isLast
                  refine ⟨conditions, given, List.prefix_refl _, negated, ?_, ?_⟩
                  · exact (List.getElem_singleton isLast).symm.trans same
                  · rw [← length_matchedTypes]
                    omega

/-- The types are in the catalog under their own names. -/
def Catalog.ListsAll (catalog : Catalog) (types : List RecordType) : Prop :=
  ∀ type ∈ types, ∃ listed, catalog.get? type.fullName = some listed ∧ listed.toRecordType = type

/-- A field is declared in a type that may be there, with a type of its own. -/
def RecordType.DeclaresIn (owner : Option RecordType) (field : String) (type : ValueType) : Prop :=
  ∃ found ∈ owner, (found.field? field).map FieldDef.type = some type

/-- A variable has the type of what it stands for: of a matched fact, or of a field of one or of the
fact under test. -/
def Variable.Declared (matched : List RecordType) (current : Option RecordType) : Variable → Prop
  | .fact index type => matched[index]? = some type
  | .factField index field type => RecordType.DeclaresIn matched[index]? field type
  | .currentField field type => RecordType.DeclaresIn current field type
  | .slot .. => True

/-- The variables in scope have the types of what they stand for. -/
def Bindings.Declares (matched : List RecordType) (bindings : Bindings) : Prop :=
  ∀ name meaning, bindings.vars.find? name = some meaning →
    meaning.Declared matched bindings.current

namespace Bindings.Declares

variable {matched : List RecordType} {bindings after : Bindings}

/-- A scope still declares the types of its variables when it binds one more that does. -/
theorem insert (declares : bindings.Declares matched) {name : String} (meaning : Variable)
    (declared : meaning.Declared matched bindings.current)
    (vars : after.vars = bindings.vars.insert name meaning)
    (current : after.current = bindings.current) : after.Declares matched := by
  intro other found isFound
  rw [vars, SortedMap.find?_insert_eq] at isFound
  rw [current]
  split at isFound
  · cases isFound
    exact declared
  · exact declares other found isFound

/-- At the beginning of a pattern no field of it is bound. -/
theorem enterPattern (declares : bindings.Declares matched) (outside : bindings.current = none)
    (type : RecordType) : (bindings.enterPattern type).Declares matched := by
  intro name meaning found
  have declared := declares name meaning found
  rw [outside] at declared
  cases meaning with
  | fact | factField | slot => exact declared
  | currentField =>
      obtain ⟨_, none, -⟩ := declared
      cases none

private theorem bindField (declares : bindings.Declares matched) {name field : String}
    (bound : bindings.bindField name field = .ok after) :
    after.Declares matched ∧ after.current = bindings.current := by
  unfold Bindings.bindField at bound
  split at bound
  · cases bound
  · next type isCurrent =>
      split at bound
      · cases bound
      · next declared isDeclared =>
          cases bound
          refine ⟨declares.insert (.currentField declared.name declared.type)
            ⟨type, isCurrent, ?_⟩ rfl rfl, rfl⟩
          rw [(RecordType.mem_of_field? isDeclared).2, isDeclared]
          rfl

/-- At the end of a pattern its fields are those of the fact that it matched, if it matched one. -/
theorem leavePattern (declares : bindings.Declares matched) {type : RecordType}
    (inside : bindings.current = some type) {index : Option Nat} {later : List RecordType}
    (earlier : matched <+: later) (own : ∀ i : Nat, index = some i → later[i]? = some type) :
    (bindings.leavePattern index).Declares later := by
  have kept : ∀ {i : Nat} {known}, matched[i]? = some known → later[i]? = some known := by
    intro i known found
    obtain ⟨rest, rfl⟩ := earlier
    rw [List.getElem?_append_left (List.getElem?_eq_some_iff.mp found).1]
    exact found
  intro name meaning found
  change (bindings.vars.filterMap _).find? name = some meaning at found
  rw [SortedMap.find?_filterMap] at found
  obtain ⟨old, isOld, leaves⟩ := Option.bind_eq_some_iff.mp found
  have declared := declares name old isOld
  cases old with
  | fact =>
      cases leaves
      exact kept declared
  | factField =>
      cases leaves
      obtain ⟨owner, isOwner, isField⟩ := declared
      exact ⟨owner, kept isOwner, isField⟩
  | currentField field fieldType =>
      obtain ⟨i, isIndex, rfl⟩ := Option.map_eq_some_iff.mp leaves
      rw [inside] at declared
      obtain ⟨owner, isOwner, isField⟩ := declared
      cases isOwner
      exact ⟨type, own i isIndex, isField⟩
  | slot =>
      cases leaves
      exact trivial

private theorem bindFact (declares : bindings.Declares matched) (name : String) {index : Nat}
    {type : RecordType} (isType : matched[index]? = some type) :
    (bindings.bindFact name index type).Declares matched :=
  declares.insert (.fact index type) isType rfl rfl

/-- Statements declare slots only. -/
theorem afterStatement (declares : bindings.Declares matched) (table : SymbolTable)
    (statement : Statement) : (bindings.afterStatement table statement).Declares matched := by
  cases statement with
  | bind name value => exact declares.insert (.slot _ _) trivial rfl rfl
  | eval | insert | modify | retract | setGlobal | halt => exact declares

end Bindings.Declares

/-! ## Conditions -/

namespace RuleDraft

variable {table : SymbolTable} {draft : RuleDraft}

/-- Between the conditions of a draft, the variables have the types of what they stand for, and
these are types that names stand for. -/
structure Declares (table : SymbolTable) (draft : RuleDraft) : Prop where
  declares : draft.bindings.Declares (Condition.matchedTypes draft.conditions)
  outside : draft.bindings.current = none
  arity : draft.arity = (Condition.matchedTypes draft.conditions).length
  listed : ∀ type ∈ Condition.matchedTypes draft.conditions, ∃ name listed,
    table.resolveType name = .ok listed ∧ listed.toRecordType = type

private theorem declares_addConstraint {matched : List RecordType} {inside : PatternDraft}
    (declares : inside.bindings.Declares matched) (constraint : Constraint) :
    (inside.addConstraint table constraint).bindings.Declares matched ∧
      (inside.addConstraint table constraint).bindings.current = inside.bindings.current := by
  unfold PatternDraft.addConstraint
  cases constraint with
  | bind var field =>
      dsimp only
      split
      · next bound => exact declares.bindField bound
      · exact ⟨declares, rfl⟩
  | test condition =>
      dsimp only
      split
      · split <;> exact ⟨declares, rfl⟩
      · exact ⟨declares, rfl⟩

private theorem declares_enter (table : SymbolTable) {matched : List RecordType}
    (declares : draft.bindings.Declares matched) (outside : draft.bindings.current = none)
    (type : RecordType) (constraints : List Constraint) :
    (draft.enter table type constraints).bindings.Declares matched ∧
      (draft.enter table type constraints).bindings.current = some type := by
  unfold enter
  apply List.foldlRecOn (motive := fun inside : PatternDraft =>
    inside.bindings.Declares matched ∧ inside.bindings.current = some type)
  · exact ⟨declares.enterPattern outside type, rfl⟩
  · intro inside ⟨within, current⟩ constraint _
    obtain ⟨still, same⟩ := declares_addConstraint within constraint
    exact ⟨still, same.trans current⟩

private theorem Declares.pattern (declares : draft.Declares table) {pattern : PatternDecl}
    {negated : Bool} {type : TypeDef} {outside : PatternDraft} {after : RuleDraft}
    (resolved : table.resolveType pattern.typeName = .ok type)
    (adds : AddsPattern table draft pattern negated type.toRecordType outside after) :
    after.Declares table := by
  have matched : Condition.matchedTypes after.conditions =
      if negated then Condition.matchedTypes draft.conditions
      else Condition.matchedTypes draft.conditions ++ [type.toRecordType] := by
    rw [adds.conditions, Condition.matchedTypes_concat_pattern]
  have earlier : Condition.matchedTypes draft.conditions <+:
      Condition.matchedTypes after.conditions := by
    rw [matched]
    split
    · exact List.prefix_refl _
    · exact List.prefix_append _ _
  have own : ∀ i : Nat, draft.nextIndex negated = some i →
      (Condition.matchedTypes after.conditions)[i]? = some type.toRecordType := by
    intro i isNext
    cases negated with
    | true => cases isNext
    | false =>
        cases isNext
        rw [matched, if_neg Bool.false_ne_true, declares.arity]
        exact List.getElem?_concat_length
  obtain ⟨within, current⟩ :=
    declares_enter table declares.declares declares.outside type.toRecordType pattern.constraints
  have left := within.leavePattern current earlier own
  refine ⟨?_, ?_, ?_, ?_⟩
  · rw [adds.bindings, adds.isOutside]
    unfold PatternDraft.leave PatternDraft.bindMatch
    split
    · next var i _ isNext => exact left.bindFact var (own i isNext)
    · exact left
    · exact left
  · rw [adds.bindings, adds.isOutside]
    unfold PatternDraft.leave PatternDraft.bindMatch
    split <;> rfl
  · rw [adds.arity, matched, declares.arity]
    split
    · rfl
    · rw [List.length_append]
      rfl
  · intro known member
    rw [matched] at member
    split at member
    · exact declares.listed known member
    · rcases List.mem_append.mp member with before | last
      · exact declares.listed known before
      · exact ⟨pattern.typeName, type, resolved, (List.mem_singleton.mp last).symm⟩

/-- Conditions without problems declare variables with the types of what they stand for. -/
theorem declares_of (conditions : List ConditionDecl)
    (clean : (RuleDraft.of table conditions).problems = []) :
    (RuleDraft.of table conditions).Declares table := by
  induction conditions using List.reverseRecOn with
  | nil => exact ⟨nofun, rfl, rfl, nofun⟩
  | append_singleton conditions last ih =>
      rw [of_concat] at clean ⊢
      cases isPattern : last.signed? with
      | some signed =>
          rw [addCondition_of_signed isPattern] at clean ⊢
          obtain ⟨type, outside, resolved, adds⟩ := addsPattern_of_clean clean
          exact (ih adds.problems.1).pattern resolved adds
      | none =>
          cases last with
          | pattern | absent => cases isPattern
          | eval condition =>
              obtain ⟨e, -, adds⟩ := addCondition_eval clean
              rw [adds] at clean ⊢
              obtain ⟨declares, outside, arity, listed⟩ := ih clean
              refine ⟨?_, outside, ?_, ?_⟩ <;> rw [Condition.matchedTypes_concat_eval]
              · exact declares
              · exact arity
              · exact listed

end RuleDraft

/-! ## Expressions -/

/-- What a type is known to be: that type, or nothing is known. -/
def ValueType.Weaker (known type : ValueType) : Prop := known = .any ∨ known = type

/-- The typing rule of an operator gives no other type where less is known of the operands. -/
theorem BinaryOp.resultType?_weaker {op : BinaryOp} {left right first second type : ValueType}
    (one : first.Weaker left) (two : second.Weaker right)
    (typed : op.resultType? left right = some type) :
    ((op.resultType? first second).getD .any).Weaker type := by
  by_cases both : first = left ∧ second = right
  · rw [both.1, both.2, typed]
    exact .inr rfl
  have isAny : first = .any ∨ second = .any := by
    by_contra known
    obtain ⟨first, second⟩ := not_or.mp known
    exact both ⟨one.resolve_left first, two.resolve_left second⟩
  by_cases truths : op ∉ computing
  · have isBool := resultType?_eq_bool truths left right
    rw [typed, Option.some.injEq] at isBool
    obtain rfl : type = .bool := isBool.resolve_right nofun
    rcases resultType?_eq_bool truths first second with known | unknown
    · rw [known]
      exact .inr rfl
    · rw [unknown]
      exact .inl rfl
  cases op with
  | sub | mul | div | rem => exact .inl (ValueType.arithmetic?_of_any isAny)
  | add =>
      unfold resultType? at typed ⊢
      dsimp only at typed ⊢
      split
      · next text =>
          -- A text that is known is there in either case.
          have texts : (left == .string || right == .string) = true := by
            rw [Bool.or_eq_true, beq_iff_eq, beq_iff_eq] at text ⊢
            rcases text with rfl | rfl
            · exact .inl (one.resolve_left (by decide)).symm
            · exact .inr (two.resolve_left (by decide)).symm
          rw [if_pos texts] at typed
          exact .inr (Option.some.inj typed)
      · exact .inl (ValueType.arithmetic?_of_any isAny)
  | eq | ne | lt | le | gt | ge | and | or => exact absurd (by decide) truths

private theorem UnaryOp.resultType?_weaker {op : UnaryOp} {operand given type : ValueType}
    (weaker : given.Weaker operand) (typed : op.resultType? operand = some type) :
    ((op.resultType? given).getD .any).Weaker type := by
  rcases weaker with rfl | rfl
  · cases op with
    | not =>
        unfold resultType? at typed
        dsimp only at typed
        split at typed
        · exact .inr (Option.some.inj typed)
        · cases typed
    | neg => exact .inl rfl
  · rw [typed]
    exact .inr rfl

/-- The form of an expression tells its static type, or nothing. -/
def Typed.Tells (matched : List RecordType) (typed : Typed) : Prop :=
  (typed.expr.evidentType matched).Weaker typed.type

namespace Bindings

variable {table : SymbolTable} {bindings : Bindings} {matched : List RecordType}

/-- What is compiled has a form that tells its static type, or nothing. -/
abbrev Telling (matched : List RecordType) (compiled : Except Diagnostic Typed) : Prop :=
  Outcome compiled (Typed.Tells matched) fun _ => True

private theorem telling_compileName (declares : bindings.Declares matched) (name : String) :
    Telling matched (bindings.compileName table name) := by
  unfold compileName
  split
  · next index type found =>
      have declared := declares name _ found
      refine .inr ?_
      dsimp only
      rw [Expr.evidentType, declared]
      rfl
  · next index field type found =>
      obtain ⟨owner, isOwner, isField⟩ := declares name _ found
      refine .inr ?_
      dsimp only
      rw [Expr.evidentType, isOwner, Option.bind_some, isField]
      rfl
  · exact .inl (by rw [Expr.evidentType])
  · exact .inl (by rw [Expr.evidentType])
  · split
    · exact .inl (by rw [Expr.evidentType])
    · split
      · exact .inl (by rw [Expr.evidentType])
      · exact trivial

private theorem telling_compileConstant (path field : String) :
    Telling matched (compileConstant table path field) := by
  refine Outcome.bind (.trivial _) fun owner _ => ?_
  split
  · exact .inr (by rw [Expr.evidentType])
  · dsimp only
    split <;> exact trivial

/-- Fields of matched facts are looked up in the type that the catalog has under their name. -/
theorem telling_compileFieldOf {target : Typed} (tells : target.Tells matched)
    (listed : table.catalog.ListsAll matched) (field : String) :
    Telling matched (compileFieldOf table target field) := by
  obtain ⟨e, static⟩ := target
  unfold compileFieldOf
  cases isField : fieldType table static field with
  | error problem => exact trivial
  | ok type =>
      cases e with
      | fact index =>
          change ((Expr.factField index field).evidentType matched).Weaker type
          rw [Expr.evidentType]
          cases isOwner : matched[index]? with
          | none => exact .inl rfl
          | some owner =>
              obtain ⟨known, isKnown, rfl⟩ := listed owner (List.mem_of_getElem? isOwner)
              have isStatic : known.valueType = static := by
                rw [Typed.Tells, Expr.evidentType, isOwner] at tells
                exact tells.resolve_left fun isAny => by cases isAny
              rw [← isStatic] at isField
              unfold fieldType RecordType.valueType at isField
              dsimp only at isField
              rw [isKnown] at isField
              dsimp only at isField
              split at isField
              · next declared isDeclared =>
                  cases isField
                  rw [Option.bind_some, isDeclared]
                  exact .inr rfl
              · cases isField
      | const | slot | factField | currentField | global | field | call | method | updateGlobal
      | construct | binary | unary => exact .inl (by rw [Expr.evidentType])

private theorem telling_compileMethodOf (receiver : Typed) (name : String) (args : List Typed) :
    Telling matched (compileMethodOf table receiver name args) := by
  unfold compileMethodOf
  split
  · exact Outcome.bind (.trivial _) fun type _ => .inl (by rw [Expr.evidentType])
  · split
    · exact trivial
    · next method _ =>
        dsimp only
        split
        · exact trivial
        · split
          · exact trivial
          · change ((Expr.method _ method _).evidentType matched).Weaker _
            rw [Expr.evidentType]
            cases method with
            | get => exact .inl rfl
            | equals | toString | length | size | isEmpty | contains | toUpperCase | toLowerCase
            | startsWith | endsWith | concat => exact .inr rfl

/-- An expression that is compiled has a form that tells its static type, or nothing. -/
theorem telling_compile (declares : bindings.Declares matched)
    (listed : table.catalog.ListsAll matched) (term : Term) :
    Telling matched (bindings.compile table term) := by
  cases term with
  | literal value =>
      rw [compile]
      exact .inr (by rw [Expr.evidentType])
  | name name =>
      rw [compile]
      exact telling_compileName declares name
  | field target field =>
      rw [compile]
      split
      · exact telling_compileConstant _ field
      · exact Outcome.bind (telling_compile declares listed target) fun typed tells =>
          telling_compileFieldOf tells listed field
  | call name args =>
      rw [compile]
      exact Outcome.bind (.trivial _) fun args _ => Outcome.bind (.trivial _) fun _ _ =>
        .inl (by rw [compileCall, Expr.evidentType])
  | method target name args =>
      rw [compile]
      split
      · exact Outcome.bind (.trivial _) fun _ _ => Outcome.bind (.trivial _) fun _ _ =>
          Outcome.bind (.trivial _) fun _ _ => .inl (by rw [compileCall, Expr.evidentType])
      · split
        · exact Outcome.bind (.trivial _) fun _ _ => Outcome.bind (.trivial _) fun _ _ =>
            .inr (by rw [Expr.evidentType])
        · exact Outcome.bind (.trivial _) fun receiver _ => Outcome.bind (.trivial _) fun args _ =>
            telling_compileMethodOf receiver name args
  | construct typeName args =>
      rw [compile]
      refine Outcome.bind (.trivial _) fun type _ => ?_
      dsimp only
      split
      · exact trivial
      · refine Outcome.bind (.trivial _) fun args _ => ?_
        split
        · exact trivial
        · exact .inr (by rw [Expr.evidentType])
  | binary op left right =>
      rw [compile]
      refine Outcome.bind (telling_compile declares listed left) fun left one => ?_
      refine Outcome.bind (telling_compile declares listed right) fun right two => ?_
      split
      · next type typed =>
          change ((Expr.binary op left.expr right.expr).evidentType matched).Weaker type
          rw [Expr.evidentType]
          exact BinaryOp.resultType?_weaker one two typed
      · exact trivial
  | unary op operand =>
      rw [compile]
      refine Outcome.bind (telling_compile declares listed operand) fun operand tells => ?_
      split
      · next type typed =>
          change ((Expr.unary op operand.expr).evidentType matched).Weaker type
          rw [Expr.evidentType]
          exact UnaryOp.resultType?_weaker tells typed
      · exact trivial

end Bindings

/-! ## Assignments -/

/-- The values that are assigned have types that the fields accept, as far as their form tells. -/
def RecordType.Checks (type : RecordType) (matched : List RecordType)
    (assignments : List (String × Expr)) : Prop :=
  ∀ assigned ∈ assignments, ∃ field, type.field? assigned.1 = some field ∧
    field.type.accepts (assigned.2.evidentType matched) = true

/-- An action that assigns values has passed the check of their types, for the type of the fact that
it changes. -/
def Action.Checked (matched : List RecordType) : Action → Prop
  | .modify index _ assignments =>
    ∃ type, matched[index]? = some type ∧ type.Checks matched assignments
  | .eval _ | .bind .. | .insert _ | .retract .. | .setGlobal .. | .halt => True

namespace Bindings

variable {table : SymbolTable} {bindings : Bindings} {matched : List RecordType}

private theorem checks_compileAssignments (declares : bindings.Declares matched)
    (listed : table.catalog.ListsAll matched) (type : RecordType)
    (assignments : List (String × Term)) :
    Outcome (bindings.compileAssignments table type assignments) (type.Checks matched)
      fun _ => True := by
  induction assignments with
  | nil => exact fun _ none => absurd none List.not_mem_nil
  | cons assignment rest ih =>
      obtain ⟨name, value⟩ := assignment
      unfold compileAssignments
      cases isField : type.field? name with
      | none => exact trivial
      | some field =>
          refine Outcome.bind (telling_compile declares listed value) fun typed tells => ?_
          split
          · exact trivial
          · next accepted =>
              refine Outcome.bind ih fun others checks => ?_
              refine List.forall_mem_cons.mpr ⟨⟨field, ?_, ?_⟩, checks⟩
              · rw [(RecordType.mem_of_field? isField).2, isField]
              · rcases tells with unknown | known
                · rw [unknown]
                  exact ValueType.accepts_any _
                · rw [known]
                  simpa using accepted

private theorem declared_factOf (declares : bindings.Declares matched) (var : String) :
    Outcome (bindings.factOf var) (fun found => matched[found.1]? = some found.2)
      fun _ => True := by
  unfold factOf
  split
  · next found => exact declares var _ found
  · exact trivial
  · exact trivial

private theorem checked_compilePlain (declares : bindings.Declares matched)
    (listed : table.catalog.ListsAll matched) (statement : Statement) :
    Outcome (bindings.compilePlain table statement) (Action.Checked matched) fun _ => True := by
  cases statement with
  | modify var assignments =>
      refine Outcome.bind (declared_factOf declares var) fun found isType => ?_
      refine Outcome.bind (checks_compileAssignments declares listed found.2 assignments) ?_
      exact fun compiled checks => ⟨found.2, isType, checks⟩
  | eval e | bind name e | retract name => exact Outcome.bind (.trivial _) fun _ _ => trivial
  | insert e =>
      refine Outcome.bind (.trivial _) fun typed _ => ?_
      split <;> exact trivial
  | setGlobal name e =>
      rw [compilePlain]
      split
      · exact trivial
      · refine Outcome.bind (.trivial _) fun typed _ => ?_
        split <;> exact trivial
  | halt => exact trivial

/-- All actions of statements have passed the check. -/
theorem checked_compileStatements (declares : bindings.Declares matched)
    (listed : table.catalog.ListsAll matched) (statements : List Statement) :
    ∀ action ∈ (compileStatements table bindings statements).1, action.Checked matched := by
  induction statements generalizing bindings with
  | nil => exact fun _ none => absurd none List.not_mem_nil
  | cons statement rest ih =>
      have later := ih (declares.afterStatement table statement)
      have first := checked_compilePlain declares listed statement
      rw [compileStatements_cons]
      dsimp only
      cases compiled : bindings.compilePlain table statement with
      | error problem => exact later
      | ok action =>
          rw [compiled] at first
          exact List.forall_mem_cons.mpr ⟨first, later⟩

end Bindings

namespace KnowledgeBase

variable {base : KnowledgeBase}

/-- The rules of a knowledge base match facts of types of the catalog, and the values that their
actions assign have passed the check of their types. -/
theorem Made.checked (made : base.Made) (titled : base.catalog.Titled) {id : RuleId} {rule : Rule}
    (isRule : base.network.rule? id = some rule) :
    base.catalog.ListsAll (Condition.matchedTypes rule.conditions) ∧
      ∀ action ∈ rule.consequence.actions,
        action.Checked (Condition.matchedTypes rule.conditions) := by
  obtain ⟨entry, isEntry, rfl⟩ := Option.map_eq_some_iff.mp isRule
  obtain ⟨name, scope, found, own, compiled⟩ := made.compiled.network.origin_of_found isEntry
  obtain ⟨declared, -, -, rfl⟩ := made.compiled.packages found
  have drafted := RuleDecl.drafted_of_compile compiled
  have declares := RuleDraft.declares_of own.conditions drafted.clean
  have listed : base.catalog.ListsAll (Condition.matchedTypes entry.rule.conditions) := by
    intro type member
    obtain ⟨written, listed, resolved, rfl⟩ := declares.listed type (drafted.conditions ▸ member)
    exact ⟨listed, (PackageDecl.lists_compile titled declared).listed resolved, rfl⟩
  refine ⟨listed, ?_⟩
  rw [(Bindings.actions_of_compileConsequence drafted.consequence).2]
  apply Bindings.checked_compileStatements
  · rw [drafted.conditions]
    exact declares.declares
  · rw [PackageDecl.catalog_compile]
    exact listed

end KnowledgeBase

end Rete
