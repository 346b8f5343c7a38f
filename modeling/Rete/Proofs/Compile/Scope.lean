import Rete.Compile.Package
import Rete.Proofs.Evaluation

/-!
# The scope of compiled expressions

A compiled expression only refers to what there is where it stands (`Expr.Fits`): facts that are
matched, slots of the frame, the fact under test, functions of the package. The variables in scope
stand for such things (`Bindings.Fits`), so what they are compiled to fits
(`Bindings.compile_fits`). Every problem found on the way is an error.
-/

namespace Rete

/-- What there is for an expression to refer to. -/
structure Room where
  /-- The number of facts matched so far. -/
  facts : Nat := 0
  /-- The number of slots of the frame. -/
  slots : Nat := 0
  /-- Whether there is a fact under test. -/
  current : Bool := false
  /-- The number of functions of the package. -/
  functions : Nat := 0
  /-- Whether globals may be changed. -/
  updates : Bool := false

/-- A match in progress has the facts that a place counts on. -/
structure MatchScope.Meets (scope : MatchScope) (room : Room) : Prop where
  facts : room.facts ≤ scope.tuple.length
  current : room.current = true → scope.current.isSome = true

/-- There is at least as much in the second place as in the first. -/
structure Room.Within (room larger : Room) : Prop where
  facts : room.facts ≤ larger.facts
  slots : room.slots ≤ larger.slots
  current : room.current = true → larger.current = true
  functions : room.functions ≤ larger.functions
  updates : room.updates = true → larger.updates = true

/-! ## Expressions that fit -/

namespace Expr

variable {room : Room}

/-- What the expression itself refers to is there. -/
def FitsAt (room : Room) : Expr → Prop
  | slot index => index < room.slots
  | fact index | factField index _ => index < room.facts
  | currentField _ => room.current = true
  | call _ (.localFunction index) _ => index < room.functions
  | updateGlobal .. => room.updates = true
  | const _ | global _ | field .. | call _ (.native _) _ | method .. | construct .. | binary ..
  | unary .. => True

/-- What the expression and those inside it refer to is there. -/
def Fits (room : Room) (e : Expr) : Prop := ∀ part ∈ e.parts, part.FitsAt room

private theorem mem_partsOf {args : List Expr} {part : Expr} :
    part ∈ partsOf args ↔ ∃ arg ∈ args, part ∈ arg.parts := by
  induction args with
  | nil => simp [partsOf]
  | cons arg rest ih => simp [partsOf, ih]

/-- The parts of arguments fit a room exactly if the arguments do. -/
theorem forall_mem_partsOf {args : List Expr} :
    (∀ part ∈ partsOf args, part.FitsAt room) ↔ ∀ arg ∈ args, arg.Fits room := by
  simp only [mem_partsOf, Fits]
  exact ⟨fun fits arg member part inside => fits part ⟨arg, member, inside⟩,
    fun fits part ⟨arg, member, inside⟩ => fits arg member part inside⟩

@[simp] theorem fits_const (value : Value) : (const value).Fits room := by
  simp [Fits, parts, FitsAt]

@[simp] theorem fits_global (name : String) : (global name).Fits room := by
  simp [Fits, parts, FitsAt]

@[simp] theorem fits_slot {index : Nat} : (slot index).Fits room ↔ index < room.slots := by
  simp [Fits, parts, FitsAt]

@[simp] theorem fits_fact {index : Nat} : (fact index).Fits room ↔ index < room.facts := by
  simp [Fits, parts, FitsAt]

@[simp] theorem fits_factField {index : Nat} {name : String} :
    (factField index name).Fits room ↔ index < room.facts := by
  simp [Fits, parts, FitsAt]

@[simp] theorem fits_currentField {name : String} :
    (currentField name).Fits room ↔ room.current = true := by
  simp [Fits, parts, FitsAt]

@[simp] theorem fits_field {target : Expr} {name : String} :
    (field target name).Fits room ↔ target.Fits room := by
  simp [Fits, parts, FitsAt]

@[simp] theorem fits_call {name : String} {callee : Callee} {args : List Expr} :
    (call name callee args).Fits room ↔
      (call name callee args).FitsAt room ∧ ∀ arg ∈ args, arg.Fits room := by
  rw [← forall_mem_partsOf]
  simp [Fits, parts]

@[simp] theorem fits_method {receiver : Expr} {called : Method} {args : List Expr} :
    (method receiver called args).Fits room ↔
      receiver.Fits room ∧ ∀ arg ∈ args, arg.Fits room := by
  rw [← forall_mem_partsOf]
  simp [Fits, parts, FitsAt, or_imp, forall_and]

@[simp] theorem fits_updateGlobal {name : String} {update : ListUpdate} {args : List Expr} :
    (updateGlobal name update args).Fits room ↔
      room.updates = true ∧ ∀ arg ∈ args, arg.Fits room := by
  rw [← forall_mem_partsOf]
  simp [Fits, parts, FitsAt]

@[simp] theorem fits_construct {type : RecordType} {args : List Expr} :
    (construct type args).Fits room ↔ ∀ arg ∈ args, arg.Fits room := by
  rw [← forall_mem_partsOf]
  simp [Fits, parts, FitsAt]

@[simp] theorem fits_binary {op : BinaryOp} {left right : Expr} :
    (binary op left right).Fits room ↔ left.Fits room ∧ right.Fits room := by
  simp [Fits, parts, FitsAt, or_imp, forall_and]

@[simp] theorem fits_unary {op : UnaryOp} {operand : Expr} :
    (unary op operand).Fits room ↔ operand.Fits room := by
  simp [Fits, parts, FitsAt]

/-- An expression that has room where no fact is matched reads none. -/
theorem Fits.readsTuple {e : Expr} (fits : e.Fits room) (none : room.facts = 0) :
    e.readsTuple = false := by
  refine Bool.eq_false_iff.mpr fun reads => ?_
  obtain ⟨part, member, isRead⟩ := (any_iff e).mp reads
  have here := fits part member
  cases part with
  | fact | factField =>
      rw [FitsAt, none] at here
      exact absurd here (Nat.not_lt_zero _)
  | const | slot | currentField | global | field | call | method | updateGlobal | construct
  | binary | unary => cases isRead

/-- An expression that reads no fact needs none. -/
theorem Fits.of_not_readsTuple {e : Expr} (fits : e.Fits room) (reads : e.readsTuple = false) :
    e.Fits { room with facts := 0 } := by
  intro part member
  have here := fits part member
  have silent : ¬ _ := fun isRead =>
      Bool.eq_false_iff.mp reads ((any_iff e).mpr ⟨part, member, isRead⟩)
  cases part with
  | fact | factField => exact absurd rfl silent
  | call name callee args => cases callee <;> exact here
  | const | slot | currentField | global | field | method | updateGlobal | construct | binary
  | unary => exact here

end Expr

/-! ## Problems -/

namespace Diagnostic

variable (problem : Diagnostic)

@[simp] theorem isError_withPackage (package : String) :
    (problem.withPackage package).isError = problem.isError := rfl

@[simp] theorem isError_withRule (rule : String) :
    (problem.withRule rule).isError = problem.isError := rfl

@[simp] theorem isError_withSymbol (symbol : String) :
    (problem.withSymbol symbol).isError = problem.isError := rfl

@[simp] theorem isError_withSpan (span : Span) :
    (problem.withSpan span).isError = problem.isError := by
  unfold withSpan
  split <;> rfl

end Diagnostic

/-- A result of compiling something: a value of which something holds, or an error. -/
abbrev Compiles {α : Type} (result : Except Diagnostic α) (value : α → Prop) : Prop :=
  Outcome result value fun problem => problem.isError = true

namespace Compiles

variable {α : Type} {result : Except Diagnostic α} {value : α → Prop}

/-- What compilation yields has the property in question. -/
theorem of_ok (compiles : Compiles result value) {a : α} (isOk : result = .ok a) : value a := by
  rw [isOk] at compiles
  exact compiles

/-- What stops compilation is an error. -/
theorem of_error (compiles : Compiles result value) {problem : Diagnostic}
    (isError : result = .error problem) : problem.isError = true := by
  rw [isError] at compiles
  exact compiles

end Compiles

/-! ## Names -/

namespace SymbolTable

variable (table : SymbolTable)

private theorem compiles_resolveSimpleType (name : String) :
    Compiles (table.resolveSimpleType name) fun _ => True := by
  unfold resolveSimpleType
  repeat' split
  all_goals first | exact trivial | rfl

/-- A type that is not found is reported as an error. -/
theorem compiles_resolveType (name : String) :
    Compiles (table.resolveType name) fun _ => True := by
  unfold resolveType
  dsimp only
  split
  · exact table.compiles_resolveSimpleType name
  · next head rest _ =>
      have outer := table.compiles_resolveSimpleType head
      split
      · split
        · exact trivial
        · rfl
      · next isError =>
          split
          · exact outer.of_error isError
          · split
            · exact trivial
            · rfl

end SymbolTable

/-- A choice of overload that fails is reported as an error. -/
theorem compiles_selectOverload (name : String) (candidates : List Candidate)
    (args : List ValueType) : Compiles (selectOverload name candidates args) fun _ => True := by
  unfold selectOverload
  dsimp only
  repeat' split
  all_goals first | exact trivial | rfl

/-- What a call runs is there: a static function, or one of so many functions of the package. -/
def CallableRef.Within (count : Nat) (callable : CallableRef) : Prop :=
  match callable.callee with
  | .native _ => True
  | .localFunction index => index < count

private theorem CallableRef.Within.mono {count more : Nat} {callable : CallableRef}
    (within : callable.Within count) (enough : count ≤ more) : callable.Within more := by
  unfold CallableRef.Within at within ⊢
  split
  · exact trivial
  · next isLocal =>
      rw [isLocal] at within
      exact Nat.lt_of_lt_of_le within enough

namespace SymbolTable

private theorem compiles_selectNative {name : String} {natives : List Native}
    {args : List ValueType} {origin : BindingOrigin} {count : Nat} :
    Compiles (selectNative name natives args origin) (·.Within count) := by
  unfold selectNative
  refine Outcome.bind (compiles_selectOverload ..) fun index _ => ?_
  split
  · exact trivial
  · rfl

private theorem compiles_resolveCallable (table : SymbolTable) (name : String)
    (args : List ValueType) :
    Compiles (table.resolveCallable name args) (·.Within table.declared.length) := by
  unfold resolveCallable
  cases isDeclared : table.declared.zipIdx.filter fun entry => entry.1.1 == name with
  | nil =>
      dsimp only
      split
      · rfl
      · split
        · exact compiles_selectNative
        · exact compiles_selectNative
        · rfl
  | cons first rest =>
      refine Outcome.bind (compiles_selectOverload ..) fun pick _ => ?_
      split
      · next signature index picked =>
          have member := List.mem_of_getElem? picked
          rw [← isDeclared] at member
          exact List.snd_lt_of_mem_zipIdx (List.mem_filter.mp member).1
      · rfl

end SymbolTable

private theorem TypeDef.compiles_resolveCall (type : TypeDef) (name : String)
    (args : List ValueType)
    (count : Nat) : Compiles (type.resolveCall name args) (·.Within count) := by
  unfold resolveCall
  split
  · rfl
  · exact SymbolTable.compiles_selectNative

/-! ## Variables in scope -/

/-- What a variable stands for is there. -/
def Variable.Fits (room : Room) : Variable → Prop
  | .fact index _ | .factField index _ _ => index < room.facts
  | .currentField _ _ => room.current = true
  | .slot index _ => index < room.slots

/-- A variable that fits a room fits every larger one. -/
theorem Variable.Fits.mono {room larger : Room} {meaning : Variable} (fits : meaning.Fits room)
    (within : room.Within larger) : meaning.Fits larger := by
  cases meaning with
  | fact | factField => exact Nat.lt_of_lt_of_le fits within.facts
  | currentField => exact within.current fits
  | slot => exact Nat.lt_of_lt_of_le fits within.slots

/-- What the variables in scope stand for is there, and the fact under test if its fields can be
named. -/
structure Bindings.Fits (room : Room) (bindings : Bindings) : Prop where
  vars : ∀ {name meaning}, bindings.vars.find? name = some meaning → meaning.Fits room
  current : bindings.current.isSome = true → room.current = true
  updates : bindings.mayUpdate = true → room.updates = true

/-- A scope that fits a room fits every larger one. -/
theorem Bindings.Fits.mono {room larger : Room} {bindings : Bindings} (fits : bindings.Fits room)
    (within : room.Within larger) : bindings.Fits larger where
  vars found := (fits.vars found).mono within
  current inside := within.current (fits.current inside)
  updates may := within.updates (fits.updates may)

/-! ## Terms -/

namespace Bindings

variable {table : SymbolTable} {bindings : Bindings} {room : Room}

/-- A compiled expression fits. -/
abbrev Fitting (room : Room) (typed : Typed) : Prop := typed.expr.Fits room

private theorem compiles_name (fits : bindings.Fits room) (name : String) :
    Compiles (bindings.compileName table name) (Fitting room) := by
  unfold compileName
  cases found : bindings.vars.find? name with
  | some meaning =>
      have here := fits.vars found
      cases meaning with
      | fact => exact Expr.fits_fact.mpr here
      | factField => exact Expr.fits_factField.mpr here
      | currentField => exact Expr.fits_currentField.mpr here
      | slot => exact Expr.fits_slot.mpr here
  | none =>
      dsimp only
      split
      · next isField =>
          obtain ⟨type, isCurrent, -⟩ := Option.bind_eq_some_iff.mp isField
          exact Expr.fits_currentField.mpr (fits.current (isCurrent ▸ rfl))
      · split
        · exact Expr.fits_global _
        · rfl

private theorem compiles_constant (path field : String) :
    Compiles (compileConstant table path field) (Fitting room) := by
  unfold compileConstant
  refine Outcome.bind (table.compiles_resolveType path) fun owner _ => ?_
  split
  · exact Expr.fits_const _
  · dsimp only
    split <;> rfl

private theorem compiles_fieldType (owner : ValueType) (field : String) :
    Compiles (fieldType table owner field) fun _ => True := by
  unfold fieldType
  repeat' split
  all_goals first | exact trivial | rfl

private theorem compiles_fieldOf {target : Typed} (fits : Fitting room target) (field : String) :
    Compiles (compileFieldOf table target field) (Fitting room) := by
  unfold compileFieldOf
  refine Outcome.bind (compiles_fieldType target.type field) fun type _ => ?_
  obtain ⟨expr, own⟩ := target
  cases expr with
  | fact => exact Expr.fits_factField.mpr (Expr.fits_fact.mp fits)
  | const | slot | factField | currentField | global | field | call | method | updateGlobal
  | construct | binary | unary => exact Expr.fits_field.mpr fits

private theorem fitting_call {callable : CallableRef} (within : callable.Within room.functions)
    {args : List Typed} (fits : ∀ arg ∈ args, Fitting room arg) :
    Fitting room (compileCall callable args) := by
  refine Expr.fits_call.mpr ⟨?_, List.forall_mem_map.mpr fits⟩
  obtain ⟨name, origin, signature, callee⟩ := callable
  cases callee with
  | native => exact trivial
  | localFunction index => exact within

private theorem compiles_methodOf {receiver : Typed} (fits : Fitting room receiver) (name : String)
    {args : List Typed} (each : ∀ arg ∈ args, Fitting room arg) :
    Compiles (compileMethodOf table receiver name args) (Fitting room) := by
  unfold compileMethodOf
  split
  · refine Outcome.bind (compiles_fieldType receiver.type _) fun type _ => ?_
    exact Expr.fits_field.mpr fits
  · split
    · rfl
    · dsimp only
      split
      · rfl
      · split
        · rfl
        · exact Expr.fits_method.mpr ⟨fits, List.forall_mem_map.mpr each⟩

/-- A change of a global compiles only where globals may be changed. -/
theorem compiles_globalUpdate (fits : bindings.Fits room) (global : String) (type : ValueType)
    (update : ListUpdate) (argCount : Nat) :
    Compiles (bindings.checkGlobalUpdate global type update argCount)
      fun _ => room.updates = true := by
  unfold checkGlobalUpdate
  cases may : bindings.mayUpdate with
  | false => rfl
  | true =>
      have updates := fits.updates may
      simp only [Bool.not_true, Bool.false_eq_true, ↓reduceIte]
      repeat' split
      all_goals first | exact updates | rfl

mutual

/-- What an expression is compiled to refers to what there is. -/
theorem compile_fits (declared : table.declared.length ≤ room.functions)
    (fits : bindings.Fits room) :
    (term : Term) → Compiles (bindings.compile table term) (Fitting room)
  | .literal value => by
      rw [compile]
      exact Expr.fits_const value
  | .name name => by
      rw [compile]
      exact compiles_name fits name
  | .field target field => by
      rw [compile]
      split
      · exact compiles_constant _ field
      · refine Outcome.bind (compile_fits declared fits target) fun typed here => ?_
        exact compiles_fieldOf here field
  | .call name args => by
      rw [compile]
      refine Outcome.bind (compileArgs_fit declared fits args) fun args each => ?_
      refine Outcome.bind (table.compiles_resolveCallable name _) fun callable within => ?_
      exact fitting_call (within.mono declared) each
  | .method target name args => by
      rw [compile]
      split
      · refine Outcome.bind (table.compiles_resolveType _) fun owner _ => ?_
        refine Outcome.bind (compileArgs_fit declared fits args) fun args each => ?_
        refine Outcome.bind (owner.compiles_resolveCall name _ room.functions)
          fun callable within => ?_
        exact fitting_call within each
      · split
        · refine Outcome.bind (compiles_globalUpdate fits _ _ _ _) fun _ updates => ?_
          refine Outcome.bind (compileArgs_fit declared fits args) fun args each => ?_
          exact Expr.fits_updateGlobal.mpr ⟨updates, List.forall_mem_map.mpr each⟩
        · refine Outcome.bind (compile_fits declared fits target) fun receiver here => ?_
          refine Outcome.bind (compileArgs_fit declared fits args) fun args each => ?_
          exact compiles_methodOf here name each
  | .construct typeName args => by
      rw [compile]
      refine Outcome.bind (table.compiles_resolveType typeName) fun type _ => ?_
      dsimp only
      split
      · rfl
      · refine Outcome.bind (compileArgs_fit declared fits args) fun args each => ?_
        split
        · rfl
        · exact Expr.fits_construct.mpr (List.forall_mem_map.mpr each)
  | .binary op left right => by
      rw [compile]
      refine Outcome.bind (compile_fits declared fits left) fun left here => ?_
      refine Outcome.bind (compile_fits declared fits right) fun right there => ?_
      split
      · exact Expr.fits_binary.mpr ⟨here, there⟩
      · rfl
  | .unary op operand => by
      rw [compile]
      refine Outcome.bind (compile_fits declared fits operand) fun operand here => ?_
      split
      · exact Expr.fits_unary.mpr here
      · rfl

private theorem compileArgs_fit (declared : table.declared.length ≤ room.functions)
    (fits : bindings.Fits room) :
    (args : List Term) → Compiles (bindings.compileArgs table args)
      fun typed => ∀ arg ∈ typed, Fitting room arg
  | [] => by
      rw [compileArgs]
      exact fun _ none => absurd none List.not_mem_nil
  | arg :: args => by
      rw [compileArgs]
      refine Outcome.bind (compile_fits declared fits arg) fun typed here => ?_
      refine Outcome.bind (compileArgs_fit declared fits args) fun rest each => ?_
      exact List.forall_mem_cons.mpr ⟨here, each⟩

end

/-- A test compiles to an expression that fits the room. -/
theorem compileCondition_fits (declared : table.declared.length ≤ room.functions)
    (fits : bindings.Fits room) (condition : Term) :
    Compiles (bindings.compileCondition table condition) (Expr.Fits room) := by
  refine Outcome.bind (compile_fits declared fits condition) fun typed here => ?_
  split
  · exact here
  · rfl

end Bindings

end Rete
