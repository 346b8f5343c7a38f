import Rete.Proofs.Compile.Rule
import Rete.Proofs.Computation

/-!
# Evaluation without internal errors

An expression that refers to what there is (`Expr.Fits`) does not fail internally: its tuple and its
frame are long enough, functions that it calls are found, and it changes no global where that is not
allowed (`Expr.evalWith_calm`, `Evaluation.calm_eval`). What remains are errors of operators
and methods, of limits, and of host functions, which are trusted not to fail internally
(`Catalog.Trusted`).
-/

namespace Rete

/-! ## Internal errors -/

mutual

/-- Whether something happened that compiled rules never do. -/
def Cause.isInternal : Cause → Bool
  | .internal _ => true
  | .consequenceFailure _ source => source.isInternal
  | .typeMismatch .. | .arityMismatch .. | .unknownFact _ | .unknownType _ | .unknownField ..
  | .unknownGlobal _ | .undefinedMethod .. | .duplicateDefinition _ | .divisionByZero
  | .indexOutOfBounds .. | .limitExceeded _ | .sessionDisposed | .snapshotMismatch _
  | .serialization _ | .io _ => false

/-- Whether the error, or one inside a failed consequence, is internal. -/
def Error.isInternal : Error → Bool
  | .mk cause _ => cause.isInternal

end

/-- The error is not internal, nor is one inside it. -/
abbrev Error.Ordinary (error : Error) : Prop := error.isInternal = false

private theorem Error.Ordinary.withContext {error : Error} (ordinary : error.Ordinary)
    (context : ErrorContext) : (error.withContext context).Ordinary := by
  cases error
  exact ordinary

/-- A result that is not an internal error. -/
abbrev Contained {α : Type} (result : Except Error α) : Prop :=
  Outcome result (fun _ => True) Error.Ordinary

/-! ## Operators and methods -/

namespace Value

/-- A value that is no truth value is reported, never a broken invariant. -/
theorem contained_truth (value : Value) : Contained value.truth := by
  cases value with
  | bool => exact trivial
  | nil | int | float | string | list | object => exact rfl

variable (left right : Value)

/-- Arithmetic on the wrong values is reported, never a broken invariant. -/
theorem contained_arithmetic (ints : Int64 → Int64 → Int64)
    (floats : Binary64 → Binary64 → Binary64) : Contained (arithmetic ints floats left right) := by
  unfold arithmetic
  split <;> first | exact trivial | exact rfl

private theorem contained_divide (ints : Int64 → Int64 → Int64)
    (floats : Binary64 → Binary64 → Binary64) : Contained (divide ints floats left right) := by
  unfold divide
  split
  · exact rfl
  · exact contained_arithmetic left right ints floats

private theorem contained_add : Contained (left.add right) := by
  unfold add
  split
  · exact trivial
  · exact trivial
  · exact contained_arithmetic left right _ _

private theorem contained_ordered (holds : Ordering → Bool) : Contained
    (ordered holds left right) := by
  have compared : Contained (left.compare? right) := by
    unfold compare?
    split <;> first | exact trivial | exact rfl
  exact compared.bind fun _ _ => trivial

end Value

private theorem BinaryOp.contained_apply (op : BinaryOp) (left right : Value) :
    Contained (op.apply left right) := by
  cases op with
  | add => exact Value.contained_add left right
  | sub | mul => exact Value.contained_arithmetic left right _ _
  | div | rem => exact Value.contained_divide left right _ _
  | eq | ne => exact trivial
  | lt | le | gt | ge => exact Value.contained_ordered left right _
  | and | or =>
      refine Outcome.bind left.contained_truth fun first _ => ?_
      cases first <;> first
        | exact trivial
        | exact Outcome.bind right.contained_truth fun _ _ => trivial

private theorem UnaryOp.contained_apply (op : UnaryOp) (operand : Value) :
    Contained (op.apply operand) := by
  unfold apply
  split <;> first | exact trivial | exact rfl

private theorem Method.contained_elementAt (items : List Value) (index : Int64) :
    Contained (elementAt items index) := by
  unfold elementAt
  dsimp only
  generalize (if index.toInt < 0 then none else items[index.toInt.toNat]?) = found
  cases found with
  | some item => exact trivial
  | none => exact rfl

private theorem Method.contained_invoke (method : Method) (receiver : Value) (args : List Value) :
    Contained (method.invoke receiver args) := by
  unfold invoke
  dsimp only
  split <;> first
    | exact trivial
    | split <;> first
      | exact trivial
      | exact rfl
      | exact contained_elementAt _ _

private theorem ListUpdate.contained_apply (update : ListUpdate) (current : Value)
    (args : List Value) :
    Contained (update.apply current args) := by
  unfold apply
  split
  · exact trivial
  · exact trivial
  · split <;> exact rfl

private theorem RecordType.contained_instantiate (type : RecordType) (values : List Value) :
    Contained (type.instantiate values) := by
  have assigned : ∀ (fields : List FieldDef) (values : List Value) (o : Object),
      Contained (assign o fields values) := by
    intro fields
    induction fields with
    | nil => exact fun values o => trivial
    | cons field rest ih =>
        intro values o
        cases values with
        | nil => exact trivial
        | cons value others =>
            unfold assign
            split
            · exact ih others _
            · exact rfl
  unfold instantiate
  split
  · exact assigned _ _ _
  · exact rfl

/-- No host function fails internally. -/
def Catalog.Trusted (catalog : Catalog) : Prop :=
  ∀ name type, catalog.get? name = some type → ∀ function ∈ type.functions, ∀ args,
    Contained (function.host args)

private theorem Catalog.Trusted.contained_call {catalog : Catalog} (trusted : catalog.Trusted)
    (native : Native) (args : List Value) : Contained (catalog.call native args) := by
  unfold call
  split
  · next function found =>
      obtain ⟨type, isType, isFunction⟩ := Option.bind_eq_some_iff.mp found
      unfold HostFunction.call
      split
      · exact trusted _ type isType function (List.mem_of_find?_eq_some isFunction) args
      · exact rfl
  · exact rfl

/-! ## Expressions -/

/-- A computation on globals that does not fail internally. -/
abbrev GlobalsM.Calm {α : Type} (operation : GlobalsM α) : Prop :=
  Safe (fun _ => True) Error.Ordinary operation

/-- There is as much to refer to as an expression needs. -/
structure Room.Filled (room : Room) (evaluation : Evaluation) (scope : MatchScope)
    (frame : List Value) : Prop extends scope.Meets room where
  slots : room.slots ≤ frame.length
  updates : room.updates = true → evaluation.access ≠ .readOnly

section

open GlobalsM

variable {call : LocalCall} {evaluation : Evaluation} {scope : MatchScope} {frame : List Value}
  {room : Room}

private theorem Evaluation.contained_tupleFact {index : Nat} (within : index < scope.tuple.length) :
    Contained (evaluation.tupleFact scope index) := by
  unfold tupleFact
  rw [List.getElem?_eq_getElem within]
  dsimp only
  split
  · exact rfl
  · exact trivial

private theorem Evaluation.calm_writeGlobal (writes : evaluation.access ≠ .readOnly) (name : String)
    (value : Value) : Calm (evaluation.writeGlobal name value) := by
  unfold writeGlobal
  cases access : evaluation.access with
  | readWrite => exact .modify fun _ _ => trivial
  | readOnly => exact absurd access writes
  | absent => exact .throw rfl

private theorem GlobalsM.calm_read (name : String) : Calm (read name) :=
  .get_bind fun _ _ => .pure _

mutual

/-- The evaluation of an expression that fits does not fail internally. -/
theorem Expr.evalWith_calm (trusted : evaluation.catalog.Trusted)
    (calls : ∀ name index args, index < room.functions → Calm (call name index args))
    (filled : room.Filled evaluation scope frame) :
    (e : Expr) → e.Fits room → Calm (e.evalWith call evaluation scope frame)
  | .const value, _ => by
      simp only [evalWith]
      exact .pure value
  | .slot index, fits => by
      simp only [evalWith]
      have within := Nat.lt_of_lt_of_le (fits_slot.mp fits) filled.slots
      rw [List.getElem?_eq_getElem within]
      exact .pure _
  | .fact index, fits => by
      simp only [evalWith]
      have within := Nat.lt_of_lt_of_le (fits_fact.mp fits) filled.facts
      exact .bind (.lift (evaluation.contained_tupleFact within)) fun _ => .pure _
  | .factField index name, fits => by
      simp only [evalWith]
      have within := Nat.lt_of_lt_of_le (fits_factField.mp fits) filled.facts
      exact .bind (.lift (evaluation.contained_tupleFact within)) fun _ => .pure _
  | .currentField name, fits => by
      simp only [evalWith]
      obtain ⟨tested, isTested⟩ :=
        Option.isSome_iff_exists.mp (filled.current (fits_currentField.mp fits))
      rw [isTested]
      exact .pure _
  | .global name, _ => by
      simp only [evalWith]
      exact calm_read name
  | .field target name, fits => by
      simp only [evalWith]
      refine .bind (evalWith_calm trusted calls filled target (fits_field.mp fits)) fun value => ?_
      cases value with
      | object => exact .pure _
      | nil | bool | int | float | string | list => exact .throw rfl
  | .call name callee args, fits => by
      simp only [evalWith]
      obtain ⟨own, each⟩ := fits_call.mp fits
      refine .bind (evalAllWith_calm trusted calls filled args each) fun values => ?_
      cases callee with
      | native native => exact .lift (trusted.contained_call native values)
      | localFunction index => exact calls name index values own
  | .method receiver called args, fits => by
      simp only [evalWith]
      obtain ⟨own, each⟩ := fits_method.mp fits
      refine .bind (evalWith_calm trusted calls filled receiver own) fun value => ?_
      refine .bind (evalAllWith_calm trusted calls filled args each) fun values => ?_
      exact .lift (called.contained_invoke value values)
  | .updateGlobal name update args, fits => by
      simp only [evalWith]
      obtain ⟨updates, each⟩ := fits_updateGlobal.mp fits
      refine .bind (evalAllWith_calm trusted calls filled args each) fun values => ?_
      refine .bind (calm_read name) fun current => ?_
      have contained := update.contained_apply current values
      cases applied : update.apply current values with
      | error error =>
          rw [applied] at contained
          exact .throw (Error.Ordinary.withContext contained _)
      | ok changed =>
          exact .bind (evaluation.calm_writeGlobal (filled.updates updates) name _) fun _ =>
            .pure _
  | .construct type args, fits => by
      simp only [evalWith]
      refine .bind (evalAllWith_calm trusted calls filled args (fits_construct.mp fits)) ?_
      exact fun values => .bind (.lift (type.contained_instantiate values)) fun _ => .pure _
  | .binary op left right, fits => by
      obtain ⟨leftFits, rightFits⟩ := fits_binary.mp fits
      have leftCalm := evalWith_calm trusted calls filled left leftFits
      have rightCalm := evalWith_calm trusted calls filled right rightFits
      have truth : Calm
          (do return Value.bool (← liftResult
            (← right.evalWith call evaluation scope frame).truth)) :=
        .bind rightCalm fun value => .bind (.lift value.contained_truth) fun _ => .pure _
      cases op with
      | and =>
          simp only [evalWith]
          refine .bind leftCalm fun value => .bind (.lift value.contained_truth) fun isTrue => ?_
          cases isTrue with
          | true => exact truth
          | false => exact .pure _
      | or =>
          simp only [evalWith]
          refine .bind leftCalm fun value => .bind (.lift value.contained_truth) fun isTrue => ?_
          cases isTrue with
          | true => exact .pure _
          | false => exact truth
      | _ =>
          simp only [evalWith]
          exact .bind leftCalm fun _ => .bind rightCalm fun _ =>
            .lift (BinaryOp.contained_apply _ _ _)
  | .unary op operand, fits => by
      simp only [evalWith]
      refine .bind (evalWith_calm trusted calls filled operand (fits_unary.mp fits)) fun value => ?_
      exact .lift (op.contained_apply value)

private theorem Expr.evalAllWith_calm (trusted : evaluation.catalog.Trusted)
    (calls : ∀ name index args, index < room.functions → Calm (call name index args))
    (filled : room.Filled evaluation scope frame) :
    (es : List Expr) → (∀ e ∈ es, e.Fits room) →
      Calm (Expr.evalAllWith call evaluation scope frame es)
  | [], _ => by
      simp only [evalAllWith]
      exact .pure []
  | e :: rest, each => by
      simp only [evalAllWith]
      refine .bind (evalWith_calm trusted calls filled e (each e List.mem_cons_self))
        fun value => ?_
      refine .bind (evalAllWith_calm trusted calls filled rest
        fun other member => each other (List.mem_cons_of_mem _ member)) fun values => ?_
      exact .pure _

end

end

namespace Evaluation

variable {evaluation : Evaluation}

/-- Calls of the functions of the package do not fail internally. -/
theorem calm_callLocal (trusted : evaluation.catalog.Trusted)
    (isScoped : evaluation.functions.Scoped) (remaining : Nat) (name : String) (index : Nat)
    (args : List Value) (within : index < evaluation.functions.functions.length) :
    GlobalsM.Calm (evaluation.callLocal remaining name index args) := by
  induction remaining generalizing name index args with
  | zero =>
      unfold callLocal
      rw [List.getElem?_eq_getElem within]
      exact .throw rfl
  | succ remaining ih =>
      unfold callLocal
      rw [List.getElem?_eq_getElem within]
      set function := evaluation.functions.functions[index] with isFunction
      have fits := isScoped function (List.getElem_mem within)
      refine Expr.evalWith_calm trusted (fun name index args found => ih name index args found)
        ⟨⟨Nat.zero_le _, fun current => absurd current Bool.false_ne_true⟩, ?_,
          fun updates => absurd updates Bool.false_ne_true⟩ function.body fits
      rw [callFrame, List.length_append, List.length_replicate]
      dsimp only
      omega

/-- An expression that fits does not fail internally. -/
theorem calm_eval (evaluation : Evaluation) (trusted : evaluation.catalog.Trusted)
    (isScoped : evaluation.functions.Scoped) {room : Room}
    (table : room.functions ≤ evaluation.functions.functions.length) {scope : MatchScope}
    {frame : List Value} (filled : room.Filled evaluation scope frame) {e : Expr}
    (fits : e.Fits room) : GlobalsM.Calm (evaluation.eval scope frame e) :=
  Expr.evalWith_calm trusted
    (fun name index args within => calm_callLocal trusted isScoped _ name index args
      (Nat.lt_of_lt_of_le within table)) filled e fits

/-- A condition that fits, and changes no global, does not fail internally. -/
theorem contained_test (trusted : evaluation.catalog.Trusted)
    (isScoped : evaluation.functions.Scoped) {room : Room}
    (table : room.functions ≤ evaluation.functions.functions.length) {scope : MatchScope}
    (meets : scope.Meets room) (plain : room.slots = 0 ∧ room.updates = false) {e : Expr}
    (fits : e.Fits room) (globals : Globals) : Contained (evaluation.test globals scope e) := by
  let reading : Evaluation := { evaluation with access := .readOnly }
  have filled : room.Filled reading scope [] :=
    ⟨meets, Nat.le_of_eq plain.1, fun may => absurd (plain.2.symm.trans may) Bool.false_ne_true⟩
  have calm : GlobalsM.Calm (reading.eval scope [] e) :=
    calm_eval reading trusted isScoped table filled fits
  exact Outcome.bind (calm.safe (ends_run _ globals) trivial).2 fun value _ => value.contained_truth

end Evaluation

end Rete
