import Mathlib.Data.List.Perm.Basic
import Rete.SymbolTable

/-!
# The order of overloads

A call means the only overload that is eligible for its arguments (`chosen_selectOverload`), so it
makes no difference in which order the overloads are listed (`SymbolTable.selectNative_perm`).
-/

namespace Rete

/-- Both succeed with the same result, or both fail with problems of one kind. -/
def SameOutcome {α : Type} : Except Diagnostic α → Except Diagnostic α → Prop
  | .ok one, .ok other => one = other
  | .error one, .error other => one.kind = other.kind
  | .ok _, .error _ | .error _, .ok _ => False

namespace SameOutcome

variable {α β : Type} {one other : Except Diagnostic α}

/-- A result has the same outcome as itself. -/
theorem refl (result : Except Diagnostic α) : SameOutcome result result := by
  cases result <;> exact rfl

/-- Results of the same outcome have the same value, if they have one. -/
theorem eq_ok_iff {value : α} (same : SameOutcome one other) :
    one = .ok value ↔ other = .ok value := by
  match one, other with
  | .ok _, .ok _ => rw [show _ = _ from same]
  | .error _, .error _ => exact ⟨nofun, nofun⟩

/-- Steps of the same outcome have the same outcome one after the other. -/
theorem bind (same : SameOutcome one other) {next onward : α → Except Diagnostic β}
    (each : ∀ value, SameOutcome (next value) (onward value)) :
    SameOutcome (one >>= next) (other >>= onward) := by
  match one, other with
  | .ok value, .ok _ =>
      cases same
      exact each value
  | .error _, .error _ => exact same

/-- Results of the same outcome still have it when their values are changed alike. -/
theorem map (same : SameOutcome one other) (f : α → β) : SameOutcome (one.map f) (other.map f) := by
  match one, other with
  | .ok value, .ok _ => exact congrArg f same
  | .error _, .error _ => exact same

end SameOutcome

/-! ## Overloads -/

/-- Of the items that take so many arguments, those that take exactly arguments of the given types,
or else all that accept such arguments. -/
def eligible {α : Type} (candidate : α → Candidate) (args : List ValueType) (items : List α) :
    List α :=
  let fitting := items.filter fun item => (candidate item).params.length == args.length
  let exact := fitting.filter fun item => (candidate item).exact args
  if exact.isEmpty then fitting.filter fun item => (candidate item).compatible args else exact

section Eligible

variable {α β : Type} {args : List ValueType}

private theorem eligible_map (candidate : β → Candidate) (f : α → β) (items : List α) :
    eligible candidate args (items.map f) = (eligible (candidate ∘ f) args items).map f := by
  unfold eligible
  simp only [List.filter_map, List.isEmpty_map, Function.comp_def]
  split <;> rfl

private theorem eligible_subset (candidate : α → Candidate) (items : List α) :
    eligible candidate args items ⊆ items := by
  unfold eligible
  dsimp only
  split
  all_goals exact List.Subset.trans (List.filter_subset_self _) (List.filter_subset_self _)

private theorem eligible_perm (candidate : α → Candidate) {items others : List α}
    (perm : items.Perm others) :
    (eligible candidate args items).Perm (eligible candidate args others) := by
  have fitting := perm.filter fun item => (candidate item).params.length == args.length
  have exact := fitting.filter fun item => (candidate item).exact args
  unfold eligible
  simp only [exact.isEmpty_eq]
  split
  · exact fitting.filter _
  · exact exact

end Eligible

/-- The result of a choice among items: the only one, or a problem that tells apart whether there
are none or several. -/
inductive Chosen {α β : Type} (f : α → β) : List α → Except Diagnostic β → Prop
  | only (item : α) : Chosen f [item] (.ok (f item))
  | none {problem : Diagnostic} (kind : problem.kind = .typeMismatch) : Chosen f [] (.error problem)
  | several {first second : α} {rest : List α} {problem : Diagnostic}
    (kind : problem.kind = .ambiguousSymbol) : Chosen f (first :: second :: rest) (.error problem)

/-- A choice does not depend on the order of the items. -/
theorem Chosen.sameOutcome {α β : Type} {f : α → β} {items others : List α}
    {one other : Except Diagnostic β} (perm : items.Perm others) (chosen : Chosen f items one)
    (chosenOther : Chosen f others other) : SameOutcome one other := by
  have length := perm.length_eq
  cases chosen with
  | only item =>
      obtain rfl := perm.singleton_eq
      cases chosenOther
      exact rfl
  | none kind =>
      obtain rfl := perm.nil_eq
      cases chosenOther with
      | none kindOther => exact kind.trans kindOther.symm
  | several kind =>
      cases chosenOther with
      | several kindOther => exact kind.trans kindOther.symm
      | only | none => simp only [List.length_cons, List.length_nil] at length; omega

/-- Of candidates, the only eligible one is chosen. -/
theorem chosen_selectOverload (name : String) (candidates : List Candidate)
    (args : List ValueType) : Chosen Prod.snd (eligible Prod.fst args candidates.zipIdx)
      (selectOverload name candidates args) := by
  unfold selectOverload eligible
  dsimp only
  cases candidates.zipIdx.filter fun pick => pick.1.params.length == args.length with
  | nil => exact .none rfl
  | cons first rest =>
      dsimp only
      generalize (first :: rest).filter (fun pick => pick.1.exact args) = exact
      generalize (first :: rest).filter (fun pick => pick.1.compatible args) = compatible
      match exact with
      | [pick] => exact .only pick
      | _ :: _ :: _ => exact .several rfl
      | [] =>
          match compatible with
          | [] => exact .none rfl
          | [pick] => exact .only pick
          | _ :: _ :: _ => exact .several rfl

/-- A static function as messages show it among overloads. -/
def Native.candidate (native : Native) : Candidate := ⟨native.params, native.text⟩

namespace SymbolTable

/-- A static function is found again by its place. -/
theorem selectNative_eq (name : String) (natives : List Native) (args : List ValueType)
    (origin : BindingOrigin) : selectNative name natives args origin =
      selectOverload name (natives.map Native.candidate) args >>= fun index =>
        match natives[index]? with
        | some native => .ok (.ofNative native origin)
        | none => .error (.unresolved "function" name) :=
  rfl

/-- Of static functions, a call means the only eligible one. -/
theorem chosen_selectNative (name : String) (natives : List Native) (args : List ValueType)
    (origin : BindingOrigin) : Chosen (fun native => CallableRef.ofNative native origin)
      (eligible Native.candidate args natives) (selectNative name natives args origin) := by
  have places : (natives.map Native.candidate).zipIdx =
      natives.zipIdx.map (Prod.map Native.candidate id) := List.zipIdx_map ..
  have same : (Prod.fst ∘ Prod.map Native.candidate id : Native × Nat → Candidate) =
      Native.candidate ∘ Prod.fst := rfl
  have picks : eligible Native.candidate args natives =
      (eligible (Native.candidate ∘ Prod.fst) args natives.zipIdx).map Prod.fst := by
    rw [← eligible_map, List.zipIdx_map_fst]
  have selected := chosen_selectOverload name (natives.map Native.candidate) args
  rw [places, eligible_map, same] at selected
  rw [picks, selectNative_eq]
  generalize selectOverload name (natives.map Native.candidate) args = selection at selected
  -- The eligible functions are listed with their places, by which they are found again.
  cases found : eligible (Native.candidate ∘ Prod.fst) args natives.zipIdx with
  | nil =>
      rw [found] at selected
      cases selected with
      | none kind => exact .none kind
  | cons entry others =>
      rw [found] at selected
      cases others with
      | nil =>
          have listed : entry ∈ natives.zipIdx :=
            eligible_subset _ _ (found ▸ List.mem_singleton_self _)
          have isNative : natives[entry.2]? = some entry.1 :=
            List.mk_mem_zipIdx_iff_getElem?.mp listed
          cases selected
          simp only [Prod.map_snd, id_eq, bind, Except.bind, isNative]
          exact .only entry.1
      | cons another rest =>
          cases selected with
          | several kind => exact .several kind

/-- The order of static functions makes no difference for which one a call means. -/
theorem selectNative_perm (name : String) {natives others : List Native}
    (perm : natives.Perm others) (args : List ValueType) (origin : BindingOrigin) :
    SameOutcome (selectNative name natives args origin) (selectNative name others args origin) :=
  (chosen_selectNative name natives args origin).sameOutcome
    (eligible_perm Native.candidate perm) (chosen_selectNative name others args origin)

end SymbolTable

end Rete
