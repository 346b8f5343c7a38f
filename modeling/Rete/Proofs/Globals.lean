import Rete.Proofs.Computation
import Rete.Proofs.SortedMap
import Rete.Session.Basic

/-!
# Globals and their types

The values of globals stay such that the declared types accept them (`GlobalTypes.Admit`): an
expression only changes a global that holds a list, and puts a list in its place
(`Evaluation.eval_keeps`).
-/

namespace Rete

/-- The globals that are set are declared with types that accept their values. -/
def GlobalTypes.Admit (types : GlobalTypes) (globals : Globals) : Prop :=
  ∀ name value, globals.find? name = some value →
    ∃ declared, types.find? name = some declared ∧ declared.accepts value.type = true

namespace GlobalTypes.Admit

variable {types : GlobalTypes} {globals : Globals}

/-- No global set is admitted by all declarations. -/
theorem empty : types.Admit ∅ := fun name value found => by cases found

/-- Setting a declared global to a value that its type accepts. -/
theorem insert (admits : types.Admit globals) {name : String} {value : Value} {declared : ValueType}
    (isDeclared : types.find? name = some declared) (accepts : declared.accepts value.type = true) :
    types.Admit (globals.insert name value) := by
  intro other found isFound
  rw [SortedMap.find?_insert_eq] at isFound
  split at isFound
  next same =>
    cases isFound
    exact ⟨declared, same ▸ isDeclared, accepts⟩
  next => exact admits other found isFound

end GlobalTypes.Admit

/-- A change of a list takes a list and leaves one. -/
theorem ListUpdate.types_of_apply {update : ListUpdate} {current updated result : Value}
    {args : List Value} (applies : update.apply current args = .ok (updated, result)) :
    current.type = .list .any ∧ updated.type = .list .any := by
  unfold apply at applies
  split at applies
  · cases applies
    exact ⟨rfl, rfl⟩
  · cases applies
    exact ⟨rfl, rfl⟩
  · split at applies <;> cases applies

namespace GlobalsM

variable {α : Type} {types : GlobalTypes}

/-- The computation keeps the globals such that their types accept them. -/
abbrev Keeps (types : GlobalTypes) (operation : GlobalsM α) : Prop :=
  Lockstep (fun globals others => globals = others ∧ types.Admit globals) operation operation

private theorem Keeps.read (name : String) : Keeps types (read name) := by
  refine Lockstep.get_bind fun {globals others} alike => ?_
  rw [alike.1]
  exact .pure _

/-- What holds before such a computation holds after it. -/
theorem Keeps.admits {operation : GlobalsM α} (keeps : Keeps types operation) {globals : Globals}
    (admitted : types.Admit globals) : types.Admit (operation.run.run globals).2 := by
  obtain ⟨result, after, after', ends, -, -, admits⟩ := keeps ⟨rfl, admitted⟩
  obtain ⟨-, same⟩ := (ends_run operation globals).unique ends
  exact same ▸ admits

end GlobalsM

open GlobalsM in
mutual

private theorem Expr.evalWith_keeps {types : GlobalTypes} {call : LocalCall}
    (calls : ∀ name index args, Keeps types (call name index args)) (evaluation : Evaluation)
    (scope : MatchScope) (frame : List Value) :
    (e : Expr) → Keeps types (e.evalWith call evaluation scope frame)
  | .const value => by
      simp only [evalWith]
      exact .pure value
  | .slot index => by
      simp only [evalWith]
      cases frame[index]? with
      | none => exact .throw _
      | some value => exact .pure value
  | .fact index | .factField index _ => by
      simp only [evalWith]
      exact .bind (.lift _) fun _ => .pure _
  | .currentField name => by
      simp only [evalWith]
      cases scope.current with
      | none => exact .throw _
      | some tested => exact .pure _
  | .global name => by
      simp only [evalWith]
      exact .read name
  | .field target name => by
      simp only [evalWith]
      refine .bind (evalWith_keeps calls evaluation scope frame target) fun value => ?_
      cases value with
      | object => exact .pure _
      | nil | bool | int | float | string | list => exact .throw _
  | .call name callee args => by
      simp only [evalWith]
      refine .bind (evalAllWith_keeps calls evaluation scope frame args) fun values => ?_
      cases callee with
      | native native => exact .lift _
      | localFunction index => exact calls name index values
  | .method receiver called args => by
      simp only [evalWith]
      apply Lockstep.bind (evalWith_keeps calls evaluation scope frame receiver)
      intro value
      apply Lockstep.bind (evalAllWith_keeps calls evaluation scope frame args)
      exact fun values => .lift _
  | .updateGlobal name update args => by
      simp only [evalWith]
      apply Lockstep.bind (evalAllWith_keeps calls evaluation scope frame args)
      intro values
      unfold GlobalsM.read
      simp only [bind_assoc, pure_bind]
      refine Lockstep.get_bind fun {globals others} alike => ?_
      obtain ⟨rfl, admits⟩ := alike
      cases applies : update.apply ((globals.find? name).getD .nil) values with
      | error error => exact .throw _
      | ok changed =>
          obtain ⟨updated, result⟩ := changed
          obtain ⟨wasList, isList⟩ := ListUpdate.types_of_apply applies
          refine .bind ?_ fun _ => .pure _
          unfold Evaluation.writeGlobal
          cases evaluation.access with
          | readOnly | absent => exact .throw _
          | readWrite =>
              refine Lockstep.modify fun {one other} alike => ?_
              refine ⟨congrArg (·.insert name updated) alike.1, ?_⟩
              cases found : globals.find? name with
              | none =>
                  rw [found] at wasList
                  cases wasList
              | some value =>
                  rw [found] at wasList
                  obtain ⟨declared, isDeclared, accepts⟩ := admits _ _ found
                  exact alike.2.insert isDeclared (isList.trans wasList.symm ▸ accepts)
  | .construct type args => by
      simp only [evalWith]
      apply Lockstep.bind (evalAllWith_keeps calls evaluation scope frame args)
      exact fun values => .bind (.lift _) fun _ => .pure _
  | .binary op left right => by
      have first := evalWith_keeps calls evaluation scope frame left
      have second := evalWith_keeps calls evaluation scope frame right
      have truth : Keeps types
          (do return Value.bool (← liftResult
            (← right.evalWith call evaluation scope frame).truth)) :=
        second.bind fun _ => .bind (.lift _) fun _ => .pure _
      cases op with
      | and =>
          simp only [evalWith]
          refine first.bind fun value => .bind (.lift _) fun isTrue => ?_
          cases isTrue with
          | true => exact truth
          | false => exact .pure _
      | or =>
          simp only [evalWith]
          refine first.bind fun value => .bind (.lift _) fun isTrue => ?_
          cases isTrue with
          | true => exact .pure _
          | false => exact truth
      | _ =>
          simp only [evalWith]
          exact first.bind fun _ => second.bind fun _ => .lift _
  | .unary op operand => by
      simp only [evalWith]
      exact .bind (evalWith_keeps calls evaluation scope frame operand) fun _ => .lift _

private theorem Expr.evalAllWith_keeps {types : GlobalTypes} {call : LocalCall}
    (calls : ∀ name index args, Keeps types (call name index args)) (evaluation : Evaluation)
    (scope : MatchScope) (frame : List Value) :
    (es : List Expr) → Keeps types (evalAllWith call evaluation scope frame es)
  | [] => by
      simp only [evalAllWith]
      exact .pure []
  | e :: rest => by
      simp only [evalAllWith]
      apply Lockstep.bind (evalWith_keeps calls evaluation scope frame e)
      intro value
      apply Lockstep.bind (evalAllWith_keeps calls evaluation scope frame rest)
      exact fun values => .pure _

end

namespace Evaluation

open GlobalsM

private theorem callLocal_keeps {types : GlobalTypes} (evaluation : Evaluation) (remaining : Nat)
    (name : String) (index : Nat) (args : List Value) :
    Keeps types (evaluation.callLocal remaining name index args) := by
  induction remaining generalizing name index args with
  | zero =>
      unfold callLocal
      cases evaluation.functions.functions[index]? with
      | none => exact .throw _
      | some function => exact .throw _
  | succ remaining ih =>
      unfold callLocal
      cases evaluation.functions.functions[index]? with
      | none => exact .throw _
      | some function => exact Expr.evalWith_keeps ih evaluation {} _ function.body

/-- Whatever is evaluated, the types of the globals accept their values afterwards. -/
theorem eval_keeps {types : GlobalTypes} (evaluation : Evaluation) (scope : MatchScope)
    (frame : List Value) (e : Expr) : Keeps types (evaluation.eval scope frame e) :=
  e.evalWith_keeps (evaluation.callLocal_keeps _) evaluation scope frame

end Evaluation

end Rete
