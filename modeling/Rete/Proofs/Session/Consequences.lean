import Rete.Proofs.FieldTypes
import Rete.Proofs.Globals
import Rete.Proofs.Session.Steps

/-!
# What consequences are made of

A consequence changes facts by the operations on them, globals by evaluation and assignment, and
the mark of a halt. So it goes along every relation of sessions that all of these go along and that
can be composed (`SessionM.Composed.execute`), also if it fails on the way.
-/

namespace Rete.SessionM

variable {α β : Type} {related : SessionRun → SessionRun → Prop}

/-- An operation goes along a relation, however it ends. -/
structure Goes (related : SessionRun → SessionRun → Prop) (operation : SessionM α) : Prop where
  goes : ∀ {before result after}, Ends operation before result after → related before after

/-- A relation that can be composed, and that all parts of consequences go along. -/
structure Composed (related : SessionRun → SessionRun → Prop) : Prop where
  refl : ∀ run, related run run
  trans : ∀ {before mid after}, related before mid → related mid after → related before after
  insert : ∀ fact, Goes related (insert fact)
  /-- An instance of the same type takes the place of a fact. -/
  revises : ∀ {before after : SessionRun} {handle : Handle} {current fact : Object}
    {result : Except Error Unit}, before.session.memory.fact? handle = some current →
    fact.typeName = current.typeName → Ends (updateFact handle fact) before result after →
    related before after
  retract : ∀ handle, Goes related (retract handle)
  globals : ∀ {run : SessionRun} {globals : Globals},
    (run.session.globalTypes.Admit run.session.memory.globals →
      run.session.globalTypes.Admit globals) →
    related run
      { run with session := run.session.withMemory { run.session.memory with globals } }
  halted : ∀ run : SessionRun,
    related run { run with session := { run.session with halted := true } }

namespace Composed

variable (composed : Composed related)

include composed

/-- Yielding a value goes along a composed relation. -/
theorem pure (a : α) : Goes related (Pure.pure a : SessionM α) where
  goes run := by
    obtain ⟨-, rfl⟩ := (ends_pure _).mp run
    exact composed.refl _

/-- Failing goes along a composed relation. -/
theorem throw (error : Error) : Goes related (throw error : SessionM α) where
  goes run := by
    obtain ⟨-, rfl⟩ := (ends_throw _).mp run
    exact composed.refl _

private theorem lift (result : Except Error α) : Goes related (liftResult result) where
  goes run := by
    obtain ⟨-, rfl⟩ := (ends_lift _).mp run
    exact composed.refl _

/-- Reading the session goes along a composed relation. -/
theorem session : Goes related session where
  goes run := by
    have same : _ = (_, _) := run
    cases same
    exact composed.refl _

/-- Operations go along a composed relation one after the other. -/
theorem bind {first : SessionM β} {next : β → SessionM α} (one : Goes related first)
    (two : ∀ value, Goes related (next value)) : Goes related (first >>= next) where
  goes run := by
    rcases ends_bind.mp run with ⟨value, between, start, rest⟩ | ⟨error, start, -⟩
    · exact composed.trans (one.goes start) ((two value).goes rest)
    · exact one.goes start

/-- Setting a global to a value that its type accepts goes along a composed relation. -/
theorem assignGlobal (name : String) (value : Value) : Goes related (assignGlobal name value) := by
  refine ⟨fun {before result after} run => ?_⟩
  unfold SessionM.assignGlobal at run
  rw [ends_session_bind] at run
  cases isDeclared : before.session.globalTypes.find? name with
  | none =>
      simp only [isDeclared] at run
      exact (composed.throw _).goes run
  | some declared =>
      cases accepts : declared.accepts value.type with
      | false =>
          simp only [isDeclared, accepts, Bool.false_eq_true, ↓reduceIte] at run
          exact (composed.throw _).goes run
      | true =>
          simp only [isDeclared, accepts, ↓reduceIte] at run
          obtain ⟨-, rfl⟩ := ends_update.mp run
          exact composed.globals fun admits => admits.insert isDeclared accepts

/-- Setting a global of a live session goes along a composed relation. -/
theorem setGlobal (name : String) (value : Value) : Goes related (setGlobal name value) := by
  apply composed.bind
  · apply composed.bind composed.session
    intro session
    split
    · exact composed.throw _
    · exact composed.pure _
  · exact fun _ => composed.assignGlobal name value

/-- Evaluating goes along a composed relation, since it changes globals at most. -/
theorem evaluate (functions : FunctionTable) (tuple : Tuple) (frame : List Value) (e : Expr) :
    Goes related (evaluate functions tuple frame e) := by
  refine ⟨fun {before result after} run => ?_⟩
  unfold SessionM.evaluate at run
  rw [ends_session_bind] at run
  obtain ⟨-, rfl⟩ := (ends_lift _).mp run
  exact composed.globals fun admits => (Evaluation.eval_keeps _ _ _ e).admits admits

private theorem evaluateAssignments (functions : FunctionTable) (tuple : Tuple) (frame : List Value)
    (assignments : List (String × Expr)) :
    Goes related (evaluateAssignments functions tuple frame assignments) := by
  induction assignments with
  | nil => exact composed.pure _
  | cons assignment rest ih =>
      exact composed.bind (composed.evaluate functions tuple frame assignment.2) fun value =>
        composed.bind ih fun values => composed.pure _

/-- Every action goes along a composed relation. -/
theorem runAction (functions : FunctionTable) (tuple : Tuple) (frame : List Value)
    (action : Action) : Goes related (runAction functions tuple frame action) := by
  cases action with
  | eval e =>
      exact composed.bind (composed.evaluate functions tuple frame e) fun _ => composed.pure _
  | bind slot e =>
      refine composed.bind (composed.evaluate functions tuple frame e) fun value => ?_
      by_cases within : slot < frame.length
      · simp only [within, ↓reduceIte]
        exact composed.pure _
      · simp only [within, ↓reduceIte]
        exact composed.throw _
  | insert e =>
      refine composed.bind (composed.evaluate functions tuple frame e) fun value => ?_
      cases value with
      | object typeName fields =>
          exact composed.bind (composed.insert _) fun _ => composed.pure _
      | nil | bool | int | float | string | list => exact composed.throw _
  | modify index var assignments =>
      refine composed.bind (composed.lift _) fun handle => ?_
      refine composed.bind (composed.evaluateAssignments functions tuple frame assignments)
        fun values => ⟨fun {before result after} run => ?_⟩
      rw [ends_session_bind] at run
      cases live : before.session.memory.fact? handle with
      | none =>
          simp only [live] at run
          exact (composed.throw _).goes run
      | some current =>
          simp only [live] at run
          rcases ends_bind.mp run with ⟨_, mid, updated, rest⟩ | ⟨_, failed, -⟩
          · exact composed.trans (composed.revises live (Object.typeName_setAll ..) updated)
              ((composed.pure _).goes rest)
          · exact composed.revises live (Object.typeName_setAll ..) failed
  | retract index var =>
      exact composed.bind (composed.lift _) fun handle =>
        composed.bind (composed.retract handle) fun _ => composed.pure _
  | setGlobal name e =>
      exact composed.bind (composed.evaluate functions tuple frame e) fun value =>
        composed.bind (composed.assignGlobal name value) fun _ => composed.pure _
  | halt =>
      refine ⟨fun {before result after} run => ?_⟩
      simp only [SessionM.runAction, ends_update_bind] at run
      obtain ⟨-, rfl⟩ := (ends_pure _).mp run
      exact composed.halted _

private theorem runActions (functions : FunctionTable) (tuple : Tuple) (frame : List Value)
    (actions : List Action) : Goes related (runActions functions tuple frame actions) := by
  induction actions generalizing frame with
  | nil => exact composed.pure _
  | cons action rest ih => exact composed.bind (composed.runAction functions tuple frame action) ih

/-- A consequence goes along what its parts go along. -/
theorem execute (rule : Rule) (tuple : Tuple) : Goes related (execute rule tuple) :=
  composed.runActions _ _ _ _

end Composed

end Rete.SessionM
