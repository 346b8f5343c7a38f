import Rete.Evaluation
import Rete.Proofs.Computation

/-!
# What the value of an expression depends on

What two evaluations of an expression do is related where what they do at its parts is, for every
relation of computations that composing them keeps (`Expr.evalWith_related`).

One such relation is equality: an expression that is not flagged for reading the tuple or the fact
under test, or for calling a function of the package, has the same result and the same effect on the
globals whatever these are (`Evaluation.run_eval_of_flags`).

Another is to yield the same value and to leave the globals as they are, where no part of the
expression reads a global, the facts of the tuple that it reads are the same and the local functions
that it calls do the same (`Expr.evalWith_agree`). So a test whose functions read no global, either
(`FunctionTable.Quiet`), only depends on the catalog and the facts it is tested with
(`Evaluation.test_congr`).
-/

namespace Rete

/-! ## The parts of an expression -/

namespace Expr

mutual

/-- The expression and those inside it. -/
def parts : Expr → List Expr
  | e@(const _) | e@(slot _) | e@(fact _) | e@(factField _ _) | e@(currentField _)
  | e@(global _) => [e]
  | e@(field target _) => e :: target.parts
  | e@(call _ _ args) => e :: partsOf args
  | e@(method receiver _ args) => e :: (receiver.parts ++ partsOf args)
  | e@(updateGlobal _ _ args) => e :: partsOf args
  | e@(construct _ args) => e :: partsOf args
  | e@(binary _ left right) => e :: (left.parts ++ right.parts)
  | e@(unary _ operand) => e :: operand.parts

/-- The arguments and the expressions inside them. -/
def partsOf : List Expr → List Expr
  | [] => []
  | arg :: args => arg.parts ++ partsOf args

end

private theorem mem_parts_self (e : Expr) : e ∈ e.parts := by
  cases e <;> simp only [parts, List.mem_cons, true_or]

mutual

/-- A test of all parts of an expression finds one exactly if there is one. -/
theorem any_iff {test : Expr → Bool} :
    (e : Expr) → (e.any test = true ↔ ∃ part ∈ e.parts, test part = true)
  | const _ | slot _ | fact _ | factField _ _ | currentField _ | global _ => by simp [any, parts]
  | field target _ => by simp [any, parts, any_iff target]
  | call _ _ args => by simp [any, parts, anyArg_iff args]
  | method receiver _ args => by
      simp [any, parts, any_iff receiver, anyArg_iff args, or_and_right, exists_or, or_assoc]
  | updateGlobal _ _ args => by simp [any, parts, anyArg_iff args]
  | construct _ args => by simp [any, parts, anyArg_iff args]
  | binary _ left right => by
      simp [any, parts, any_iff left, any_iff right, or_and_right, exists_or, or_assoc]
  | unary _ operand => by simp [any, parts, any_iff operand]

private theorem anyArg_iff {test : Expr → Bool} :
    (args : List Expr) → (anyArg test args = true ↔ ∃ part ∈ partsOf args, test part = true)
  | [] => by simp [anyArg, partsOf]
  | arg :: args => by
      simp [anyArg, partsOf, any_iff arg, anyArg_iff args, or_and_right, exists_or]

end

private theorem eq_false_of_mem_parts {test : Expr → Bool} {e part : Expr}
    (none : e.any test = false) (member : part ∈ e.parts) : test part = false :=
  Bool.eq_false_iff.mpr fun holds =>
    Bool.eq_false_iff.mp none ((any_iff e).mpr ⟨part, member, holds⟩)

/-- Whether the expression reads or changes a global. -/
def readsGlobals (e : Expr) : Bool :=
  e.any fun
    | global _ | updateGlobal .. => true
    | _ => false

end Expr

/-! ## Computations that do the same -/

namespace GlobalsM

/-- A relation of computations that holds of what is composed in one way of related ones. -/
structure Composes (Related : ⦃α : Type⦄ → GlobalsM α → GlobalsM α → Prop) : Prop where
  pure : ∀ {α : Type} (a : α), Related (Pure.pure a) (Pure.pure a)
  throw : ∀ {α : Type} (error : Error), Related (throw error : GlobalsM α) (throw error)
  liftResult : ∀ {α : Type} (result : Except Error α),
    Related (liftResult result) (liftResult result)
  bind : ∀ {α β : Type} {one other : GlobalsM β} {next onward : β → GlobalsM α},
    Related one other → (∀ value, Related (next value) (onward value)) →
    Related (one >>= next) (other >>= onward)

private theorem Composes.eq : Composes fun _ one other => one = other where
  pure _ := rfl
  throw _ := rfl
  liftResult _ := rfl
  bind first each := by rw [first, funext each]

variable {α β : Type}

/-- Two computations yield the same and leave the globals as they are. -/
def Agree (one other : GlobalsM α) : Prop :=
  ∀ globals others, ∃ result, Ends one globals result globals ∧ Ends other others result others

namespace Agree

private theorem pure (a : α) : Agree (Pure.pure a) (Pure.pure a) := fun _ _ =>
  ⟨.ok a, (ends_pure a).mpr ⟨rfl, rfl⟩, (ends_pure a).mpr ⟨rfl, rfl⟩⟩

private theorem throw (error : Error) : Agree (throw error : GlobalsM α) (throw error) :=
  fun _ _ => ⟨.error error, (ends_throw error).mpr ⟨rfl, rfl⟩,
    (ends_throw error).mpr ⟨rfl, rfl⟩⟩

private theorem liftResult (result : Except Error α) : Agree (liftResult result)
    (liftResult result) :=
  fun _ _ => ⟨result, (ends_lift result).mpr ⟨rfl, rfl⟩,
    (ends_lift result).mpr ⟨rfl, rfl⟩⟩

private theorem bind {one other : GlobalsM β} {next onward : β → GlobalsM α}
    (first : Agree one other) (each : ∀ value, Agree (next value) (onward value)) :
    Agree (one >>= next) (other >>= onward) := by
  intro globals others
  obtain ⟨result, ends, endsOther⟩ := first globals others
  cases result with
  | error error =>
      exact ⟨.error error, ends_bind.mpr (.inr ⟨error, ends, rfl⟩),
        ends_bind.mpr (.inr ⟨error, endsOther, rfl⟩)⟩
  | ok value =>
      obtain ⟨last, endsLast, endsOtherLast⟩ := each value globals others
      exact ⟨last, ends_bind.mpr (.inl ⟨value, globals, ends, endsLast⟩),
        ends_bind.mpr (.inl ⟨value, others, endsOther, endsOtherLast⟩)⟩

private theorem composes : Composes @Agree where
  pure := pure
  throw := throw
  liftResult := liftResult
  bind := bind

/-- What computations that do the same yield. -/
theorem fst_run {one other : GlobalsM α} (agree : Agree one other) (globals others : Globals) :
    (one.run globals).1 = (other.run others).1 := by
  obtain ⟨result, ends, endsOther⟩ := agree globals others
  exact (congrArg Prod.fst ends).trans (congrArg Prod.fst endsOther).symm

end Agree

end GlobalsM

/-! ## Evaluation -/

section

open GlobalsM

variable (Related : ⦃α : Type⦄ → GlobalsM α → GlobalsM α → Prop)

section

variable (call onward : LocalCall) (one other : Evaluation) (scope elsewhere : MatchScope)

/-- What two evaluations do at a part of an expression is related, as far as it depends on them. -/
def Expr.Likewise : Expr → Prop
  | .global name => Related (read name) (read name)
  | .updateGlobal name _ _ =>
    Related (read name) (read name) ∧
      ∀ value, Related (one.writeGlobal name value) (other.writeGlobal name value)
  | .fact index | .factField index _ => one.tupleFact scope index = other.tupleFact elsewhere index
  | .currentField _ => scope.current = elsewhere.current
  | .call name (.localFunction index) _ =>
    ∀ values, Related (call name index values) (onward name index values)
  | .call _ (.native _) _ | .const _ | .slot _ | .field .. | .method .. | .construct ..
  | .binary .. | .unary .. => True

/-- Two evaluations do the same at a part of an expression, as far as it depends on them. -/
def Expr.Indifferent : Expr → Prop
  | .global _ | .updateGlobal .. => False
  | .fact index | .factField index _ => one.tupleFact scope index = other.tupleFact elsewhere index
  | .call name (.localFunction index) _ =>
    ∀ values, Agree (call name index values) (onward name index values)
  | .call _ (.native _) _ | .const _ | .slot _ | .currentField _ | .field .. | .method ..
  | .construct .. | .binary .. | .unary .. => True

end

variable {Related}
variable {call onward : LocalCall} {one other : Evaluation} {scope elsewhere : MatchScope}

mutual

/-- Expressions whose parts read the same evaluate alike, for every relation that evaluation
composes. -/
theorem Expr.evalWith_related (composes : Composes Related) (catalog : one.catalog = other.catalog)
    (frame : List Value) :
    (e : Expr) →
    (∀ part ∈ e.parts, part.Likewise Related call onward one other scope elsewhere) →
    Related (e.evalWith call one scope frame) (e.evalWith onward other elsewhere frame)
  | .const value, _ => by
      simp only [evalWith]
      exact composes.pure value
  | .slot index, _ => by
      simp only [evalWith]
      cases frame[index]? with
      | none => exact composes.throw _
      | some value => exact composes.pure value
  | .fact index, each => by
      have same : one.tupleFact scope index = other.tupleFact elsewhere index :=
        each _ (mem_parts_self _)
      simp only [evalWith, same]
      exact composes.bind (composes.liftResult _) fun _ => composes.pure _
  | .factField index name, each => by
      have same : one.tupleFact scope index = other.tupleFact elsewhere index :=
        each _ (mem_parts_self _)
      simp only [evalWith, same]
      exact composes.bind (composes.liftResult _) fun _ => composes.pure _
  | .currentField name, each => by
      have same : scope.current = elsewhere.current := each _ (mem_parts_self _)
      simp only [evalWith, same]
      cases elsewhere.current with
      | none => exact composes.throw _
      | some tested => exact composes.pure _
  | .global name, each => by
      have reads : Related (read name) (read name) := each _ (mem_parts_self _)
      simp only [evalWith]
      exact reads
  | .field target name, each => by
      simp only [evalWith]
      apply composes.bind
      · exact evalWith_related composes catalog frame target fun part member =>
          each part (by simp only [parts, List.mem_cons, member, or_true])
      · intro value
        cases value with
        | object => exact composes.pure _
        | nil | bool | int | float | string | list => exact composes.throw _
  | .call name callee args, each => by
      have own := each _ (mem_parts_self _)
      simp only [evalWith]
      apply composes.bind
      · exact evalAllWith_related composes catalog frame args fun part member =>
          each part (by simp only [parts, List.mem_cons, member, or_true])
      · intro values
        cases callee with
        | native native =>
            rw [catalog]
            exact composes.liftResult _
        | localFunction index => exact own values
  | .method receiver called args, each => by
      simp only [evalWith]
      apply composes.bind
      · exact evalWith_related composes catalog frame receiver fun part member =>
          each part (by simp only [parts, List.mem_cons, List.mem_append, member, true_or, or_true])
      · intro value
        apply composes.bind
        · exact evalAllWith_related composes catalog frame args fun part member =>
            each part (by simp only [parts, List.mem_cons, List.mem_append, member, or_true])
        · exact fun values => composes.liftResult _
  | .updateGlobal name update args, each => by
      obtain ⟨reads, writes⟩ := each _ (mem_parts_self _)
      simp only [evalWith]
      apply composes.bind
      · exact evalAllWith_related composes catalog frame args fun part member =>
          each part (by simp only [parts, List.mem_cons, member, or_true])
      · intro values
        apply composes.bind reads
        intro value
        cases update.apply value values with
        | error error => exact composes.throw _
        | ok changed => exact composes.bind (writes changed.1) fun _ => composes.pure _
  | .construct type args, each => by
      simp only [evalWith]
      apply composes.bind
      · exact evalAllWith_related composes catalog frame args fun part member =>
          each part (by simp only [parts, List.mem_cons, member, or_true])
      · exact fun values => composes.bind (composes.liftResult _) fun _ => composes.pure _
  | .binary op left right, each => by
      have leftRelated := evalWith_related composes catalog frame left fun part member =>
        each part (by simp only [parts, List.mem_cons, List.mem_append, member, true_or, or_true])
      have rightRelated := evalWith_related composes catalog frame right fun part member =>
        each part (by simp only [parts, List.mem_cons, List.mem_append, member, or_true])
      have truth : Related
          (do return Value.bool (← liftResult (← right.evalWith call one scope frame).truth))
          (do
            let value ← right.evalWith onward other elsewhere frame
            return Value.bool (← liftResult value.truth)) :=
        composes.bind rightRelated fun _ =>
          composes.bind (composes.liftResult _) fun _ => composes.pure _
      -- The right operand of `and` and `or` only takes part where the left one does not decide.
      cases op with
      | and =>
          simp only [evalWith]
          apply composes.bind leftRelated
          intro value
          apply composes.bind (composes.liftResult _)
          intro isTrue
          cases isTrue with
          | true => exact truth
          | false => exact composes.pure _
      | or =>
          simp only [evalWith]
          apply composes.bind leftRelated
          intro value
          apply composes.bind (composes.liftResult _)
          intro isTrue
          cases isTrue with
          | true => exact composes.pure _
          | false => exact truth
      | _ =>
          simp only [evalWith]
          exact composes.bind leftRelated fun _ =>
            composes.bind rightRelated fun _ => composes.liftResult _
  | .unary op operand, each => by
      simp only [evalWith]
      apply composes.bind
      · exact evalWith_related composes catalog frame operand fun part member =>
          each part (by simp only [parts, List.mem_cons, member, or_true])
      · exact fun value => composes.liftResult _

private theorem Expr.evalAllWith_related (composes : Composes Related)
    (catalog : one.catalog = other.catalog) (frame : List Value) :
    (es : List Expr) →
    (∀ part ∈ partsOf es, part.Likewise Related call onward one other scope elsewhere) →
    Related (evalAllWith call one scope frame es) (evalAllWith onward other elsewhere frame es)
  | [], _ => by
      simp only [evalAllWith]
      exact composes.pure []
  | e :: rest, each => by
      simp only [evalAllWith]
      apply composes.bind
      · exact evalWith_related composes catalog frame e fun part member =>
          each part (by simp only [partsOf, List.mem_append, member, true_or])
      · intro value
        apply composes.bind
        · exact evalAllWith_related composes catalog frame rest fun part member =>
            each part (by simp only [partsOf, List.mem_append, member, or_true])
        · exact fun values => composes.pure _

end

/-- What computations that do the same at its parts do at an expression. -/
theorem Expr.evalWith_agree (catalog : one.catalog = other.catalog)
    (current : scope.current = elsewhere.current) (frame : List Value) (e : Expr)
    (each : ∀ part ∈ e.parts, part.Indifferent call onward one other scope elsewhere) :
    Agree (e.evalWith call one scope frame) (e.evalWith onward other elsewhere frame) := by
  apply evalWith_related Agree.composes catalog
  intro part member
  have own := each part member
  cases part with
  | global | updateGlobal => exact own.elim
  | currentField => exact current
  | fact | factField => exact own
  | call name callee args =>
      cases callee with
      | native => exact trivial
      | localFunction index => exact own
  | const | slot | field | method | construct | binary | unary => exact trivial

end

/-! ## Flags -/

namespace Evaluation

variable {one other : Evaluation} {scope elsewhere : MatchScope}

/-- Two evaluations are the same computation where the facts that the expression is flagged for and
the functions it is flagged for calling are the same. -/
theorem evalWith_congr {call onward : LocalCall} {e : Expr} (frame : List Value)
    (catalog : one.catalog = other.catalog) (access : one.access = other.access)
    (tuple : e.readsTuple = true → ∀ index,
      one.tupleFact scope index = other.tupleFact elsewhere index)
    (current : e.readsCurrent = true → scope.current = elsewhere.current)
    (calls : e.callsLocal = true → call = onward) :
    e.evalWith call one scope frame = e.evalWith onward other elsewhere frame := by
  apply Expr.evalWith_related GlobalsM.Composes.eq catalog
  intro part member
  cases part with
  | global => exact rfl
  | updateGlobal name update args =>
      refine ⟨rfl, fun value => ?_⟩
      unfold writeGlobal
      rw [access]
  | fact | factField => exact tuple ((Expr.any_iff e).mpr ⟨_, member, rfl⟩) _
  | currentField => exact current ((Expr.any_iff e).mpr ⟨_, member, rfl⟩)
  | call name callee args =>
      cases callee with
      | native => exact trivial
      | localFunction index =>
          intro values
          rw [calls ((Expr.any_iff e).mpr ⟨_, member, rfl⟩)]
  | const | slot | field | method | construct | binary | unary => exact trivial

private theorem eval_congr {e : Expr} (frame : List Value) (catalog : one.catalog = other.catalog)
    (access : one.access = other.access)
    (tuple : e.readsTuple = true → ∀ index,
      one.tupleFact scope index = other.tupleFact elsewhere index)
    (current : e.readsCurrent = true → scope.current = elsewhere.current)
    (calls : e.callsLocal = true →
      one.callLocal one.callDepth = other.callLocal other.callDepth) :
    one.eval scope frame e = other.eval elsewhere frame e :=
  evalWith_congr frame catalog access tuple current calls

/-- Local functions see no facts. -/
theorem callLocal_congr (catalog : one.catalog = other.catalog)
    (functions : one.functions = other.functions) (depth : one.callDepth = other.callDepth)
    (access : one.access = other.access) (remaining : Nat) :
    one.callLocal remaining = other.callLocal remaining := by
  induction remaining with
  | zero =>
      funext name index values
      unfold callLocal
      rw [functions, depth]
  | succ remaining ih =>
      funext name index values
      unfold callLocal
      rw [functions]
      cases other.functions.functions[index]? with
      | none => rfl
      | some function =>
          exact evalWith_congr _ catalog access (fun _ _ => rfl) (fun _ => rfl) fun _ => ih

/-- With the same globals, a condition depends on the facts of its tuple only. -/
theorem test_congr_of_globals {e : Expr} (catalog : one.catalog = other.catalog)
    (functions : one.functions = other.functions) (depth : one.callDepth = other.callDepth)
    (globals : Globals) (tuple : ∀ index, one.tupleFact scope index = other.tupleFact scope index) :
    one.test globals scope e = other.test globals scope e := by
  have same : { one with access := .readOnly }.eval scope [] e =
      { other with access := .readOnly }.eval scope [] e := by
    apply eval_congr
    · exact catalog
    · rfl
    · exact fun _ => tuple
    · exact fun _ => rfl
    · intro _
      refine .trans ?_ (congrArg _ depth)
      apply callLocal_congr
      · exact catalog
      · exact functions
      · exact depth
      · rfl
  unfold test
  rw [same]

/-- What an expression is not flagged for has no part in its result nor in its effect on the
globals: the facts that earlier patterns matched, the fact under test, or the functions of the
package and how deep their calls may nest. -/
theorem run_eval_of_flags (evaluation : Evaluation) (frame : List Value) (e : Expr)
    (globals : Globals) :
    (e.readsTuple = false → ∀ (tuple others : List Handle) (current : Option Object),
      (evaluation.eval ⟨tuple, current⟩ frame e).run globals =
        (evaluation.eval ⟨others, current⟩ frame e).run globals) ∧
    (e.readsCurrent = false → ∀ (tuple : List Handle) (current another : Option Object),
      (evaluation.eval ⟨tuple, current⟩ frame e).run globals =
        (evaluation.eval ⟨tuple, another⟩ frame e).run globals) ∧
    (e.callsLocal = false → ∀ (functions others : FunctionTable) (depth limit : Nat)
      (scope : MatchScope),
      ({ evaluation with functions, callDepth := depth }.eval scope frame e).run globals =
        ({ evaluation with functions := others, callDepth := limit }.eval scope frame e).run
          globals) := by
  refine ⟨fun readsNone tuple others current => ?_, fun readsNone tuple current another => ?_,
    fun callsNone functions others depth limit scope => ?_⟩
  · have same : evaluation.eval ⟨tuple, current⟩ frame e =
        evaluation.eval ⟨others, current⟩ frame e := by
      apply eval_congr frame rfl rfl
      · exact fun reads => absurd reads (Bool.eq_false_iff.mp readsNone)
      · exact fun _ => rfl
      · exact fun _ => rfl
    rw [same]
  · have same : evaluation.eval ⟨tuple, current⟩ frame e =
        evaluation.eval ⟨tuple, another⟩ frame e := by
      apply eval_congr frame rfl rfl
      · exact fun _ _ => rfl
      · exact fun reads => absurd reads (Bool.eq_false_iff.mp readsNone)
      · exact fun _ => rfl
    rw [same]
  · have same : { evaluation with functions, callDepth := depth }.eval scope frame e =
        { evaluation with functions := others, callDepth := limit }.eval scope frame e := by
      apply eval_congr
      · exact rfl
      · exact rfl
      · exact fun _ _ => rfl
      · exact fun _ => rfl
      · exact fun calls => absurd calls (Bool.eq_false_iff.mp callsNone)
    rw [same]

end Evaluation

namespace Tanks

/-- A function that adds one to its argument. -/
def helpers : FunctionTable :=
  { package := "app"
    functions :=
      [{ name := "above"
         signature := ⟨[.int], .int⟩
         body := .binary .add (.slot 0) (.const (.int 1))
         frameSize := 1 }] }

/-- A tank that is filled to a level. -/
def tank (level : Int64) : Object := ⟨"app.Tank", [("level", .int level)]⟩

/-- A tank is known, and globals may be changed. -/
def evaluation : Evaluation :=
  { catalog := {}
    functions := helpers
    facts := (∅ : Facts).insert 1 (tank 7)
    access := .readWrite }

/-- What lies above the level of the fact under test. -/
def aboveTested : Expr := .call "above" (.localFunction 0) [.currentField "level"]

/-- Notes the level of the first fact of the tuple. -/
def noteFirst : Expr := .updateGlobal "seen" .add [.factField 0 "level"]

/-- The list that levels are added to. -/
def globals : Globals := (∅ : Globals).insert "seen" (.list [])

/-- The flags tell what an expression depends on; for one that is flagged, it does make a
difference. -/
theorem flags_matter :
    aboveTested.readsTuple = false ∧ noteFirst.readsCurrent = false ∧
    noteFirst.callsLocal = false ∧
    (evaluation.eval ⟨[1], some (tank 4)⟩ [] aboveTested).run globals =
      (evaluation.eval ⟨[], some (tank 4)⟩ [] aboveTested).run globals ∧
    (evaluation.eval ⟨[1], none⟩ [] noteFirst).run globals =
      (evaluation.eval ⟨[1], some (tank 4)⟩ [] noteFirst).run globals ∧
    ({ evaluation with functions := helpers, callDepth := 64 }.eval ⟨[1], none⟩ [] noteFirst).run
        globals =
      ({ evaluation with functions := default, callDepth := 0 }.eval ⟨[1], none⟩ [] noteFirst).run
        globals ∧
    ((evaluation.eval ⟨[1], none⟩ [] noteFirst).run globals).2.find? "seen" =
      some (.list [.int 7]) ∧
    ((evaluation.eval ⟨[], none⟩ [] noteFirst).run globals).2.find? "seen" = some (.list []) ∧
    ((evaluation.eval ⟨[], some (tank 4)⟩ [] aboveTested).run globals).1.toOption =
      some (.int 5) ∧
    (({ evaluation with callDepth := 0 }.eval ⟨[], some (tank 4)⟩ [] aboveTested).run
      globals).1.toOption = none := by
  obtain ⟨noTuple, -, -⟩ := Evaluation.run_eval_of_flags evaluation [] aboveTested globals
  obtain ⟨-, noCurrent, noCall⟩ := Evaluation.run_eval_of_flags evaluation [] noteFirst globals
  exact ⟨by decide, by decide, by decide, noTuple (by decide) _ _ _, noCurrent (by decide) _ _ _,
    noCall (by decide) _ _ _ _ _, by decide +kernel, by decide +kernel, by decide +kernel,
    by decide +kernel⟩

end Tanks

/-! ## Local functions -/

namespace FunctionTable

/-- The expressions whose evaluation an expression may lead to. -/
inductive Reaches (functions : FunctionTable) : Expr → Expr → Prop
  | self {e : Expr} : Reaches functions e e
  | call {e last : Expr} {name : String} {index : Nat} {args : List Expr} {function : FunctionBody}
      (part : .call name (.localFunction index) args ∈ e.parts)
      (found : functions.functions[index]? = some function)
      (onward : Reaches functions function.body last) : Reaches functions e last

/-- Neither the expression nor a function that it leads to reads a global. -/
def Quiet (functions : FunctionTable) (e : Expr) : Prop :=
  ∀ last, functions.Reaches e last → last.readsGlobals = false

/-- An expression that neither reads a global nor calls a function is quiet. -/
theorem Quiet.of_plain {functions : FunctionTable} {e : Expr} (readsNone : e.readsGlobals = false)
    (callsNone : e.callsLocal = false) : functions.Quiet e := by
  intro last reaches
  cases reaches with
  | self => exact readsNone
  | call part found onward =>
      have calls : e.callsLocal = true := Expr.any_iff e |>.mpr ⟨_, part, rfl⟩
      exact absurd calls (Bool.eq_false_iff.mp callsNone)

/-- An expression that calls no function is as quiet with other functions. -/
theorem Quiet.of_not_callsLocal {functions others : FunctionTable} {e : Expr}
    (quiet : functions.Quiet e) (callsNone : e.callsLocal = false) : others.Quiet e :=
  .of_plain (quiet e .self) callsNone

/-- The functions that a quiet expression calls are quiet. -/
theorem Quiet.body {functions : FunctionTable} {e : Expr} (quiet : functions.Quiet e)
    {name : String} {index : Nat} {args : List Expr} {function : FunctionBody}
    (part : .call name (.localFunction index) args ∈ e.parts)
    (found : functions.functions[index]? = some function) : functions.Quiet function.body :=
  fun last reaches => quiet last (.call part found reaches)

end FunctionTable

namespace Evaluation

open GlobalsM

variable {one other : Evaluation}

/-- Two evaluations do the same at the parts of a quiet expression that do not depend on them
otherwise. -/
theorem indifferent_of_quiet {e : Expr} (quiet : one.functions.Quiet e) {call onward : LocalCall}
    {scope elsewhere : MatchScope}
    (tuple : e.readsTuple = true → ∀ index,
      one.tupleFact scope index = other.tupleFact elsewhere index)
    (calls : ∀ {name index args}, .call name (.localFunction index) args ∈ e.parts →
      ∀ values, Agree (call name index values) (onward name index values)) :
    ∀ part ∈ e.parts, part.Indifferent call onward one other scope elsewhere := by
  intro part member
  cases part with
  | global | updateGlobal => cases Expr.eq_false_of_mem_parts (quiet e .self) member
  | fact | factField => exact tuple ((Expr.any_iff e).mpr ⟨_, member, rfl⟩) _
  | call name callee args =>
      cases callee with
      | native => exact trivial
      | localFunction index => exact calls member
  | const | slot | currentField | field | method | construct | binary | unary => exact trivial

/-- Calls of quiet functions do the same in two evaluations of one function table. -/
theorem callLocal_agree (catalog : one.catalog = other.catalog)
    (functions : one.functions = other.functions) (depth : one.callDepth = other.callDepth)
    (remaining : Nat) (name : String) (index : Nat) (values : List Value)
    (quiet : ∀ function, one.functions.functions[index]? = some function →
      one.functions.Quiet function.body) :
    Agree (one.callLocal remaining name index values)
      (other.callLocal remaining name index values) := by
  induction remaining generalizing name index values with
  | zero =>
      unfold callLocal
      rw [functions, depth]
      cases other.functions.functions[index]? with
      | none => exact .throw _
      | some function => exact .throw _
  | succ remaining ih =>
      unfold callLocal
      cases found : one.functions.functions[index]? with
      | none =>
          rw [functions] at found
          simp only [found, functions]
          exact .throw _
      | some function =>
          have quietBody := quiet function found
          rw [functions] at found
          simp only [found]
          apply Expr.evalWith_agree catalog rfl
          apply indifferent_of_quiet quietBody
          · intro _ index
            rfl
          · intro name index args part values
            exact ih name index values fun inner isInner => quietBody.body part isInner

/-- A quiet expression only depends on the catalog and the facts that it is evaluated with, and on
the functions if it calls any. -/
theorem eval_agree {scope elsewhere : MatchScope} {e : Expr} (quiet : one.functions.Quiet e)
    (catalog : one.catalog = other.catalog) (depth : one.callDepth = other.callDepth)
    (functions : one.functions = other.functions ∨ e.callsLocal = false)
    (current : scope.current = elsewhere.current)
    (tuple : e.readsTuple = true → ∀ index,
      one.tupleFact scope index = other.tupleFact elsewhere index) :
    Agree (one.eval scope [] e) (other.eval elsewhere [] e) := by
  unfold eval
  apply Expr.evalWith_agree catalog current
  apply indifferent_of_quiet quiet tuple
  intro name index args part values
  have same := functions.resolve_right fun none => Bool.eq_false_iff.mp none
    ((Expr.any_iff e).mpr ⟨_, part, rfl⟩)
  rw [← depth]
  apply callLocal_agree catalog same depth
  intro function found
  exact quiet.body part found

/-- A condition depends on nothing that its flags do not report. -/
theorem test_congr {globals others : Globals} {scope elsewhere : MatchScope} {e : Expr}
    (quiet : one.functions.Quiet e) (catalog : one.catalog = other.catalog)
    (depth : one.callDepth = other.callDepth)
    (functions : one.functions = other.functions ∨ e.callsLocal = false)
    (current : scope.current = elsewhere.current)
    (tuple : e.readsTuple = true → ∀ index,
      one.tupleFact scope index = other.tupleFact elsewhere index) :
    one.test globals scope e = other.test others elsewhere e := by
  have agree : Agree ({ one with access := .readOnly }.eval scope [] e)
      ({ other with access := .readOnly }.eval elsewhere [] e) :=
    eval_agree quiet catalog depth functions current tuple
  unfold test
  rw [agree.fst_run globals others]

end Evaluation

end Rete
