import Rete.Proofs.Compile.StaticTypes
import Rete.Proofs.Session.FieldTypes

/-!
# Actions whose values have evident types

Consequences leave facts the types that they were matched with (`Execution.Bears`), so the compiler
has checked a `modify` against the type of the fact that it changes. Where the forms of the assigned
values tell their types, that check is all that is needed (`Execution.Bears.sound`): if it is so for
all actions of a knowledge base, facts keep the types of their fields, whatever values come up
(`KnowledgeBase.Made.typed_of_evident`).
-/

namespace Rete

open Matching

/-! ## The facts of a match -/

/-- What a node of the alpha level holds is a fact of the type above it. -/
theorem Matching.Layered.named {network : Network} {facts : Facts} {memory : NetworkMemory}
    (layered : Layered network facts memory) {functions : FunctionTable} {typeName : String}
    {id : NodeId} {tests : List Expr}
    (carries : network.CarriesTests functions typeName id tests) {handle : Handle}
    (held : (memory.factsAt id).contains handle = true) :
    ∃ fact, facts.find? handle = some fact ∧ fact.typeName = typeName := by
  induction carries with
  | entry live =>
      obtain ⟨kind, isKind, fitting⟩ := layered.fitting held
      cases live.symm.trans isKind
      exact fitting
  | test above live scope ih =>
      obtain ⟨kind, isKind, fitting⟩ := layered.fitting held
      cases live.symm.trans isKind
      exact ih fitting

namespace Session

variable {session mid after : Session} {matched : List RecordType} {tuple : Tuple}

/-- The facts of a tuple that are live are of given types. -/
def Bears (session : Session) (matched : List RecordType) (tuple : Tuple) : Prop :=
  ∀ (index : Nat) (type : RecordType) (handle : Handle) (fact : Object),
    matched[index]? = some type → tuple[index]? = some handle →
    session.memory.fact? handle = some fact → fact.typeName = type.fullName

/-- The facts of a match are of the types that its rule matches. -/
theorem Intact.bears (intact : session.Intact) {id : RuleId} {rule : Rule}
    (isRule : session.network.rule? id = some rule)
    (known : session.agenda.knows ⟨id, tuple⟩ = true) :
    session.Bears (Condition.matchedTypes rule.conditions) tuple := by
  obtain ⟨-, -, meets⟩ := intact.match_meets isRule known
  intro index type handle fact isType isHandle isFact
  obtain ⟨before, given, place, positive, rfl, rfl⟩ := Condition.exists_of_matchedTypes isType
  cases meets place with
  | pattern realizes alpha live offered passed stands =>
      obtain ⟨other, isOther, held⟩ := stands positive
      cases isHandle.symm.trans isOther
      obtain ⟨object, isObject, named⟩ := intact.matched.layered.named alpha held
      cases isFact.symm.trans isObject
      exact named

/-- Facts that stay keep their types, and handles that were given out are not used for others. -/
structure KeepsTypes (session after : Session) : Prop where
  nextHandle_le : session.memory.nextHandle ≤ after.memory.nextHandle
  stays : ∀ {handle fact}, handle < session.memory.nextHandle →
    after.memory.fact? handle = some fact →
      ∃ earlier, session.memory.fact? handle = some earlier ∧ earlier.typeName = fact.typeName

namespace KeepsTypes

/-- Facts that are as before have their types. -/
theorem of_facts (facts : after.memory.facts = session.memory.facts)
    (next : after.memory.nextHandle = session.memory.nextHandle) : session.KeepsTypes after where
  nextHandle_le := Nat.le_of_eq next.symm
  stays {handle fact} _ found := by
    rw [WorkingMemory.fact?, facts] at found
    exact ⟨fact, found, rfl⟩

/-- Nothing changes its type at first. -/
theorem refl (session : Session) : session.KeepsTypes session := .of_facts rfl rfl

/-- What two steps keep each, they keep together. -/
theorem trans (first : session.KeepsTypes mid) (second : mid.KeepsTypes after) :
    session.KeepsTypes after where
  nextHandle_le := Nat.le_trans first.nextHandle_le second.nextHandle_le
  stays old found := by
    obtain ⟨between, isBetween, same⟩ :=
      second.stays (Nat.lt_of_lt_of_le old first.nextHandle_le) found
    obtain ⟨earlier, isEarlier, alike⟩ := first.stays old isBetween
    exact ⟨earlier, isEarlier, alike.trans same⟩

/-- Following the network does not touch the facts. -/
theorem of_follows {step : Network → FactView → MatchM Unit} {result : Except Error Unit}
    (follows : session.Follows step result after) : session.KeepsTypes after := by
  obtain ⟨matching, rfl⟩ := follows.exists_eq
  exact .of_facts rfl rfl

/-- A new fact has a handle of its own. -/
theorem storing (session : Session) (fact : Object) : session.KeepsTypes
    (session.storing fact) where
  nextHandle_le := Nat.le_trans (Nat.le_succ _) (Nat.le_max_left ..)
  stays {handle found} old isFound := by
    change (session.memory.facts.insert session.memory.nextHandle fact).find? handle = _ at isFound
    rw [SortedMap.find?_insert_eq, if_neg (Nat.ne_of_lt old)] at isFound
    exact ⟨found, isFound, rfl⟩

private theorem replacing {handle : Handle} {current fact : Object}
    (live : session.memory.fact? handle = some current) (same : fact.typeName = current.typeName) :
    session.KeepsTypes (session.replacing handle fact) where
  nextHandle_le := Nat.le_max_left ..
  stays {other found} _ isFound := by
    change (session.memory.facts.insert handle fact).find? other = _ at isFound
    rw [SortedMap.find?_insert_eq] at isFound
    split at isFound
    · next isHandle =>
        cases isFound
        exact ⟨current, isHandle ▸ live, same.symm⟩
    · exact ⟨found, isFound, rfl⟩

private theorem dropping (session : Session) (handle : Handle) :
    session.KeepsTypes (session.dropping handle) where
  nextHandle_le := Nat.le_refl _
  stays {other found} _ isFound := by
    change (session.memory.facts.erase handle).find? other = _ at isFound
    rw [SortedMap.find?_erase_eq] at isFound
    split at isFound
    · cases isFound
    · exact ⟨found, isFound, rfl⟩

private theorem of_inserts {fact : Object} {result : Except Error Handle} {failures : List Error}
    (inserts : session.Inserts fact result after failures) : session.KeepsTypes after := by
  cases inserts with
  | refused => exact .refl session
  | inserted alive typed follows => exact (storing session fact).trans (.of_follows follows)
  | takenBack alive typed follows back =>
      exact (((storing session fact).trans (.of_follows follows)).trans (.of_follows back)).trans
        (dropping _ _)

private theorem of_updates {handle : Handle} {current fact : Object}
    (live : session.memory.fact? handle = some current) (same : fact.typeName = current.typeName)
    {result : Except Error Unit} {failures : List Error}
    (updates : session.Updates handle fact result after failures) : session.KeepsTypes after := by
  cases updates with
  | refused => exact .refl session
  | withdrawn alive isLive typed follows => exact .of_follows follows
  | @replaced mid _ _ alive isLive typed first second =>
      have between : mid.memory = session.memory := by
        obtain ⟨matching, rfl⟩ := first.exists_eq
        rfl
      have still : mid.memory.fact? handle = some current := between ▸ live
      exact ((of_follows first).trans (replacing still same)).trans (.of_follows second)

private theorem of_retracts {handle : Handle} {result : Except Error Object} {failures : List Error}
    (retracts : session.Retracts handle result after failures) : session.KeepsTypes after := by
  cases retracts with
  | refused => exact .refl session
  | retracted alive live follows => exact (of_follows follows).trans (dropping _ _)

/-- The facts of a tuple are of given types as long as facts keep theirs. -/
theorem bears (keeps : session.KeepsTypes after) (bears : session.Bears matched tuple)
    (old : ∀ handle ∈ tuple, handle < session.memory.nextHandle) : after.Bears matched tuple := by
  intro index type handle fact isType isHandle isFact
  obtain ⟨earlier, isEarlier, same⟩ :=
    keeps.stays (old handle (List.mem_of_getElem? isHandle)) isFact
  exact same.symm.trans (bears index type handle _ isType isHandle isEarlier)

end KeepsTypes

end Session

namespace SessionM

/-- Consequences change no facts to facts of other types. -/
theorem composed_keepsTypes :
    Composed fun before after => before.session.KeepsTypes after.session where
  refl run := .refl run.session
  trans := .trans
  insert _ := ⟨fun run => by
    obtain ⟨failures, inserts, -⟩ := ends_insert run
    exact .of_inserts inserts⟩
  revises live same run := by
    obtain ⟨failures, updates, -⟩ := ends_updateFact run
    exact .of_updates live same updates
  retract _ := ⟨fun run => by
    obtain ⟨failures, retracts, -⟩ := ends_retract run
    exact .of_retracts retracts⟩
  globals _ := .of_facts rfl rfl
  halted _ := .of_facts rfl rfl

/-- The part of a consequence that has been run goes along what its actions go along. -/
theorem Ran.goes {related : SessionRun → SessionRun → Prop} (composed : Composed related)
    {functions : FunctionTable} {tuple : Tuple} {start : List Value} {before after : SessionRun}
    {actions : List Action} {stored frame : List Value}
    (ran : Ran functions tuple start before actions stored frame after) : related before after := by
  induction ran with
  | none => exact composed.refl _
  | bind ran within evaluated ih =>
      exact composed.trans ih ((composed.evaluate functions tuple _ _).goes evaluated)
  | other ran storesNothing run ih =>
      exact composed.trans ih ((composed.runAction functions tuple _ _).goes run)

end SessionM

namespace Execution

/-- The facts of the match are of the types that the rule matches, as far as they are still
there. -/
def Bears (execution : Execution) : Prop :=
  execution.run.session.Bears (Condition.matchedTypes execution.rule.conditions) execution.tuple

/-- Whenever an action is run, the facts of its match are of the types that its rule matches. -/
theorem bears_of_executes {before : SessionRun} {request : Request} {execution : Execution}
    (intact : before.session.Intact) (executes : request.Executes before execution) :
    execution.Bears := by
  cases executes with
  | @fire _ count mid _ alive firings going within allowed executes =>
      have start : before.unhalted.session.Intact := intact.step (.halted false)
      have between := firings.intact start
      obtain ⟨next, agenda, popped, isRule, isTuple, done, stored, isPrefix, ran⟩ := executes
      have waits := between.consistent.queued.mp (Agenda.pop?_eq_some popped).1
      have known : mid.session.agenda.knows next.toMatch = true :=
        SortedMap.contains_eq_true.mpr ⟨_, waits⟩
      unfold Bears
      rw [isTuple]
      have begun : mid.session.KeepsTypes (mid.started agenda next execution.rule).session :=
        .of_facts rfl rfl
      have keeps := begun.trans (ran.goes SessionM.composed_keepsTypes)
      exact keeps.bears (between.bears isRule known) fun handle within =>
        between.below (between.live_of_knows known within)

end Execution

/-! ## Assignments -/

/-- The facts of a tuple suit types that they are of and that the catalog lists, if they are well
typed. -/
theorem Session.Bears.suit {session : Session} {catalog : Catalog} {matched : List RecordType}
    {tuple : Tuple} (bears : session.Bears matched tuple) (listed : catalog.ListsAll matched)
    (each : session.Each catalog.Types) : session.memory.facts.Suit matched tuple := by
  intro index type handle fact isType isHandle isFact
  have named := bears index type handle _ isType isHandle isFact
  obtain ⟨known, isKnown, rfl⟩ := listed type (List.mem_of_getElem? isType)
  exact ⟨named, each.live isFact (named ▸ isKnown)⟩

namespace SessionM

variable {functions : FunctionTable} {tuple : Tuple} {frame : List Value}
  {matched : List RecordType}

private theorem getElem?_of_handleAt {index : Nat} {var : String} {handle : Handle}
    (bound : handleAt tuple index var = .ok handle) : tuple[index]? = some handle := by
  unfold handleAt at bound
  split at bound
  · next found =>
      cases bound
      exact found
  · cases bound

/-- Assigned values are accepted by the evident types of their expressions. -/
theorem accepts_of_evaluateAssignments {assignments : List (String × Expr)}
    {before after : SessionRun}
    {values : List (String × Value)} (suit : before.session.memory.facts.Suit matched tuple)
    (run : Ends (evaluateAssignments functions tuple frame assignments) before (.ok values) after) :
    after.session.memory.facts = before.session.memory.facts ∧
      ∀ assigned ∈ values, ∃ e, (assigned.1, e) ∈ assignments ∧
        (e.evidentType matched).accepts assigned.2.type = true := by
  induction assignments generalizing before values with
  | nil =>
      obtain ⟨same, rfl⟩ := (ends_pure _).mp run
      cases same
      exact ⟨rfl, fun _ none => absurd none List.not_mem_nil⟩
  | cons assignment rest ih =>
      obtain ⟨name, e⟩ := assignment
      obtain ⟨value, mid, one, more⟩ := run.bind_ok
      obtain ⟨others, last, two, ends⟩ := more.bind_ok
      obtain ⟨same, rfl⟩ := (ends_pure _).mp ends
      cases same
      obtain ⟨facts, evaluation, globals, isFacts, evaluated⟩ := exists_eval_of_evaluate one
      obtain ⟨still, accepted⟩ := ih (facts ▸ suit) two
      refine ⟨still.trans facts, List.forall_mem_cons.mpr ⟨⟨e, List.mem_cons_self, ?_⟩, ?_⟩⟩
      · exact Expr.accepts_of_evalWith (isFacts ▸ suit) e evaluated
      · intro assigned member
        obtain ⟨other, isOther, accepts⟩ := accepted assigned member
        exact ⟨other, List.mem_cons_of_mem _ isOther, accepts⟩

end SessionM

/-- What the action stores has the types that its form tells: an `insert` makes its fact itself, and
a `modify` assigns values of evident types. -/
def Action.isEvident (matched : List RecordType) : Action → Bool
  | .insert (.construct ..) => true
  | .insert _ => false
  | .modify _ _ assignments => assignments.all fun assigned =>
      assigned.2.evidentType matched != .any
  | .eval _ | .bind .. | .retract .. | .setGlobal .. | .halt => true

/-- Counting up the level of a sensor is evident, copying a global into it is not. -/
example :
    Action.isEvident [Sensors.sensor.toRecordType]
        (.modify 0 "$s" [("level", .binary .add (.factField 0 "level") (.const (.int 1)))]) = true ∧
      Action.isEvident [Sensors.sensor.toRecordType]
        (.modify 0 "$s" [("level", .global "target")]) = false := by
  decide

namespace Execution

variable {base : KnowledgeBase} {execution : Execution} {id : RuleId}

/-- An action that stores what its form tells is sound: the check of its values when it was compiled
was one of the types that they have. -/
theorem Bears.sound (bears : execution.Bears) (made : base.Made) (titled : base.catalog.Titled)
    (distinct : ∀ {name type}, base.catalog.get? name = some type → type.toRecordType.Distinct)
    (isRule : base.network.rule? id = some execution.rule)
    (member : execution.action ∈ execution.rule.consequence.actions)
    (each : execution.run.session.Each base.catalog.Types)
    (evident : execution.action.isEvident
      (Condition.matchedTypes execution.rule.conditions) = true) :
    execution.Sound base.catalog := by
  obtain ⟨listed, checked⟩ := made.checked titled isRule
  have passed := checked _ member
  unfold Sound
  split
  · next e isInsert =>
      rw [isInsert] at member evident
      cases e with
      | construct type args =>
          obtain ⟨known, isKnown, rfl⟩ := made.makes_listed titled isRule member
          exact .inl ⟨_, args, rfl, distinct isKnown⟩
      | const | slot | fact | factField | currentField | global | field | call | method
      | updateGlobal | binary | unary => cases evident
  · next index var assignments isModify =>
      rw [isModify] at evident passed
      obtain ⟨type, isType, checks⟩ := passed
      intro handle values current after other bound run live isOther assigned among
      have suit := Session.Bears.suit bears listed each
      obtain ⟨facts, accepted⟩ := SessionM.accepts_of_evaluateAssignments suit run
      -- The fact that is changed is of the type that the values were checked against.
      have isHandle := SessionM.getElem?_of_handleAt bound
      have isCurrent : execution.run.session.memory.fact? handle = some current := by
        rw [WorkingMemory.fact?, facts] at live
        exact live
      have named := bears index type handle _ isType isHandle isCurrent
      obtain ⟨known, isKnown, rfl⟩ := listed type (List.mem_of_getElem? isType)
      rw [named] at isOther
      cases isKnown.symm.trans isOther
      obtain ⟨e, isAssigned, accepts⟩ := accepted assigned among
      obtain ⟨field, isField, wider⟩ := checks _ isAssigned
      have known : e.evidentType (Condition.matchedTypes execution.rule.conditions) ≠ .any := by
        exact bne_iff_ne.mp (List.all_eq_true.mp evident _ isAssigned)
      exact (distinct isOther).accepts isField (ValueType.accepts_trans known wider accepts)
  all_goals exact trivial

end Execution

namespace KnowledgeBase

variable {base : KnowledgeBase} {given : Object → Prop} {allowed : Execution → Prop}
  {session : Session}

/-- Whenever an action is run, the facts of its match are of the types that its rule matches. -/
theorem ReachesWith.bears (reaches : base.ReachesWith given allowed session)
    (sound : base.network.Sound) :
    base.ReachesWith given (fun execution => allowed execution ∧ execution.Bears) session := by
  induction reaches with
  | new made => exact .new made
  | asked before gives executes run ih =>
      exact ih.asked gives (fun isRun =>
        ⟨executes isRun, Execution.bears_of_executes (before.serving sound).intact isRun⟩) run
  | restored _ taken restores ih => exact ih.restored taken restores

/-- **The check of assignments is enough where types are evident.** If all rules store only what the
form of their actions tells, and no type has two fields of one name, then facts keep the types of
their fields: in every session that requests lead to, also those that fail, and that snapshots are
restored to, every live fact is well typed if those are that the host gives. -/
theorem Made.typed_of_evident (made : base.Made) (built : base.catalog.Built)
    (distinct : ∀ {name type}, base.catalog.get? name = some type → type.toRecordType.Distinct)
    (evident : ∀ {id rule}, base.network.rule? id = some rule →
      ∀ action ∈ rule.consequence.actions,
        action.isEvident (Condition.matchedTypes rule.conditions) = true)
    (reaches : base.ReachesWith base.catalog.Types (fun _ => True) session) :
    session.Each base.catalog.Types := by
  have sound := made.proper.network.sound
  refine (reaches.bears sound).each sound fun isRule member ⟨_, bears⟩ each => ?_
  exact (bears.sound made built.titled distinct isRule member each
    (evident isRule _ member)).stores made built.titled isRule member

end KnowledgeBase

end Rete
