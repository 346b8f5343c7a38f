import Rete.Proofs.Compile.Instances
import Rete.Proofs.FieldTypes
import Rete.Proofs.Session.Stored

/-!
# Facts with values of their declared types

A fact is well typed if every declared field of its type holds a value that is accepted there
(`RecordType.Suits`). What `new` makes is well typed, since the values are checked when it is
evaluated; what `modify` assigns and what `insert` takes from elsewhere is only judged by the types
that are known when the rule is compiled. So a fact that is not well typed was given by the host or
comes from such an action (`KnowledgeBase.Made.facts_typed`, `Meters.high_stored`). Where the forms
of values tell their types, that judgement is right (`Execution.Bears.sound`).
-/

namespace Rete

/-! ## Actions -/

namespace SessionM

variable {functions : FunctionTable} {tuple : Tuple} {frame : List Value}
  {before after : SessionRun} {value : Value}

/-- An expression of a consequence is evaluated on the facts of the session, which stay as they
are. -/
theorem exists_eval_of_evaluate {e : Expr}
    (run : Ends (evaluate functions tuple frame e) before (.ok value) after) :
    after.session.memory.facts = before.session.memory.facts ∧
      ∃ (evaluation : Evaluation) (globals : Globals),
        evaluation.facts = before.session.memory.facts ∧
          Ends (evaluation.eval { tuple } frame e) before.session.memory.globals (.ok value)
            globals := by
  unfold evaluate at run
  rw [ends_session_bind] at run
  obtain ⟨evaluated, rfl⟩ := (ends_lift _).mp run
  exact ⟨rfl, _, _, rfl, Prod.ext evaluated.symm rfl⟩

/-- The value of a `new` is an instance of its type. -/
theorem instance_of_evaluate {type : RecordType} {args : List Expr}
    (run : Ends (evaluate functions tuple frame (.construct type args)) before (.ok value) after) :
    ∃ values made, type.instantiate values = .ok made ∧ value = .ofObject made := by
  obtain ⟨-, evaluation, globals, -, ends⟩ := exists_eval_of_evaluate run
  unfold Evaluation.eval Expr.evalWith at ends
  rcases ends_bind.mp ends with ⟨values, mid, -, rest⟩ | ⟨_, -, failed⟩
  · rcases ends_lift_bind.mp rest with ⟨made, instantiates, last⟩ | ⟨_, -, failed, -⟩
    · obtain ⟨isValue, -⟩ := (ends_pure _).mp last
      cases isValue
      exact ⟨values, made, instantiates, rfl⟩
    · cases failed
  · cases failed

/-- The value of a global is what it is set to. -/
theorem global_of_evaluate {name : String}
    (run : Ends (evaluate functions tuple frame (.global name)) before (.ok value) after) :
    value = (before.session.memory.globals.find? name).getD .nil := by
  obtain ⟨-, evaluation, globals, -, ends⟩ := exists_eval_of_evaluate run
  unfold Evaluation.eval Expr.evalWith GlobalsM.read at ends
  rw [ends_get_bind] at ends
  obtain ⟨isValue, -⟩ := (ends_pure _).mp ends
  exact Except.ok.inj isValue

end SessionM

namespace Execution

/-- What the action stores is well typed, as far as no check sees to it: `new` checks the values, if
no two fields have one name, but nothing checks an object from elsewhere, nor the values that are
assigned. -/
def Sound (catalog : Catalog) (execution : Execution) : Prop :=
  match execution.action with
  | .insert e => (∃ type args, e = .construct type args ∧ type.Distinct) ∨
      ∀ {fact after}, Ends (execution.evaluate e) execution.run (.ok (.ofObject fact)) after →
        catalog.Types fact
  | .modify index var assignments => ∀ {handle values current after type},
      SessionM.handleAt execution.tuple index var = .ok handle →
      Ends (execution.evaluateAssignments assignments) execution.run (.ok values) after →
      after.session.memory.fact? handle = some current →
      catalog.get? current.typeName = some type →
      ∀ assigned ∈ values, type.toRecordType.Accepts assigned.1 assigned.2
  | .eval _ | .bind .. | .retract .. | .setGlobal .. | .halt => True

/-- A sound action stores only facts that are well typed, when what it replaces is. -/
theorem Sound.stores {base : KnowledgeBase} (made : base.Made) (titled : base.catalog.Titled)
    {execution : Execution} {id : RuleId} (isRule : base.network.rule? id = some execution.rule)
    (member : execution.action ∈ execution.rule.consequence.actions)
    (sound : execution.Sound base.catalog) : execution.Stores base.catalog.Types := by
  unfold Sound at sound
  unfold Stores
  split
  · next e isAction =>
      rw [isAction] at sound member
      dsimp only at sound
      rcases sound with ⟨type, args, rfl, distinct⟩ | sound
      · intro fact after run
        obtain ⟨values, fresh, instantiates, same⟩ := SessionM.instance_of_evaluate run
        obtain rfl : fact = fresh := Value.ofObject_inj.mp same
        obtain ⟨listed, found, rfl⟩ := made.makes_listed titled isRule member
        obtain ⟨named, suits⟩ := RecordType.suits_of_instantiate distinct instantiates
        intro other isOther
        rw [named] at isOther
        cases found.symm.trans isOther
        exact suits
      · exact sound
  · next index var assignments isAction =>
      rw [isAction] at sound
      dsimp only at sound
      intro handle values current after bound run live typed type found
      rw [Object.typeName_setAll] at found
      exact (typed found).setAll (sound bound run live found)
  all_goals exact trivial

end Execution

namespace KnowledgeBase

variable {base : KnowledgeBase} {session : Session}

/-- **Facts keep the types of their fields**, unless an action stores a value that its field does
not accept and that nothing checks. In every session that requests lead to, also those that fail,
and that snapshots are restored to, every live fact is well typed, if so are the facts that the host
gives, if every value that a `modify` assigns is accepted by its field, and if what an `insert`
takes from elsewhere than a `new` is well typed. -/
theorem Made.facts_typed (made : base.Made) (built : base.catalog.Built)
    (reaches : base.ReachesWith base.catalog.Types (Execution.Sound base.catalog) session)
    {handle : Handle} {fact : Object} (live : session.memory.fact? handle = some fact) :
    ∃ type, base.catalog.get? fact.typeName = some type ∧ type.toRecordType.Suits fact := by
  have each : session.Each base.catalog.Types :=
    reaches.each made.proper.network.sound fun isRule member sound _ =>
      sound.stores made built.titled isRule member
  have serving := reaches.serving made.proper.network.sound
  have listed := serving.admissible.typed live
  rw [serving.catalog] at listed
  obtain ⟨type, found⟩ := SortedMap.contains_eq_true.mp listed
  exact ⟨type, found, each.live live found⟩

end KnowledgeBase

/-! ## A rule that copies a global into a field -/

namespace Meters

open Sensors (sensor reading asking ends_asking)

/-- A type with a text. -/
def note : TypeDef := { name := ⟨["app", "Note"]⟩, fields := [.ofType "text" .string] }

/-- Sensors and notes. -/
def catalog : Catalog :=
  ⟨(SortedMap.insert ∅ sensor.fullName sensor).insert note.fullName note⟩

/-- A rule that copies the value of a global of any type into the level of a sensor. -/
def built : Except (List Diagnostic) KnowledgeBase :=
  KnowledgeBase.build catalog
    [{ name := "app"
       imports := [.type "app.Sensor" {}, .type "app.Note" {}]
       globals := [{ name := "target", typeName := "Object" }]
       rules :=
         [{ name := "copy"
            conditions := [.pattern { typeName := "Sensor", binding := some "$s" }]
            consequence :=
              [.modify "$s" [("level", .name "target")],
                .insert (.construct "Note" [.literal (.string "copied")])] }] }]

/-- The knowledge base of the rule. -/
def base : KnowledgeBase := built.toOption.getD default

private theorem built_eq : built = .ok base := eq_ok_getD (by decide +kernel)

/-- The package does build. -/
theorem made : base.Made := .built built_eq

/-- The knowledge base is about sensors and notes. -/
theorem catalog_eq : base.catalog = catalog := KnowledgeBase.catalog_of_build built_eq

private theorem catalog_built : base.catalog.Built :=
  catalog_eq ▸ .register (.register .empty (if_neg (by decide))) (if_neg (by decide))

/-- A new session. -/
def opened : SessionRun := { session := (base.newSession {}).toOption.getD default }

private theorem opened_eq : base.newSession {} = .ok opened.session :=
  eq_ok_getD (by decide +kernel : (base.newSession {}).toOption.isSome = true)

/-- There is a sensor, and a value to copy. -/
def waiting (target : Value) : SessionRun :=
  asking (.setGlobal "target" target) (asking (.insert (reading 1)) opened)

/-- The value has been copied. -/
def copied (target : Value) : SessionRun := asking (.fire (some 1)) (waiting target)

/-- The types of the catalog are those of sensors and notes. -/
theorem eq_of_listed {name : String} {type : TypeDef}
    (found : base.catalog.get? name = some type) : type = sensor ∨ type = note := by
  rw [catalog_eq] at found
  unfold catalog Catalog.get? at found
  rw [SortedMap.find?_insert_eq, SortedMap.find?_insert_eq] at found
  split at found
  · exact .inr (Option.some.inj found).symm
  · split at found
    · exact .inl (Option.some.inj found).symm
    · cases found

private theorem sensor_listed : base.catalog.get? "app.Sensor" = some sensor := by
  rw [catalog_eq]
  unfold catalog Catalog.get?
  rw [SortedMap.find?_insert_eq, if_neg (by decide), SortedMap.find?_insert_eq, if_pos (by decide)]

private theorem reading_typed (level : Int64) : base.catalog.Types (reading level) := by
  intro type found
  cases sensor_listed.symm.trans found
  exact List.forall_mem_singleton.mpr ⟨.int level, rfl, rfl⟩

/-- An integer can be stored as a level. -/
theorem level_accepted {name : String} {type : TypeDef}
    (found : base.catalog.get? name = some type) (level : Int64) :
    type.toRecordType.Accepts "level" (.int level) := by
  rcases eq_of_listed found with rfl | rfl
  · exact List.forall_mem_singleton.mpr fun _ => rfl
  · exact List.forall_mem_singleton.mpr fun same => absurd same (by decide)

/-- No consequence has run where a sensor waits to be changed. -/
theorem waiting_reaches (target : Value) (allowed : Execution → Prop) :
    base.ReachesWith base.catalog.Types allowed (waiting target).session := by
  have inserted : base.ReachesWith base.catalog.Types allowed
      (asking (.insert (reading 1)) opened).session := by
    refine .asked (.new opened_eq) ?_ (fun executes => by cases executes)
      (ends_asking (.insert (reading 1)) opened)
    rintro _ ⟨⟩
    exact reading_typed 1
  exact inserted.asked (fun _ none => by cases none) (fun executes => by cases executes)
    (ends_asking (.setGlobal "target" target) _)

/-- The rules of the knowledge base do nothing but copy the value and make a note. -/
theorem actions_eq {id : RuleId} {rule : Rule} (found : base.network.rule? id = some rule) :
    rule.consequence.actions =
      [.modify 0 "$s" [("level", .global "target")],
        .insert (.construct note.toRecordType [.const (.string "copied")])] := by
  have all : base.network.rules.entries.all fun entry => entry.2.rule.consequence.actions =
      [.modify 0 "$s" [("level", .global "target")],
        .insert (.construct note.toRecordType [.const (.string "copied")])] := by
    decide +kernel
  obtain ⟨entry, isEntry, rfl⟩ := Option.map_eq_some_iff.mp found
  exact of_decide_eq_true (List.all_eq_true.mp all (id, entry)
    ((SortedMap.mem_entries ..).mpr isEntry))

/-- An action that is run while one match may fire comes up in the consequence of its rule, which
started with the facts and globals from before. -/
theorem after_of_executes_once {before : SessionRun} {execution : Execution}
    (executes : Request.Executes before (.fire (some 1)) execution) :
    ∃ id start, before.session.network.rule? id = some execution.rule ∧
      start.session.memory = before.session.memory ∧ execution.After start := by
  cases executes with
  | @fire _ count mid _ alive firings going within allowed executes =>
      obtain rfl : count = 0 := Nat.lt_one_iff.mp within
      cases firings
      obtain ⟨next, agenda, popped, isRule, isTuple, up⟩ := executes
      exact ⟨next.rule, before.unhalted.started agenda next execution.rule, isRule, rfl, up⟩

/-- While the rule fires once, it makes a note, and before that it copies the value. -/
theorem executes_copy {target : Value} {execution : Execution}
    (executes : Request.Executes (waiting target) (.fire (some 1)) execution) :
    execution.action = .insert (.construct note.toRecordType [.const (.string "copied")]) ∨
      execution.action = .modify 0 "$s" [("level", .global "target")] ∧
        execution.run.session.memory = (waiting target).session.memory := by
  have sound := made.proper.network.sound
  have network := ((waiting_reaches target fun _ => True).serving sound).network
  obtain ⟨id, start, isRule, memory, done, stored, isPrefix, ran⟩ := after_of_executes_once executes
  rw [network] at isRule
  rw [actions_eq isRule] at isPrefix
  rcases done with _ | ⟨first, _ | ⟨second, rest⟩⟩
  · have none : execution.run = start := ran.eq_of_nil
    exact .inr ⟨(List.cons_prefix_cons.mp isPrefix).1, none ▸ memory⟩
  · exact .inl (List.cons_prefix_cons.mp (List.cons_prefix_cons.mp isPrefix).2).1
  · have beyond := (List.cons_prefix_cons.mp (List.cons_prefix_cons.mp isPrefix).2).2
    cases List.append_ne_nil_of_right_ne_nil _ (List.cons_ne_nil _ _) (List.prefix_nil.mp beyond)

private theorem note_distinct : note.toRecordType.Distinct := List.nodup_singleton _

/-- Where the value is an integer, the rule is sound. -/
theorem sound_of_executes {execution : Execution}
    (executes : Request.Executes (waiting (.int 5)) (.fire (some 1)) execution) :
    execution.Sound base.catalog := by
  unfold Execution.Sound
  rcases executes_copy executes with isInsert | ⟨isModify, memory⟩
  · rw [isInsert]
    exact .inl ⟨_, _, rfl, note_distinct⟩
  · rw [isModify]
    intro handle values current after type bound run live found
    rcases ends_bind.mp run with ⟨value, mid, evaluated, rest⟩ | ⟨_, -, failed⟩
    · have target : (waiting (.int 5)).session.memory.globals.find? "target" = some (.int 5) := by
        decide +kernel
      have isFive := SessionM.global_of_evaluate evaluated
      rw [memory, target] at isFive
      obtain ⟨same, -⟩ := (ends_pure _).mp rest
      cases same
      rw [isFive]
      exact List.forall_mem_singleton.mpr (level_accepted found 5)
    · cases failed

private theorem copied_reaches : base.ReachesWith base.catalog.Types
    (Execution.Sound base.catalog) (copied (.int 5)).session :=
  (waiting_reaches (.int 5) _).asked (fun _ none => by cases none) sound_of_executes
    (ends_asking (.fire (some 1)) (waiting (.int 5)))

/-- An integer is copied, and a note is made. -/
theorem five_typed : base.Made ∧ base.catalog.Built ∧
    base.ReachesWith base.catalog.Types (Execution.Sound base.catalog)
      (copied (.int 5)).session ∧
    (copied (.int 5)).session.memory.fact? 1 = some (reading 5) ∧
    ∃ type, base.catalog.get? (reading 5).typeName = some type ∧
      type.toRecordType.Suits (reading 5) := by
  have live : (copied (.int 5)).session.memory.fact? 1 = some (reading 5) := by decide +kernel
  have reaches := copied_reaches
  exact ⟨made, catalog_built, reaches, live,
    KnowledgeBase.Made.facts_typed made catalog_built reaches live⟩

/-- A sensor whose level is no number. -/
def misread : Object := ⟨"app.Sensor", [("level", .string "high")]⟩

/-- A string is copied into a field for integers: the host gives facts that are well typed, and the
rule leaves one that is not. -/
theorem high_stored : base.Made ∧ base.catalog.Built ∧
    base.ReachesWith base.catalog.Types (fun _ => True) (copied (.string "high")).session ∧
    (copied (.string "high")).session.memory.fact? 1 = some misread ∧
    ¬ base.catalog.Types misread := by
  refine ⟨made, catalog_built, ?_, by decide +kernel, fun typed => ?_⟩
  · exact (waiting_reaches (.string "high") _).asked (fun _ none => by cases none)
      (fun _ => trivial) (ends_asking (.fire (some 1)) (waiting (.string "high")))
  · obtain ⟨value, isValue, accepts⟩ := typed sensor_listed _ (List.mem_singleton_self _)
    cases isValue
    cases accepts

end Meters

end Rete
