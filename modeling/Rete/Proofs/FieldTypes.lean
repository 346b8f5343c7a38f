import Rete.Catalog
import Rete.Proofs.SortedMap

/-!
# Objects with values of their declared types

An object suits a type if every declared field of the type is set in it, to a value that the field
accepts (`RecordType.Suits`). Instances that are made of checked values suit their type
(`RecordType.suits_of_instantiate`), and setting fields to accepted values keeps it so
(`RecordType.Suits.setAll`).
-/

namespace Rete

/-- Setting a field does not change the type of an object. -/
@[simp] theorem Object.typeName_set (o : Object) (field : String) (value : Value) :
    (o.set field value).typeName = o.typeName := rfl

/-- A field that is set has its new value, all others theirs. -/
theorem Object.get?_set (o : Object) (field other : String) (value : Value) :
    (o.set field value).get? other = if other = field then some value else o.get? other := by
  simp only [get?, set, Entries.find?_insert, Std.LawfulEqOrd.compare_eq_iff_eq]

/-- Setting fields does not change the type of an object. -/
theorem Object.typeName_setAll (o : Object) (values : List (String × Value)) :
    (values.foldl (fun fact (field, value) => fact.set field value) o).typeName = o.typeName := by
  induction values generalizing o with
  | nil => rfl
  | cons assigned rest ih => exact ih _

/-- Different objects are different values. -/
theorem Value.ofObject_inj {o other : Object} : ofObject o = ofObject other ↔ o = other := by
  refine ⟨fun same => ?_, fun same => same ▸ rfl⟩
  obtain ⟨names, fields⟩ := Value.object.inj same
  cases o
  cases other
  cases names
  cases fields
  rfl

/-- The field is set in the object, to a value that its type accepts. -/
def FieldDef.Suits (field : FieldDef) (o : Object) : Prop :=
  ∃ value, o.get? field.name = some value ∧ field.type.accepts value.type = true

namespace RecordType

variable {type : RecordType} {o : Object} {name : String} {value : Value}

/-- Every declared field is set in the object, to a value that its type accepts. -/
def Suits (type : RecordType) (o : Object) : Prop := ∀ field ∈ type.fields, field.Suits o

/-- The value is accepted by every declared field of a name. -/
def Accepts (type : RecordType) (name : String) (value : Value) : Prop :=
  ∀ field ∈ type.fields, field.name = name → field.type.accepts value.type = true

/-- The fields are declared under different names. -/
def Distinct (type : RecordType) : Prop := (type.fields.map FieldDef.name).Nodup

private theorem Suits.set (suits : type.Suits o) (accepts : type.Accepts name value) :
    type.Suits (o.set name value) := by
  intro field member
  unfold FieldDef.Suits
  rw [Object.get?_set]
  by_cases same : field.name = name
  · rw [if_pos same]
    exact ⟨value, rfl, accepts field member same⟩
  · rw [if_neg same]
    exact suits field member

/-- Values that are assigned one after the other. -/
theorem Suits.setAll {values : List (String × Value)}
    (accepts : ∀ assigned ∈ values, type.Accepts assigned.1 assigned.2) (suits : type.Suits o) :
    type.Suits (values.foldl (fun fact (field, value) => fact.set field value) o) := by
  induction values generalizing o with
  | nil => exact suits
  | cons assigned rest ih =>
      obtain ⟨first, others⟩ := List.forall_mem_cons.mp accepts
      exact ih others (suits.set first)

/-- Assigning values to fields of different names leaves the other fields alone. -/
theorem get?_assign {fields : List FieldDef} {values : List Value} {made : Object}
    (assigned : assign o fields values = .ok made) {other : String}
    (without : other ∉ fields.map FieldDef.name) : made.get? other = o.get? other := by
  induction fields generalizing o values with
  | nil =>
      cases assigned
      rfl
  | cons field fields ih =>
      obtain ⟨different, later⟩ := not_or.mp (List.mem_cons.not.mp without)
      cases values with
      | nil =>
          cases assigned
          rfl
      | cons value values =>
          rw [assign] at assigned
          split at assigned
          · rw [ih assigned later, Object.get?_set, if_neg different]
          · cases assigned

private theorem typeName_assign {fields : List FieldDef} {values : List Value} {made : Object}
    (assigned : assign o fields values = .ok made) : made.typeName = o.typeName := by
  induction fields generalizing o values with
  | nil =>
      cases assigned
      rfl
  | cons field fields ih =>
      cases values with
      | nil =>
          cases assigned
          rfl
      | cons value values =>
          rw [assign] at assigned
          split at assigned
          · rw [ih assigned, Object.typeName_set]
          · cases assigned

/-- Every field that a checked value was assigned to holds it. -/
theorem suits_assign {fields : List FieldDef} {values : List Value} {made : Object}
    (distinct : (fields.map FieldDef.name).Nodup) (enough : values.length = fields.length)
    (assigned : assign o fields values = .ok made) : ∀ field ∈ fields, field.Suits made := by
  induction fields generalizing o values with
  | nil => exact fun _ none => absurd none List.not_mem_nil
  | cons field fields ih =>
      obtain ⟨new, others⟩ := List.nodup_cons.mp distinct
      cases values with
      | nil => cases enough
      | cons value values =>
          rw [assign] at assigned
          split at assigned
          · next accepts =>
              refine List.forall_mem_cons.mpr ⟨⟨value, ?_, accepts⟩, ?_⟩
              · rw [get?_assign assigned new, Object.get?_set, if_pos rfl]
              · exact ih others (Nat.succ.inj enough) assigned
          · cases assigned

/-- An instance bears the name of its type. -/
theorem typeName_of_instantiate {values : List Value} {made : Object}
    (instantiates : type.instantiate values = .ok made) : made.typeName = type.fullName := by
  unfold instantiate at instantiates
  split at instantiates
  · exact typeName_assign instantiates
  · cases instantiates

/-- An instance suits its type, unless two fields of it have one name. -/
theorem suits_of_instantiate (distinct : type.Distinct) {values : List Value} {made : Object}
    (instantiates : type.instantiate values = .ok made) :
    made.typeName = type.fullName ∧ type.Suits made := by
  refine ⟨typeName_of_instantiate instantiates, ?_⟩
  unfold instantiate at instantiates
  split at instantiates
  · next enough => exact suits_assign distinct enough instantiates
  · cases instantiates

/-- What is found under a name is a declared field of that name. -/
theorem mem_of_field? {field : FieldDef} (found : type.field? name = some field) :
    field ∈ type.fields ∧ field.name = name :=
  ⟨List.mem_of_find?_eq_some found, beq_iff_eq.mp
    (List.find?_some (p := fun other : FieldDef => other.name == name) found)⟩

/-- A value that the field of a name accepts is accepted under that name, unless two fields have one
name. -/
theorem Distinct.accepts (distinct : type.Distinct) {field : FieldDef}
    (found : type.field? name = some field) (accepts : field.type.accepts value.type = true) :
    type.Accepts name value := by
  obtain ⟨declared, isName⟩ := mem_of_field? found
  intro other member same
  have one : other = field := List.inj_on_of_nodup_map distinct member declared
    (same.trans isName.symm)
  exact one ▸ accepts

end RecordType

/-- The object is well typed: it suits the type of its name in the catalog. -/
def Catalog.Types (catalog : Catalog) (o : Object) : Prop :=
  ∀ {type}, catalog.get? o.typeName = some type → type.toRecordType.Suits o

end Rete
