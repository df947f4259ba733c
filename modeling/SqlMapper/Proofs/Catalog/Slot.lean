import SqlMapper.Migration.Session

/-! Tables in their slots. A table that is put into a slot is found there, every other slot keeps its
table, and of two tables put into one slot only the last one counts. -/
namespace SqlMapper

namespace Ordered

/-- An entry that is put is found under its key, and all others are found as before. -/
theorem find?_put (key other : String) (a : α) (entries : List (String × α)) :
    find? other (put key a entries) = if other = key then some a else find? other entries := by
  split
  next h => rw [h, find?_put_self]
  next h => exact find?_put_of_ne h a entries

/-- Only the last entry of a key counts. -/
theorem put_put (key : String) (a b : α) (entries : List (String × α)) :
    put key a (put key b entries) = put key a entries := by
  induction entries with
  | nil => simp [put]
  | cons entry rest ih =>
      obtain ⟨k, c⟩ := entry
      by_cases hSame : key = k
      · simp [put, hSame]
      · by_cases hBefore : key < k <;> simp [put, hSame, hBefore, ih]

end Ordered

namespace Database

@[simp] theorem dialect_put (db : Database) (t : Table) : (db.put t).dialect = db.dialect := rfl

@[simp] theorem schemaOf_put (db : Database) (t u : Table) :
    (db.put t).schemaOf u = db.schemaOf u := rfl

/-- A table that is put into a schema is found there under its name, in any letter case, and all
other tables are found as before. -/
theorem slot?_putInto (db : Database) (schema other name : String) (t : Table) :
    (db.putInto schema t).slot? other name =
      if other = schema ∧ Text.lowerCase name = Text.lowerCase t.name then some t
      else db.slot? other name := by
  by_cases hSchema : other = schema
  · subst hSchema
    simp only [slot?, schema?, putInto, Ordered.find?_put, if_true, Option.bind_some, true_and]
    split
    next => rfl
    next =>
      -- A schema that is new with its first table was empty before.
      cases Ordered.find? other db.schemas <;> rfl
  · simp only [slot?, schema?, putInto, Ordered.find?_put, hSchema, false_and, if_false]

/-- A new database knows no table. -/
theorem slot?_new (d : Dialect) (schema name : String) : (new d).slot? schema name = none := by
  simp only [slot?, schema?, new, Ordered.find?]
  split <;> rfl

/-- A schema is empty when it is added. -/
theorem slot?_addSchema (db : Database) (added schema name : String) :
    (db.addSchema added).slot? schema name = db.slot? schema name := by
  rw [addSchema]
  split
  next => rfl
  next hNone =>
    simp only [slot?, schema?, Ordered.find?_put]
    split
    next hSame =>
      rw [schema?] at hNone
      rw [hSame, hNone]
      rfl
    next => rfl

/-- Only the last table of a name counts. -/
theorem putInto_putInto (db : Database) (schema : String) {t u : Table}
    (hName : Text.lowerCase t.name = Text.lowerCase u.name) :
    (db.putInto schema t).putInto schema u = db.putInto schema u := by
  simp only [putInto, schema?, Ordered.find?_put, if_true, Option.getD_some, hName,
    Ordered.put_put]

/-- Every table of the database is as it should be in the slot of a name. -/
def Slots (P : String → Table → Prop) (db : Database) : Prop :=
  ∀ schema name t, db.slot? schema name = some t → P name t

section Slots

variable {P : String → Table → Prop} {db : Database}

theorem slots_new (P : String → Table → Prop) (d : Dialect) : Slots P (.new d) := by
  intro schema name t h
  rw [slot?_new] at h
  cases h

/-- A table comes into the slot of its name. -/
theorem Slots.putInto (h : Slots P db) (schema : String) {t : Table}
    (ht : ∀ name, Text.lowerCase t.name = Text.lowerCase name → P name t) :
    Slots P (db.putInto schema t) := by
  intro other name u hu
  rw [slot?_putInto] at hu
  split at hu
  next hSlot =>
    obtain rfl := Option.some.inj hu
    exact ht name hSlot.2.symm
  next => exact h other name u hu

theorem Slots.addSchema (h : Slots P db) (name : String) : Slots P (db.addSchema name) := by
  intro schema table t ht
  rw [slot?_addSchema] at ht
  exact h schema table t ht

end Slots

/-- Of two tables that are put into one slot the last one counts. -/
theorem put_put (db : Database) {t u : Table} (hSchema : db.schemaOf t = db.schemaOf u)
    (hName : Text.lowerCase t.name = Text.lowerCase u.name) : (db.put t).put u = db.put u := by
  change (db.putInto (db.schemaOf t) t).putInto (db.schemaOf u) u = db.putInto (db.schemaOf u) u
  rw [hSchema, putInto_putInto db _ hName]

end Database

namespace Session

/-- A session knows what is in the slot of its target. -/
theorem known?_eq_slot? (s : Session) (db : Database) :
    s.known? db = db.slot? (db.schemaOf s.target) s.target.name := by
  rw [known?, Database.findTable?, Database.schemaOf]
  cases s.target.schema.isEmpty <;> rfl

/-- A session knows a table that was put under the name of its own. -/
theorem known?_put {s : Session} {db : Database} {t : Table}
    (hSchema : db.schemaOf t = db.schemaOf s.target)
    (hName : Text.lowerCase t.name = Text.lowerCase s.target.name) :
    s.known? (db.put t) = some t := by
  rw [known?_eq_slot?, Database.schemaOf_put, Database.put, Database.slot?_putInto,
    if_pos ⟨hSchema.symm, hName.symm⟩]

end Session

end SqlMapper
