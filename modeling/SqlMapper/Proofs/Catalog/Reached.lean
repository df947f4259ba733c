import SqlMapper.Proofs.Migration.Origin
import SqlMapper.Record.Repository

/-! What a database can come to know. Whatever is done with it, each table lies in the slot of its
name, and the names of its columns are distinct. -/
namespace SqlMapper

open Column (Distinct)

namespace Database

/-- The databases that can be come to: from a new one by settings, schemas, tables, repositories and
migrations, be their commits successful or not. -/
inductive Reached : Database → Prop where
  | new (d : Dialect) : Reached (.new d)
  | setFeatures {db : Database} (before : Reached db) (features : Features) :
      Reached { db with features }
  | addSchema {db : Database} (before : Reached db) (name : String) : Reached (db.addSchema name)
  | setCurrentSchema {db : Database} (before : Reached db) (name : String) :
      Reached (db.setCurrentSchema name)
  | addTable {db db' : Database} {t : Table} (before : Reached db) (added : db.addTable t = .ok db') :
      Reached db'
  | openRepository {db db' : Database} {e : Entity} {name : String} {r : Repository e}
      (before : Reached db) (opened : Repository.new e db name = .ok (r, db')) : Reached db'
  | commit {db db' : Database} {s s' : Session} {w u : Wire} {result : Result Nat}
      (before : Reached db) (committed : s.commit db w = (result, s', db', u)) : Reached db'

/-- The table of a name is that of its slot. -/
theorem findTable?_of_table {db : Database} {name : String} {t : Table}
    (h : db.table name = .ok t) : db.findTable? (address name).1 (address name).2 = some t := by
  rw [table] at h
  generalize address name = place at h ⊢
  obtain ⟨schema, bare⟩ := place
  dsimp only at h ⊢
  split at h
  next found hFound => rw [hFound, Except.ok.inj h]
  next => simp at h

/-- A repository changes nothing of its table but the cache. -/
theorem exists_mapping (t : Table) (entity : String) (names : List String) :
    ∃ mappings, (t.mapping entity names).2 = { t with mappings } := by
  rw [Table.mapping]
  split
  · exact ⟨t.mappings, rfl⟩
  · exact ⟨_, rfl⟩

variable {db db' : Database} {e : Entity} {name : String} {r : Repository e}
  {s s' : Session} {w u : Wire} {result : Result Nat}

/-- A repository is opened on a table that was found and is put back with its cache. -/
theorem openRepository_eq_ok (h : Repository.new e db name = .ok (r, db')) :
    ∃ t, db.table name = .ok t ∧ r.mapping = (t.mapping e.name e.propertyNames).1 ∧
      db' = db.putInto ((address name).1.getD db.currentSchema)
        (t.mapping e.name e.propertyNames).2 := by
  obtain ⟨t, hTable, hResult⟩ := Result.bind_eq_ok_iff.mp h
  obtain ⟨rfl, rfl⟩ := Prod.mk.inj (Except.ok.inj hResult)
  exact ⟨t, hTable, rfl, rfl⟩

/-! ### What is registered -/

namespace Slots

variable {P : String → Table → Prop}

/-- What holds of all tables holds of the one that a session knows. -/
theorem known? (h : db.Slots P) {k : Table} (hKnown : s.known? db = some k) :
    P s.target.name k := by
  rw [Session.known?_eq_slot?] at hKnown
  exact h _ _ _ hKnown

/-- A table that is added has to be valid. -/
theorem addTable (h : db.Slots P) {t : Table} (hAdded : db.addTable t = .ok db')
    (ht : t.validate = .ok () → ∀ other, Text.lowerCase t.name = Text.lowerCase other → P other t) :
    db'.Slots P := by
  obtain ⟨_, hValid, hPut⟩ := Result.bind_eq_ok_iff.mp hAdded
  obtain rfl := Except.ok.inj hPut
  exact h.putInto _ (ht hValid)

/-- A repository puts its table back with another cache only. -/
theorem openRepository (h : db.Slots P) (hOpened : Repository.new e db name = .ok (r, db'))
    (hCached : ∀ place t mappings, P place t →
      ∀ other, Text.lowerCase t.name = Text.lowerCase other → P other { t with mappings }) :
    db'.Slots P := by
  obtain ⟨t, hTable, -, rfl⟩ := openRepository_eq_ok hOpened
  obtain ⟨mappings, hMapped⟩ := exists_mapping t e.name e.propertyNames
  rw [hMapped]
  exact h.putInto _ (hCached _ t mappings (h _ _ _ (findTable?_of_table hTable)))

/-- A commit registers the merged table, or what the steps that ran have made of the known one. -/
theorem commit (h : db.Slots P) (hCommit : s.commit db w = (result, s', db', u))
    (hMerged : ∀ steps, s.plan db = .ok steps → ∀ other,
      Text.lowerCase s.target.name = Text.lowerCase other →
        P other (s.target.merged (s.known? db)))
    (hAfter : ∀ done rest t, s.plan db = .ok (done ++ rest) →
      Plan.tableAfter s.target (s.known? db) done = some t →
        ∀ other, Text.lowerCase t.name = Text.lowerCase other → P other t) : db'.Slots P := by
  rcases Session.database_of_commit hCommit with rfl | ⟨steps, -, hPlan, -, rfl⟩ |
    ⟨done, rest, -, t, hPlan, -, hTable, rfl⟩
  · exact h
  · refine h.putInto _ fun other hName => hMerged steps hPlan other ?_
    rwa [Table.merged_name] at hName
  · exact h.putInto _ (hAfter done rest t hPlan hTable)

end Slots

/-- Each table lies in the slot of its name, and no two of its columns have one name. -/
def Tidy (db : Database) : Prop :=
  ∀ schema name t, db.slot? schema name = some t →
    Text.lowerCase t.name = Text.lowerCase name ∧ Distinct t.columns

/-- What a session knows of its table stands under its name and has distinct columns. -/
theorem Tidy.known? (h : Tidy db) {k : Table} (hKnown : s.known? db = some k) :
    Text.lowerCase k.name = Text.lowerCase s.target.name ∧ Distinct k.columns :=
  Slots.known? h hKnown

/-- Every database that can be come to is tidy. -/
theorem Reached.tidy (h : Reached db) : Tidy db := by
  induction h with
  | new d => exact slots_new _ d
  | setFeatures _ _ ih => exact ih
  | addSchema _ name ih => exact Slots.addSchema ih name
  | setCurrentSchema _ name ih => exact Slots.addSchema ih name
  | addTable _ added ih =>
      exact Slots.addTable ih added fun hValid _ hName => ⟨hName, Table.distinct_of_validate hValid⟩
  | openRepository _ opened ih =>
      exact Slots.openRepository ih opened fun _ _ _ ht _ hName => ⟨hName, ht.2⟩
  | @commit db db' s s' w u result _ committed ih =>
      refine Slots.commit ih committed (fun steps hPlan other hName => ?_)
        fun done rest t hPlan hTable other hName => ?_
      · obtain ⟨columns, indexes, hMerged, -, hDistinct⟩ := s.target.exists_merged (s.known? db)
        rw [hMerged]
        exact ⟨hName, hDistinct (Table.distinct_of_validate (Plan.validate_of_steps hPlan))⟩
      · have hTarget := Table.distinct_of_validate (Plan.validate_of_steps hPlan)
        exact ⟨hName, Plan.distinct_tableAfter hTarget (fun k hk => (ih.known? hk).2) t hTable⟩

end Database

end SqlMapper
