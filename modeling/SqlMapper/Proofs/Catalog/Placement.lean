import SqlMapper.Proofs.Catalog.Reached

/-! Where tables are kept. A table that names a schema lies in that schema. A commit touches the
slot from which its session knows the table and no other, unless it fails and the known table names
no schema: what ran is then registered in the current schema, whichever that is by now. -/
namespace SqlMapper

namespace Database

variable {db db' : Database}

/-- A table that names a schema lies in it. -/
def Filed (db : Database) : Prop :=
  ∀ schema name t, db.slot? schema name = some t → t.schema = "" ∨ t.schema = schema

/-- A table without a schema belongs to the current one. -/
theorem schemaOf_of_empty {t : Table} (h : t.schema = "") : db.schemaOf t = db.currentSchema := by
  rw [schemaOf, h]
  rfl

/-- A table with a schema belongs to it. -/
theorem schemaOf_of_ne {t : Table} (h : t.schema ≠ "") : db.schemaOf t = t.schema := by
  rw [schemaOf, if_neg (by simpa using h)]

/-- A table that is put where it belongs keeps all tables filed. -/
theorem Filed.putInto (h : Filed db) {schema : String} {t : Table}
    (ht : t.schema = "" ∨ t.schema = schema) : Filed (db.putInto schema t) := by
  intro other name u hu
  rw [slot?_putInto] at hu
  split at hu
  next hSlot =>
    obtain rfl := Option.some.inj hu
    rwa [hSlot.1]
  next => exact h other name u hu

theorem Filed.put (h : Filed db) (t : Table) : Filed (db.put t) := by
  refine h.putInto ?_
  by_cases hSchema : t.schema = ""
  · exact .inl hSchema
  · exact .inr (schemaOf_of_ne hSchema).symm

theorem Filed.addSchema (h : Filed db) (added : String) : Filed (db.addSchema added) := by
  intro schema name t ht
  rw [slot?_addSchema] at ht
  exact h schema name t ht

/-- Opening a repository moves no table. -/
theorem Filed.openRepository (h : Filed db) {e : Entity} {name : String} {r : Repository e}
    (hOpened : Repository.new e db name = .ok (r, db')) : Filed db' := by
  obtain ⟨t, hTable, -, rfl⟩ := openRepository_eq_ok hOpened
  obtain ⟨mappings, hMapped⟩ := exists_mapping t e.name e.propertyNames
  have ht := h _ _ _ (findTable?_of_table hTable)
  rw [hMapped]
  exact h.putInto ht

/-- Whatever was done, tables that name a schema lie in it. -/
theorem Reached.filed (h : Reached db) : Filed db := by
  induction h with
  | new d =>
      intro schema name t ht
      rw [slot?_new] at ht
      cases ht
  | setFeatures _ _ ih => exact ih
  | addSchema _ name ih => exact ih.addSchema name
  | setCurrentSchema _ name ih => exact ih.addSchema name
  | addTable _ added ih =>
      obtain ⟨_, -, hPut⟩ := Result.bind_eq_ok_iff.mp added
      obtain rfl := Except.ok.inj hPut
      exact ih.put _
  | openRepository _ opened ih => exact ih.openRepository opened
  | commit _ committed ih =>
      rcases Session.database_of_commit committed with rfl | ⟨-, -, -, -, rfl⟩ |
        ⟨-, -, -, t, -, -, -, rfl⟩
      · exact ih
      · exact ih.put _
      · exact ih.put t

end Database

namespace Session

open Database (Reached)

variable {db db' : Database} {s s' : Session} {w u : Wire} {result : Result Nat}

/-- If a commit registers a table, it has the name of the target, and either the schema of the
target or, after a failure, that of the known table. -/
theorem registered_of_commit (hReached : db.Reached)
    (hCommit : s.commit db w = (result, s', db', u)) :
    db' = db ∨ ∃ t, db' = db.put t ∧ Text.lowerCase t.name = Text.lowerCase s.target.name ∧
      (t.schema = s.target.schema ∨
        (∃ e, result = .error e) ∧ ∃ k, s.known? db = some k ∧ t.schema = k.schema) := by
  rcases database_of_commit hCommit with rfl | ⟨-, -, -, -, rfl⟩ |
    ⟨done, rest, e, t, hPlan, rfl, hTable, rfl⟩
  · exact .inl rfl
  · exact .inr ⟨_, rfl, by rw [Table.merged_name], .inl (Table.merged_schema ..)⟩
  · refine .inr ⟨t, rfl, ?_⟩
    obtain ⟨hName, hSchema⟩ := Plan.address_tableAfter hPlan hTable
    cases hKnown : s.known? db with
    | none =>
        rw [hKnown] at hName hSchema
        exact ⟨congrArg Text.lowerCase hName, .inl hSchema⟩
    | some k =>
        rw [hKnown] at hName hSchema
        refine ⟨?_, .inr ⟨⟨e, rfl⟩, k, rfl, hSchema⟩⟩
        rw [hName]
        exact (hReached.tidy.known? hKnown).1

/-- A session knows the table in the slot of its target. Its commit changes no other slot, except
that a failure can register what ran in the current schema when the known table names none. -/
theorem commit_placed (hReached : db.Reached) (hCommit : s.commit db w = (result, s', db', u)) :
    s.known? db = db.slot? (db.schemaOf s.target) s.target.name ∧
      ∀ schema name, db'.slot? schema name = db.slot? schema name ∨
        Text.lowerCase name = Text.lowerCase s.target.name ∧
          (schema = db.schemaOf s.target ∨ schema = db.currentSchema ∧
            (∃ e, result = .error e) ∧ ∃ k, s.known? db = some k ∧ k.schema = "") := by
  refine ⟨known?_eq_slot? s db, fun schema name => ?_⟩
  rcases registered_of_commit hReached hCommit with rfl | ⟨t, rfl, hName, hSchema⟩
  · exact .inl rfl
  · rw [Database.put, Database.slot?_putInto]
    split
    next hSlot =>
      obtain ⟨rfl, hSame⟩ := hSlot
      refine .inr ⟨hSame.trans hName, ?_⟩
      rcases hSchema with hTarget | ⟨hFailed, k, hKnown, hSchema⟩
      · exact .inl (by rw [Database.schemaOf, Database.schemaOf, hTarget])
      · by_cases hEmpty : k.schema = ""
        · exact .inr ⟨Database.schemaOf_of_empty (hSchema.trans hEmpty), hFailed, k, hKnown, hEmpty⟩
        · -- The known table names the schema that it lies in, which is that of the target.
          have hSlot := hKnown
          rw [known?_eq_slot?] at hSlot
          have hFiled := (hReached.filed _ _ _ hSlot).resolve_left hEmpty
          rw [Database.schemaOf_of_ne (by rwa [hSchema]), hSchema]
          exact .inl hFiled
    next => exact .inl rfl

/-- Two tables of one name in two schemas. The one that is not in the current schema is altered
until a statement fails. -/
theorem commit_placed_stopped :
    let a : Column := .ofTy "a" .text
    let known : Table := { name := "t", schema := "audit", columns := [a] }
    let other : Table := { name := "T", columns := [.ofTy "x" .text] }
    let target : Table :=
      { name := "T", schema := "audit", columns := [a, .ofTy "b" .text, .ofTy "c" .text] }
    let s : Session := { target }
    let db := ((Database.new .generic).put known).put other
    ∃ e s' db' u, db.Reached ∧
      s.commit db (.scripted .blocking [[], [.failure "disk full"]]) = (.error e, s', db', u) ∧
      (db'.slot? "audit" "t").map (·.columns.map Column.name) = some ["a", "b"] ∧
      s.known? db = db.slot? (db.schemaOf s.target) s.target.name ∧
      ∀ schema name, db'.slot? schema name = db.slot? schema name ∨
        Text.lowerCase name = Text.lowerCase s.target.name ∧
          (schema = db.schemaOf s.target ∨ schema = db.currentSchema ∧
            (∃ e', (.error e : Result Nat) = .error e') ∧
              ∃ k, s.known? db = some k ∧ k.schema = "") := by
  intro a known other target s db
  have hKnown : ((Database.new .generic).put known).Reached :=
    .addTable (t := known) (.new .generic) rfl
  have hReached : db.Reached := .addTable (t := other) hKnown rfl
  have hCommit : ∃ e s' db' u,
      s.commit db (.scripted .blocking [[], [.failure "disk full"]]) = (.error e, s', db', u) ∧
        (db'.slot? "audit" "t").map (·.columns.map Column.name) = some ["a", "b"] := by
    dsimp +zetaDelta only
    exact ⟨_, _, _, _, rfl, rfl⟩
  obtain ⟨e, s', db', u, hFailed, hColumns⟩ := hCommit
  obtain ⟨hKnown, hSlots⟩ := commit_placed hReached hFailed
  exact ⟨e, s', db', u, hReached, hFailed, hColumns, hKnown, hSlots⟩

/-- A table without a schema was added while another schema was current. The columns that a commit
brought it before it failed go to the table of its name in the current schema. -/
theorem commit_displaced :
    let audited : Table := { name := "t", columns := [.ofTy "a" .text] }
    let other : Table := { name := "t", columns := [.ofTy "x" .text] }
    let target : Table :=
      { audited with schema := "audit"
                     columns := [.ofTy "a" .text, .ofTy "b" .text, .ofTy "c" .text] }
    let s : Session := { target }
    let columnsIn (db : Database) (schema : String) : Option (List String) :=
      (db.slot? schema "t").map (·.columns.map Column.name)
    ∃ added db e s' db' u,
      ((Database.new .generic).setCurrentSchema "audit").addTable audited = .ok added ∧
      (added.setCurrentSchema "").addTable other = .ok db ∧
      s.commit db (.scripted .blocking [[], [.failure "disk full"]]) = (.error e, s', db', u) ∧
      db.Reached ∧ db.schemaOf s.target = "audit" ∧
      (columnsIn db "", columnsIn db' "") = (some ["x"], some ["a", "b"]) ∧
      (columnsIn db "audit", columnsIn db' "audit") = (some ["a"], some ["a"]) := by
  intro audited other target s columnsIn
  have hCommit : ∃ added db e s' db' u,
      ((Database.new .generic).setCurrentSchema "audit").addTable audited = .ok added ∧
      (added.setCurrentSchema "").addTable other = .ok db ∧
      s.commit db (.scripted .blocking [[], [.failure "disk full"]]) = (.error e, s', db', u) ∧
      (columnsIn db "", columnsIn db' "") = (some ["x"], some ["a", "b"]) ∧
      (columnsIn db "audit", columnsIn db' "audit") = (some ["a"], some ["a"]) := by
    dsimp +zetaDelta only
    exact ⟨_, _, _, _, _, _, rfl, rfl, rfl, rfl, rfl⟩
  obtain ⟨added, db, e, s', db', u, hFirst, hSecond, hFailed, hCurrent, hAudit⟩ := hCommit
  have hAdded : added.Reached := .addTable (.setCurrentSchema (.new .generic) "audit") hFirst
  have hReached : db.Reached := .addTable (.setCurrentSchema hAdded "") hSecond
  exact ⟨added, db, e, s', db', u, hFirst, hSecond, hFailed, hReached, rfl, hCurrent, hAudit⟩

end Session

end SqlMapper
