import SqlMapper.Proofs.Catalog.Reached
import SqlMapper.Proofs.Migration.Validity

/-! Registered tables stay valid. A table is checked when it is added, but not when a commit
registers it. Its columns pass the check all the same, whatever commits did and wherever they were
stopped; its indexes do as long as no commit takes a column from under them. -/
namespace SqlMapper.Database

variable {db : Database}

/-- The databases that can be come to when every commit to a known table keeps the columns of
indexes. -/
inductive Steady : Database → Prop where
  | new (d : Dialect) : Steady (.new d)
  | setFeatures {db : Database} (before : Steady db) (features : Features) :
      Steady { db with features }
  | addSchema {db : Database} (before : Steady db) (name : String) : Steady (db.addSchema name)
  | setCurrentSchema {db : Database} (before : Steady db) (name : String) :
      Steady (db.setCurrentSchema name)
  | addTable {db db' : Database} {t : Table} (before : Steady db) (added : db.addTable t = .ok db') :
      Steady db'
  | openRepository {db db' : Database} {e : Entity} {name : String} {r : Repository e}
      (before : Steady db) (opened : Repository.new e db name = .ok (r, db')) : Steady db'
  | commit {db db' : Database} {s s' : Session} {w u : Wire} {result : Result Nat}
      (before : Steady db) (keeps : ∀ k, s.known? db = some k → k.KeepsIndexes s.target)
      (committed : s.commit db w = (result, s', db', u)) : Steady db'

/-- Tables of databases that can be come to have distinct columns and keys that are not null. -/
theorem Reached.sound (h : Reached db) : db.Slots fun _ t => Column.Sound t.columns := by
  induction h with
  | new d => exact slots_new _ d
  | setFeatures _ _ ih => exact ih
  | addSchema _ name ih => exact Slots.addSchema ih name
  | setCurrentSchema _ name ih => exact Slots.addSchema ih name
  | addTable _ added ih =>
      exact ih.addTable added fun hValid _ _ => (Table.validate_eq_ok_iff.mp hValid).1
  | openRepository _ opened ih => exact ih.openRepository opened fun _ _ _ ht _ _ => ht
  | commit _ committed ih =>
      refine ih.commit committed (fun steps hPlan _ _ => ?_) fun done rest t hPlan hTable _ _ => ?_
      · have hTarget := (Table.validate_eq_ok_iff.mp (Plan.validate_of_steps hPlan)).1
        exact Table.sound_merged hTarget fun k hk => ih.known? hk
      · exact Plan.sound_tableAfter (fun k hk => ih.known? hk) hPlan hTable

/-- Tables of a database whose commits keep indexed columns pass the whole check. -/
theorem Steady.valid (h : Steady db) : db.Slots fun _ t => t.validate = .ok () := by
  induction h with
  | new d => exact slots_new _ d
  | setFeatures _ _ ih => exact ih
  | addSchema _ name ih => exact Slots.addSchema ih name
  | setCurrentSchema _ name ih => exact Slots.addSchema ih name
  | addTable _ added ih => exact ih.addTable added fun hValid _ _ => hValid
  | openRepository _ opened ih =>
      refine ih.openRepository opened fun _ t mappings ht _ _ => ?_
      have hValid := Table.validate_eq_ok_iff.mp ht
      exact Table.validate_eq_ok_iff.mpr hValid
  | commit _ keeps committed ih =>
      refine ih.commit committed (fun steps hPlan _ _ => ?_) fun done rest t hPlan hTable _ _ => ?_
      · exact Table.validate_merged (Plan.validate_of_steps hPlan)
          fun k hk => ⟨ih.known? hk, keeps k hk⟩
      · exact Plan.validate_tableAfter (fun k hk => ⟨ih.known? hk, keeps k hk⟩) hPlan hTable

/-- The columns of every registered table have distinct names and no nullable key, whatever was done
and wherever it failed. The whole table passes the check if every commit kept the columns of
indexes. -/
theorem registered_valid (h : Reached db) {schema name : String} {t : Table}
    (hSlot : db.slot? schema name = some t) :
    Table.validateColumns t.name [] t.columns = .ok () ∧ (Steady db → t.validate = .ok ()) :=
  ⟨(Table.validateColumns_eq_ok_iff t.name).mpr (h.sound schema name t hSlot),
    fun hSteady => hSteady.valid schema name t hSlot⟩

/-- A column under an index has got another type and a second column has come, when the second index
fails. -/
theorem registered_valid_stopped :
    let narrow : Column := { Column.ofTy "a" (.integer .int32) with mappedTo := "p" }
    let wide : Column := { Column.ofTy "A" (.integer .int64) with mappedTo := "p" }
    let known : Table :=
      { name := "t", columns := [narrow]
        indexes := [{ name := "i", columns := [("p", .ascending)] }] }
    let target : Table :=
      { name := "T", columns := [wide, .ofTy "b" .text],
        indexes := [{ name := "j", columns := [("B", .descending), ("p", .ascending)] }] }
    ∃ db e s' db' u t, (Database.new .generic).addTable known = .ok db ∧
      ({ target } : Session).commit db (.scripted .blocking [[], [], [.failure "disk full"]]) =
        (.error e, s', db', u) ∧
      Reached db' ∧ Steady db' ∧ db'.slot? "" "t" = some t ∧
      t.columns.map Column.name = ["A", "b"] ∧ t.indexNames = ["p"] ∧
      Table.validateColumns t.name [] t.columns = .ok () ∧ (Steady db' → t.validate = .ok ()) := by
  intro narrow wide known target
  let db := (Database.new .generic).put known
  let s : Session := { target }
  have hAdded : (Database.new .generic).addTable known = .ok db := by
    dsimp +zetaDelta only
    rfl
  have hCommit : ∃ e s' db' u t,
      s.commit db (.scripted .blocking [[], [], [.failure "disk full"]]) = (.error e, s', db', u) ∧
        db'.slot? "" "t" = some t ∧ t.columns.map Column.name = ["A", "b"] ∧
        t.indexNames = ["p"] := by
    dsimp +zetaDelta only
    exact ⟨_, _, _, _, _, rfl, rfl, rfl, rfl⟩
  obtain ⟨e, s', db', u, t, hFailed, hSlot, hColumns, hIndexes⟩ := hCommit
  have hReached : Reached db' := .commit (.addTable (.new .generic) hAdded) hFailed
  have hKeeps : ∀ k, s.known? db = some k → k.KeepsIndexes s.target := by
    intro k hk
    have hKnown : s.known? db = some known := Session.known?_put rfl (by decide)
    obtain rfl : known = k := Option.some.inj (hKnown.symm.trans hk)
    unfold Table.KeepsIndexes
    decide
  have hSteady : Steady db' := .commit (.addTable (.new .generic) hAdded) hKeeps hFailed
  exact ⟨db, e, s', db', u, t, hAdded, hFailed, hReached, hSteady, hSlot, hColumns, hIndexes,
    registered_valid hReached hSlot⟩

/-- The target has a known column without the property that an index of the known table is on. There
is nothing to do, and the table that is registered has an index on no column. -/
theorem registered_invalid_unaliased :
    let column : Column := .ofTy "a" (.integer .int32)
    let known : Table :=
      { name := "t", columns := [{ column with mappedTo := "p" }],
        indexes := [{ name := "i", columns := [("p", .ascending)] }] }
    let target : Table := { name := "t", columns := [column] }
    ∃ db s' db' u t, (Database.new .generic).addTable known = .ok db ∧
      ({ target } : Session).commit db (.scripted .blocking []) = (.ok 0, s', db', u) ∧
      Reached db' ∧ db'.slot? "" "t" = some t ∧
      t.validate = .error (.metadata ⟨.ddl, "t", some "p"⟩ .columnNotFound) := by
  intro column known target
  have hCommit : ∃ db s' db' u t, (Database.new .generic).addTable known = .ok db ∧
      ({ target } : Session).commit db (.scripted .blocking []) = (.ok 0, s', db', u) ∧
      db'.slot? "" "t" = some t ∧
      t.validate = .error (.metadata ⟨.ddl, "t", some "p"⟩ .columnNotFound) := by
    dsimp +zetaDelta only
    exact ⟨_, _, _, _, _, rfl, rfl, rfl, rfl⟩
  obtain ⟨db, s', db', u, t, hAdded, hDone, hSlot, hInvalid⟩ := hCommit
  exact ⟨db, s', db', u, t, hAdded, hDone, .commit (.addTable (.new .generic) hAdded) hDone, hSlot,
    hInvalid⟩

end SqlMapper.Database
