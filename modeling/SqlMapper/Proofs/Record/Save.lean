import SqlMapper.Proofs.Record.Fallback
import SqlMapper.Proofs.Record.RoundTrip
import SqlMapper.Proofs.Store.Compiled
import SqlMapper.Proofs.Store.Engine

/-! The two ways of saving a record. Key columns, other columns and values are found in different
places when a record is upserted and when it is counted first; here all of them are parts of one
list of cells. -/
namespace SqlMapper

open Column (Distinct)

namespace Cells.Bound

variable {columns : List Column} {cells : Cells.Bound}

/-- Among columns with distinct names, some cells are told from the others by the names of their
columns. -/
theorem any_columns_filter (hDistinct : Distinct columns) (hIn : ∀ cell ∈ cells, cell.1 ∈ columns)
    (p : Column → Bool) {cell : Column × Value} (hCell : cell ∈ cells) :
    (Cells.Bound.columns (cells.filter fun cell => p cell.1)).any (·.name == cell.1.name) =
      p cell.1 := by
  rw [Bool.eq_iff_iff, List.any_eq_true]
  constructor
  · rintro ⟨c, hc, hName⟩
    obtain ⟨other, hOther, rfl⟩ := List.mem_map.mp hc
    obtain ⟨hMem, hp⟩ := List.mem_filter.mp hOther
    have hSame : other.1.isNamed cell.1.name = true := by
      rw [← beq_iff_eq.mp hName]
      exact other.1.isNamed_self
    rwa [hDistinct.eq_of_isNamed (hIn cell hCell) (hIn other hMem) hSame] at hp
  · intro hp
    exact ⟨cell.1, List.mem_map_of_mem (List.mem_filter.mpr ⟨hCell, hp⟩), beq_self_eq_true _⟩

/-- Restricted to the columns of some of them, the cells are those cells. -/
theorem on_columns_filter (hDistinct : Distinct columns) (hIn : ∀ cell ∈ cells, cell.1 ∈ columns)
    (p : Column → Bool) :
    cells.on (Cells.Bound.columns (cells.filter fun cell => p cell.1)) =
      cells.filter fun cell => p cell.1 :=
  List.filter_congr fun _ hCell => any_columns_filter hDistinct hIn p hCell

end Cells.Bound

namespace Repository

variable {e : Entity}

section Cells

variable (r : Repository e) (record : Record e)

/-- The mapped columns with the values of a record. -/
def cells : Cells.Bound :=
  r.table.columns.filterMap fun c =>
    (r.mapping.propertyOf? c.name).map fun p => (c, (record.get? p).getD .null)

/-- The key columns with the values of a record. -/
def keyCells : Cells.Bound := (r.cells record).filter (·.1.isKey)

/-- The columns outside the key with the values of a record. -/
def otherCells : Cells.Bound := (r.cells record).filter (!·.1.isKey)

end Cells

/-- The columns of the key stand for properties. -/
def MapsKey (r : Repository e) : Prop := ∀ c ∈ r.table.key, (r.mapping.propertyOf? c.name).isSome

variable {r : Repository e} {record : Record e}

/-- The cells of a record are its mapped columns with the values of their properties. -/
theorem mem_cells_iff {cell : Column × Value} : cell ∈ r.cells record ↔
    cell.1 ∈ r.table.columns ∧ ∃ p, r.mapping.propertyOf? cell.1.name = some p ∧
      (record.get? p).getD .null = cell.2 := by
  simp only [cells, List.mem_filterMap, Option.map_eq_some_iff]
  constructor
  · rintro ⟨c, hc, p, hp, rfl⟩
    exact ⟨hc, p, hp, rfl⟩
  · rintro ⟨hc, p, hp, hv⟩
    exact ⟨cell.1, hc, p, hp, Prod.ext rfl hv⟩

theorem mem_columns_of_cells {cell : Column × Value} (h : cell ∈ r.cells record) :
    cell.1 ∈ r.table.columns :=
  (mem_cells_iff.mp h).1

/-- The mapped ones among some columns, in column order. -/
theorem columns_filter_cells (record : Record e) (p : Column → Bool) :
    Cells.Bound.columns ((r.cells record).filter fun cell => p cell.1) =
      r.table.columns.filter fun c => p c && (r.mapping.propertyOf? c.name).isSome := by
  rw [Cells.Bound.columns, cells, List.filter_filterMap, List.map_filterMap,
    ← List.filterMap_eq_filter]
  refine List.filterMap_congr fun c _ => ?_
  cases hProperty : r.mapping.propertyOf? c.name <;> cases hp : p c <;>
    simp [hProperty, hp, Option.guard]

/-- The cells of a key that is mapped are those of its columns. -/
theorem columns_keyCells (record : Record e) (hMapped : r.MapsKey) :
    (r.keyCells record).columns = r.table.key := by
  refine (columns_filter_cells record Column.isKey).trans (List.filter_congr fun c hc => ?_)
  cases hKey : c.isKey with
  | false => rfl
  | true => exact hMapped c (List.mem_filter.mpr ⟨hc, hKey⟩)

namespace Aligned

variable (h : r.Aligned)
include h

/-- A column of the table is found by its own name. -/
theorem find?_name {c : Column} (hc : c ∈ r.table.columns) : r.table.find? c.name = some c :=
  Table.find?_eq_named? (Column.named?_self h.distinct hc)

/-- The mapping lists the mapped columns in the order of the table. -/
theorem entries_eq : r.mapping.entries =
    r.table.columns.filterMap fun c => (r.mapping.propertyOf? c.name).map fun p => (c.name, p) := by
  have hEntries := congrArg Mapping.entries h.mapping
  rw [Mapping.resolve] at hEntries
  rw [hEntries]
  refine List.filterMap_congr fun c hc => ?_
  rw [h.mapping, Mapping.propertyOf?_resolve h.distinct hc]

theorem get?_of_mem_entries {entry : String × String} (hEntry : entry ∈ r.mapping.entries) :
    record.get? entry.2 = some ((record.get? entry.2).getD .null) := by
  obtain ⟨t, x, hField⟩ := record.exists_field? (h.of_mem_entries hEntry).2
  rw [Record.get?_eq, hField]
  rfl

/-- The names under which insertions list the columns. -/
theorem map_name_cells (record : Record e) :
    (r.cells record).columns.map Column.name = r.mapping.entries.map Prod.fst := by
  rw [h.entries_eq, Cells.Bound.columns, cells, List.map_map, List.map_filterMap, List.map_filterMap]
  simp only [Option.map_map]
  rfl

/-- The values that insertions bind. -/
theorem values_cells : (r.cells record).values = r.rowOf record := by
  rw [rowOf, h.entries_eq, Cells.Bound.values, cells, List.map_filterMap, List.map_filterMap]
  simp only [Option.map_map]
  rfl

/-- The values that updates set. -/
theorem values_eq : r.mapping.values record =
    (r.cells record).map fun cell => (cell.1.name, cell.2) := by
  have hCells : (r.cells record).map (fun cell => (cell.1.name, cell.2)) =
      r.mapping.entries.map fun entry => (entry.1, (record.get? entry.2).getD .null) := by
    rw [h.entries_eq, cells, List.map_filterMap, List.map_filterMap]
    simp only [Option.map_map]
    rfl
  rw [hCells, Mapping.values, ← List.filterMap_eq_map]
  refine List.filterMap_congr fun entry hEntry => ?_
  rw [h.get?_of_mem_entries hEntry]
  rfl

/-- The value by which a key column is compared. -/
theorem cellOf?_eq {cell : Column × Value} (hCell : cell ∈ r.cells record) :
    r.cellOf? record cell.1.name = some cell.2 := by
  obtain ⟨hc, p, hp, hValue⟩ := mem_cells_iff.mp hCell
  have hEntry := (h.propertyOf?_eq_some_iff hc).mp hp
  cases hFind : r.mapping.entries.find? (·.1 == cell.1.name) with
  | none => exact absurd (beq_self_eq_true _) (List.find?_eq_none.mp hFind _ hEntry)
  | some entry =>
      have hMem := List.mem_of_find?_eq_some hFind
      have hName : entry.1 = cell.1.name := by simpa using List.find?_some hFind
      have hOther : r.mapping.propertyOf? cell.1.name = some entry.2 := by
        rw [h.propertyOf?_eq_some_iff hc, ← hName]
        exact hMem
      obtain rfl : p = entry.2 := Option.some.inj (hp.symm.trans hOther)
      rw [cellOf?, hFind, Option.bind_some, h.get?_of_mem_entries hMem, hValue]

/-- Restricted to the key, the cells of a record are its key cells. -/
theorem on_keyCells (record : Record e) (hMapped : r.MapsKey) :
    (r.cells record).on r.table.key = r.keyCells record := by
  rw [← columns_keyCells record hMapped]
  exact Cells.Bound.on_columns_filter h.distinct (fun _ => mem_columns_of_cells) Column.isKey

/-- Restricted to the other columns, the cells of a record are its other cells. -/
theorem on_otherCells :
    (r.cells record).on (r.otherCells record).columns = r.otherCells record :=
  Cells.Bound.on_columns_filter h.distinct (fun _ => mem_columns_of_cells) (!·.isKey)

/-- The columns that an upsert sets if it can. -/
theorem updatedColumns_eq (hMapped : r.MapsKey) :
    Insert.updatedColumns (r.cells record).columns r.table.key = (r.otherCells record).columns := by
  rw [Insert.updatedColumns, ← columns_keyCells record hMapped]
  refine (List.filter_map ..).trans ?_
  refine congrArg (List.map Prod.fst) (List.filter_congr fun cell hCell => ?_)
  exact congrArg Bool.not
    (Cells.Bound.any_columns_filter h.distinct (fun _ => mem_columns_of_cells) Column.isKey hCell)

end Aligned

/-! ### Exchanges -/

section Ways

variable (r : Repository e) (record : Record e)

/-- The columns that an upsert sets: those outside the key, or the key itself where a list of columns
to set may not be empty. -/
def updated : List Column :=
  if r.dialect.upsert = .onDuplicateKey ∧ (r.otherCells record).isEmpty then r.table.key
  else (r.otherCells record).columns

/-- A record with nothing to set besides its key, for which the key itself is set. -/
def SetsKey : Prop := r.dialect.upsert = .onDuplicateKey ∧ r.otherCells record = []

def byUpsert : Exchange UInt64 :=
  Exchange.modified (r.site .insert)
    ((Command.upsert (r.cells record) (r.updated record)).request r.dialect r.table)

/-- A count of the rows with the key, behind it an insertion if there are none, else an update. -/
def byCount : Exchange UInt64 := do
  let found ← Exchange.counted (r.site .count)
    ((Command.count (r.keyCells record)).request r.dialect r.table)
  if found = 0 then
    Exchange.modified (r.site .insert) ((Command.insert (r.cells record)).request r.dialect r.table)
  else if (r.otherCells record).isEmpty then return 0
  else
    Exchange.modified (r.site .update)
      ((Command.update (r.otherCells record) (r.keyCells record)).request r.dialect r.table)

/-- The repository on a database that has no upserts and is the same otherwise. -/
def withoutUpsert : Repository e := { r with dialect := { r.dialect with upsert := .none } }

end Ways

/-- In every statement the condition is about the rows with the key of a record. -/
structure SelectsKey (r : Repository e) (record : Record e) (c : Condition) : Prop where
  effective : Condition.effective (some c) = some c
  clause : ∀ operation, Condition.clause r.dialect r.table operation (some c) =
    .ok (Command.whereSql r.dialect r.table (r.keyCells record))

/-- When the columns of an insertion have types, so has the column of every cell. -/
theorem typed_of_cells {types : List String} {cell : Column × Value}
    (hTypes : Insert.columnTypes r.dialect r.table.name (r.cells record).columns = .ok types)
    (hCell : cell ∈ r.cells record) :
    r.dialect.columnType r.table.name cell.1 = .ok (r.dialect.typeOf r.table cell.1) :=
  (Insert.columnTypes_eq_ok hTypes).2 _ (List.mem_map_of_mem hCell)

theorem keyCells_ne_nil (record : Record e) (hKey : r.table.key ≠ []) (hMapped : r.MapsKey) :
    r.keyCells record ≠ [] := by
  intro hNone
  have hColumns := columns_keyCells record hMapped
  rw [hNone] at hColumns
  exact hKey hColumns.symm

namespace Aligned

section Statements

variable (h : r.Aligned)
include h

theorem length_cells : (r.cells record).columns.length = (r.rowOf record).length := by
  rw [← h.values_cells, Cells.Bound.columns, Cells.Bound.values, List.length_map, List.length_map]

/-- An insertion of one record is the command to insert its cells. -/
theorem rowsSql_rowOf : Insert.rowsSql r.table (r.cells record).columns
    ((r.cells record).columns.map (r.dialect.typeOf r.table)) [r.rowOf record] =
      Command.insertSql r.dialect r.table (r.cells record) := by
  rw [← h.values_cells, Insert.rowsSql_eq]

/-- The filter that holds for rows with the values of some columns. -/
theorem keyFilter_eq {held : Cells.Bound} (hHeld : ∀ cell ∈ held, cell ∈ r.cells record)
    (filter : Option Condition) :
    r.keyFilter record filter held.columns = .ok (Condition.holding filter held) := by
  induction held generalizing filter with
  | nil => rfl
  | cons cell held ih =>
      rw [List.forall_mem_cons] at hHeld
      rw [Cells.Bound.columns, List.map_cons, keyFilter, h.cellOf?_eq hHeld.1]
      exact ih hHeld.2 _

/-- An update sets the cells outside the key. -/
theorem updateOf?_eq (c : Condition) : r.updateOf? record c =
    if (r.otherCells record).isEmpty then none
    else some { r.update.narrow c with
      assignments := (r.otherCells record).map fun cell => (cell.1.name, cell.2) } := by
  have hAssignments : (r.mapping.values record).filter (fun cell =>
      (r.table.find? cell.1).any fun column => !column.isKey) =
        (r.otherCells record).map fun cell => (cell.1.name, cell.2) := by
    rw [h.values_eq, List.filter_map, otherCells]
    refine congrArg (List.map _) (List.filter_congr fun cell hCell => ?_)
    rw [Function.comp_apply, h.find?_name (mem_columns_of_cells hCell)]
    rfl
  rw [updateOf?, hAssignments, List.isEmpty_map]

variable (hKey : r.table.key ≠ []) (hMapped : r.MapsKey)
include hKey hMapped

theorem resolved (record : Record e) :
    r.table.columnsOrAll .insert (r.mapping.entries.map Prod.fst) =
      .ok (r.cells record).columns := by
  rw [← h.map_name_cells record, Table.columnsOrAll, if_neg]
  · refine Table.columnsOf_map_name fun c hc => ?_
    obtain ⟨cell, hCell, rfl⟩ := List.mem_map.mp hc
    exact h.find?_name (mem_columns_of_cells hCell)
  · intro hEmpty
    have hNone : r.cells record = [] := by simpa [Cells.Bound.columns] using hEmpty
    exact keyCells_ne_nil record hKey hMapped (by rw [keyCells, hNone]; rfl)

/-- An upsert of one record is an insertion of its cells with a clause behind it. -/
theorem compileUpsert_cells :
    { r.insertion [record] with upsert := true }.compileUpsert =
      (Insert.columnTypes r.dialect r.table.name (r.cells record).columns).map fun _ =>
        (Insert.upsertSql? r.dialect.upsert (r.cells record).columns r.table.key).map fun clause =>
          [r.dialect.request (Command.insertSql r.dialect r.table (r.cells record) ++ clause)] := by
  rw [compileUpsert_singleton record hKey, h.resolved hKey hMapped record]
  dsimp only [Except.bind]
  rw [if_pos h.length_cells.symm]
  cases hTypes : Insert.columnTypes r.dialect r.table.name (r.cells record).columns with
  | error f => rfl
  | ok types =>
      obtain ⟨rfl, -⟩ := Insert.columnTypes_eq_ok hTypes
      rw [Except.map, Except.map, h.rowsSql_rowOf]

variable {types : List String}
  (hTypes : Insert.columnTypes r.dialect r.table.name (r.cells record).columns = .ok types)
include hTypes

/-- An insertion of one record is an insertion of its cells. -/
theorem compile_insertion_cells : (r.insertion [record]).compile =
    .ok [(Command.insert (r.cells record)).request r.dialect r.table] := by
  have hFills : r.Fills (r.cells record).columns types :=
    ⟨h.resolved hKey hMapped record, hTypes, h.length_cells.trans (length_rowOf record)⟩
  obtain ⟨rfl, -⟩ := Insert.columnTypes_eq_ok hTypes
  rw [compile_insertion hFills (List.cons_ne_nil record []), shares_singleton, List.map_singleton,
    statement, List.map_singleton, h.rowsSql_rowOf]
  rfl

/-- Rows are counted and updated under one condition. -/
theorem exists_keyCondition (hPresent : ∀ cell ∈ r.keyCells record, cell.2.isNull = false) :
    ∃ c, r.keyCondition record = .ok c ∧ r.SelectsKey record c := by
  have hCells : ∀ cell ∈ r.keyCells record, cell ∈ r.cells record :=
    fun _ hCell => (List.mem_filter.mp hCell).1
  obtain ⟨c, hHolding, hEffective, hClause⟩ := Condition.exists_holding
    (keyCells_ne_nil record hKey hMapped)
    (fun cell hCell => h.find?_name (mem_columns_of_cells (hCells cell hCell)))
    (fun cell hCell => typed_of_cells hTypes (hCells cell hCell)) hPresent
  refine ⟨c, ?_, hEffective, hClause⟩
  rw [keyCondition, ← columns_keyCells record hMapped, h.keyFilter_eq hCells, hHolding]
  rfl

omit hKey hMapped in
/-- The update of one record is an update of its cells outside the key. -/
theorem compile_update_cells {c : Condition} (hSelects : r.SelectsKey record c)
    (hOthers : (r.otherCells record).isEmpty = false) :
    { r.update.narrow c with
      assignments := (r.otherCells record).map fun cell => (cell.1.name, cell.2) : Update }.compile =
        .ok ((Command.update (r.otherCells record) (r.keyCells record)).request r.dialect r.table) := by
  have hCells : ∀ cell ∈ r.otherCells record, cell ∈ r.cells record :=
    fun _ hCell => (List.mem_filter.mp hCell).1
  have hFilter : Condition.effective (r.update.narrow c).filter = some c := hSelects.effective
  simp only [Update.compile, Result.guard_eq_ok_iff, Result.bind_eq_ok_iff, hFilter]
  refine ⟨List.isEmpty_map.trans hOthers, rfl, _, Update.resolved_map ?_, _,
    Update.assignmentSql_eq ?_, _, hSelects.clause .update, rfl⟩
  · exact fun cell hCell => h.find?_name (mem_columns_of_cells (hCells cell hCell))
  · exact fun cell hCell => typed_of_cells hTypes (hCells cell hCell)

end Statements

variable (h : r.Aligned) (hKey : r.table.key ≠ []) (hMapped : r.MapsKey)
include h hKey hMapped

/-- Where a column has no type, saving fails before anything is sent. -/
theorem save_of_error {f : Failure}
    (hTypes : Insert.columnTypes r.dialect r.table.name (r.cells record).columns = .error f) :
    r.save record = Exchange.ofResult (.error f) := by
  rw [save, h.compileUpsert_cells hKey hMapped, hTypes]
  rfl

variable {types : List String}
  (hTypes : Insert.columnTypes r.dialect r.table.name (r.cells record).columns = .ok types)
include hTypes

/-- A dialect with an upsert saves by it. -/
theorem save_of_upsert (hUpsert : r.dialect.upsert ≠ .none) : r.save record = r.byUpsert record := by
  have hClause : Insert.upsertSql? r.dialect.upsert (r.cells record).columns r.table.key =
      some (Command.upsertSql r.dialect r.table (r.updated record)) := by
    rw [Command.upsertSql, updated]
    cases hStyle : r.dialect.upsert with
    | none => exact absurd hStyle hUpsert
    | onConflict =>
        rw [Insert.upsertSql?, h.updatedColumns_eq hMapped]
        simp
    | onDuplicateKey =>
        rw [Insert.upsertSql?, h.updatedColumns_eq hMapped]
        simp [Cells.Bound.columns]
  rw [save, h.compileUpsert_cells hKey hMapped, hTypes, hClause]
  exact Exchange.executeAll_singleton ..

/-- A dialect without an upsert saves by counting the key first. -/
theorem save_of_none (hNone : r.dialect.upsert = .none)
    (hPresent : ∀ cell ∈ r.keyCells record, cell.2.isNull = false) :
    r.save record = r.byCount record := by
  obtain ⟨c, hCondition, hSelects⟩ := h.exists_keyCondition hKey hMapped hTypes hPresent
  have hCount : (r.query.narrow c).countRequest =
      .ok ((Command.count (r.keyCells record)).request r.dialect r.table) := by
    have hFilter : Condition.effective (r.query.narrow c).filter = some c := hSelects.effective
    rw [Query.countRequest, hFilter, Result.bind_eq_ok_iff]
    exact ⟨_, hSelects.clause .count, rfl⟩
  have hClause : Insert.upsertSql? r.dialect.upsert (r.cells record).columns r.table.key = none := by
    rw [hNone]
    rfl
  have hInsert : r.insert record = Exchange.modified (r.site .insert)
      ((Command.insert (r.cells record)).request r.dialect r.table) := by
    rw [insert, Insert.execute, h.compile_insertion_cells hKey hMapped hTypes]
    exact Exchange.executeAll_singleton ..
  rw [save, h.compileUpsert_cells hKey hMapped, hTypes, hClause, hCondition]
  change ((r.query.narrow c).count >>= _) = _
  rw [Query.count, hCount, byCount]
  change (Exchange.counted _ _ >>= _) = _
  rw [hInsert, h.updateOf?_eq]
  cases hOthers : (r.otherCells record).isEmpty with
  | true => rfl
  | false =>
      simp only [Bool.false_eq_true, if_false, Update.execute,
        h.compile_update_cells hTypes hSelects hOthers]
      rfl

end Aligned

/-- Nothing of the count and what follows it depends on upserts. -/
theorem byCount_withoutUpsert (r : Repository e) (record : Record e) :
    r.withoutUpsert.byCount record = r.byCount record := by
  have hRequest (sql : Sql) : r.withoutUpsert.dialect.request sql = r.dialect.request sql :=
    Dialect.request_of_upsert r.dialect .none sql
  simp only [byCount, Command.request, hRequest]
  rfl

/-- Without upserts the rows with the key are counted. -/
theorem save_withoutUpsert (h : r.Aligned) (hKey : r.table.key ≠ []) (hMapped : r.MapsKey)
    {types : List String}
    (hTypes : Insert.columnTypes r.dialect r.table.name (r.cells record).columns = .ok types)
    (hPresent : ∀ cell ∈ r.keyCells record, cell.2.isNull = false) :
    r.withoutUpsert.save record = r.byCount record := by
  have hPlain : r.withoutUpsert.Aligned := ⟨h.distinct, h.mapping⟩
  rw [← byCount_withoutUpsert]
  exact hPlain.save_of_none hKey hMapped ((Insert.columnTypes_of_upsert ..).trans hTypes) rfl hPresent

/-! ### Rows -/

section Rows

variable {E : Engine} {s : Store} {mode : Mode} {rows rows' : List SqlMapper.Cells}

/-- Saving by an upsert leaves the rows the saved record belongs to. -/
theorem leaves_byUpsert (hUnique : s.Unique r.table rows)
    (hUpsert : E.Executes s r.dialect r.table (.upsert (r.cells record) (r.updated record)))
    (hRun : s.run r.table rows (.upsert (r.cells record) (r.updated record)) = some rows') :
    E.Leaves (r.byUpsert record) mode rows rows' := by
  obtain ⟨n, w, hOver, hServes⟩ :=
    (Engine.serves_wire mode rows).executed (r.site .insert) hUpsert nofun hUnique hRun
  refine ⟨n, congrArg Prod.fst hOver, ?_⟩
  rw [byUpsert, hOver, hServes.rows]

/-- Saving by a count leaves the rows the saved record belongs to. -/
theorem leaves_byCount (hUnique : s.Unique r.table rows)
    (hCount : E.Executes s r.dialect r.table (.count (r.keyCells record)))
    (hInsert : E.Executes s r.dialect r.table (.insert (r.cells record)))
    (hUpdate : r.otherCells record ≠ [] →
      E.Executes s r.dialect r.table (.update (r.otherCells record) (r.keyCells record)))
    (hRun : (if s.total (r.keyCells record) rows = 0 then s.run r.table rows (.insert (r.cells record))
      else s.run r.table rows (.update (r.otherCells record) (r.keyCells record))) = some rows') :
    E.Leaves (r.byCount record) mode rows rows' := by
  obtain ⟨⟨row, n, hReply, hRead, hTotal⟩, hSame⟩ := hCount rows rows hUnique rfl
  obtain ⟨w, hOver, hServes⟩ :=
    (Engine.serves_wire mode rows).counted (r.site .count) hReply hRead
  rw [hSame] at hServes
  rw [Engine.Leaves, byCount, Exchange.runOver_bind, hOver]
  -- The count that came back is the number of rows on which the store decides, too.
  dsimp only
  rw [hTotal]
  split at hRun
  next hNone =>
    obtain ⟨a, w', hOver', hServes'⟩ :=
      hServes.executed (r.site .insert) hInsert nofun hUnique hRun
    rw [if_pos hNone, hOver']
    exact ⟨a, rfl, hServes'.rows⟩
  next hFound =>
    rw [if_neg hFound]
    cases hOthers : r.otherCells record with
    | nil =>
        rw [hOthers] at hRun
        have hSame := hRun.symm.trans (Store.run_update_eq_iff.mpr fun _ _ _ => rfl)
        exact ⟨0, rfl, hServes.rows.trans (Option.some.inj hSame).symm⟩
    | cons cell others =>
        rw [← hOthers]
        obtain ⟨a, w', hOver', hServes'⟩ :=
          hServes.executed (r.site .update) (hUpdate (by simp [hOthers])) nofun hUnique hRun
        rw [if_neg (by simp [hOthers]), hOver']
        exact ⟨a, rfl, hServes'.rows⟩

/-- An upsert of a record is the insertion of a row whose key is not there, and else the update of the
row that has it. -/
theorem run_upsert_cells (h : r.Aligned) (hMapped : r.MapsKey) (hUnique : s.Unique r.table rows)
    (columns : List Column) :
    s.run r.table rows (.upsert (r.cells record) columns) =
      if s.total (r.keyCells record) rows = 0 then s.run r.table rows (.insert (r.cells record))
      else s.run r.table rows (.update ((r.cells record).on columns) (r.keyCells record)) := by
  have hOn := h.on_keyCells record hMapped
  rw [Store.run_upsert _ hUnique (by rw [hOn, columns_keyCells record hMapped]), hOn]

variable (record) in
/-- The columns that an upsert sets are those outside the key, unless there are none of them and the
key stands in for them: then it matters what setting the key makes of the row that has it. -/
theorem run_upsert_updated_iff (h : r.Aligned) (hMapped : r.MapsKey)
    (hUnique : s.Unique r.table rows) :
    s.run r.table rows (.upsert (r.cells record) (r.updated record)) =
        s.run r.table rows (.upsert (r.cells record) (r.otherCells record).columns) ↔
      (r.SetsKey record → ∀ row ∈ rows,
        s.holds (r.keyCells record) row = true → s.assign (r.keyCells record) row = row) := by
  by_cases hSets : r.SetsKey record
  · have hUpdated : r.updated record = r.table.key :=
      if_pos ⟨hSets.1, List.isEmpty_iff.mpr hSets.2⟩
    have hIdle : s.run r.table rows (.update [] (r.keyCells record)) = some rows :=
      Store.run_update_eq_iff.mpr fun _ _ _ => rfl
    rw [run_upsert_cells h hMapped hUnique, run_upsert_cells h hMapped hUnique, hUpdated,
      h.on_keyCells record hMapped, h.on_otherCells, hSets.2, hIdle,
      forall_prop_of_true hSets, ← Store.run_update_eq_iff (t := r.table)]
    split
    next hNone =>
      -- No row has the key, so that nothing is asked of any row.
      refine iff_of_true rfl (Store.run_update_eq_iff.mpr fun row hRow hHolds => ?_)
      exact absurd hHolds (List.countP_eq_zero.mp hNone row hRow)
    next => rfl
  · have hUpdated : r.updated record = (r.otherCells record).columns :=
      if_neg fun hBoth => hSets ⟨hBoth.1, List.isEmpty_iff.mp hBoth.2⟩
    exact iff_of_true (by rw [hUpdated]) fun hBoth => absurd hBoth hSets

end Rows

/-- With upserts and without a record is saved by statements that agree in their columns and values.
The upsert sets the columns outside the key, or the key if there are none of them and columns have to
be set; without it the rows with the key are counted by the values that the insertion binds for the
key, and an update sets the columns outside the key of these rows to the values that the insertion
binds for them. Where keys are unique the same rows are left, unless the upsert sets the key of a row
that held it in another form. -/
theorem save_alike (h : r.Aligned) (hKey : r.table.key ≠ []) (hMapped : r.MapsKey)
    (hPresent : ∀ cell ∈ r.keyCells record, cell.2.isNull = false)
    (hUpsert : r.dialect.upsert ≠ .none) :
    (r.keyCells record).columns = r.table.key ∧
    ((r.otherCells record).columns = r.table.columns.filter fun c =>
      !c.isKey && (r.mapping.propertyOf? c.name).isSome) ∧
    (r.SetsKey record → r.updated record = r.table.key) ∧
    (¬ r.SetsKey record → r.updated record = (r.otherCells record).columns) ∧
    match Insert.columnTypes r.dialect r.table.name (r.cells record).columns with
    | .error f =>
      r.save record = Exchange.ofResult (.error f) ∧
      r.withoutUpsert.save record = Exchange.ofResult (.error f)
    | .ok _ =>
      r.save record = r.byUpsert record ∧
      r.withoutUpsert.save record = r.byCount record ∧
      ∀ (s : Store) (E E' : Engine) (mode mode' : Mode) (rows : List SqlMapper.Cells),
        s.Unique r.table rows →
        E.Executes s r.dialect r.table (.upsert (r.cells record) (r.updated record)) →
        E'.Executes s r.dialect r.table (.count (r.keyCells record)) →
        E'.Executes s r.dialect r.table (.insert (r.cells record)) →
        (r.otherCells record ≠ [] →
          E'.Executes s r.dialect r.table (.update (r.otherCells record) (r.keyCells record))) →
        ∃ upserted counted, E.Leaves (r.save record) mode rows upserted ∧
          E'.Leaves (r.withoutUpsert.save record) mode' rows counted ∧
          (upserted = counted ↔ (r.SetsKey record → ∀ row ∈ rows,
            s.holds (r.keyCells record) row = true → s.assign (r.keyCells record) row = row)) := by
  refine ⟨columns_keyCells record hMapped, columns_filter_cells record (!·.isKey), ?_, ?_, ?_⟩
  · exact fun hSets => if_pos ⟨hSets.1, List.isEmpty_iff.mpr hSets.2⟩
  · exact fun hSets => if_neg fun hBoth => hSets ⟨hBoth.1, List.isEmpty_iff.mp hBoth.2⟩
  cases hTypes : Insert.columnTypes r.dialect r.table.name (r.cells record).columns with
  | error f =>
      have hPlain : r.withoutUpsert.Aligned := ⟨h.distinct, h.mapping⟩
      exact ⟨h.save_of_error hKey hMapped hTypes,
        hPlain.save_of_error hKey hMapped ((Insert.columnTypes_of_upsert ..).trans hTypes)⟩
  | ok types =>
      have hSave := h.save_of_upsert hKey hMapped hTypes hUpsert
      have hCounted := save_withoutUpsert h hKey hMapped hTypes hPresent
      refine ⟨hSave, hCounted, ?_⟩
      intro s E E' mode mode' rows hUnique hExecutes hCount hInsert hUpdate
      obtain ⟨upserted, hRun⟩ := s.exists_run_upsert r.table rows (r.cells record) (r.updated record)
      obtain ⟨counted, hRun'⟩ :=
        s.exists_run_upsert r.table rows (r.cells record) (r.otherCells record).columns
      have hAlike := run_upsert_updated_iff record h hMapped hUnique
      rw [hRun, hRun', Option.some.injEq] at hAlike
      rw [run_upsert_cells h hMapped hUnique, h.on_otherCells] at hRun'
      rw [hSave, hCounted]
      exact ⟨upserted, counted, leaves_byUpsert hUnique hExecutes hRun,
        leaves_byCount hUnique hCount hInsert hUpdate hRun', hAlike⟩

/-- A key of two columns with another column between them and one that is not mapped, where one of
two rows has the key already. -/
theorem save_alike_composite :
    let e : Entity := ⟨"Grade",
      [⟨"course", .text⟩, ⟨"mark", .integer .int32⟩, ⟨"student", .integer .int64⟩]⟩
    let t : Table := { name := "grades", columns := [
      (Column.ofTy "STUDENT" (.integer .int64)).asKey,
      .ofTy "mark" (.integer .int32),
      (Column.ofTy "course" .text).asKey,
      .ofTy "room" .text] }
    let r : Repository e := ⟨t, .generic, (t.mapping e.name e.propertyNames).1, 100⟩
    let record : Record e := ⟨("logic", ⟨2, by decide⟩, ⟨7, by decide⟩, ())⟩
    let s : Store := ⟨fun _ v w => .ofBool (v.same w), fun _ v => v, fun _ => .null⟩
    let row (student mark : Value) : SqlMapper.Cells := fun name =>
      if name = "STUDENT" then student else if name = "mark" then mark
      else if name = "course" then .text (some "logic") else .null
    let rows := [row (.integer .int64 (some ⟨3, by decide⟩)) (.integer .int32 none),
      row (.integer .int64 (some ⟨7, by decide⟩)) (.integer .int32 (some ⟨1, by decide⟩))]
    let E := Engine.ofStore s r.dialect t [.upsert (r.cells record) (r.updated record),
      .count (r.keyCells record), .insert (r.cells record),
      .update (r.otherCells record) (r.keyCells record)]
    ∃ rows', E.Leaves (r.save record) .native rows rows' ∧
      E.Leaves (r.withoutUpsert.save record) .native rows rows' := by
  intro e t r record s row rows E
  have hAligned : r.Aligned := ⟨Table.distinct_of_validate (t := t) rfl, rfl⟩
  have hKey : r.table.key ≠ [] := by simp [r, t, Table.key, Column.asKey, Column.ofTy, Column.new]
  have hMapped : r.MapsKey := by
    have hAll : r.table.key.all fun c => (r.mapping.propertyOf? c.name).isSome := by decide
    exact List.all_eq_true.mp hAll
  have hPresent : ∀ cell ∈ r.keyCells record, cell.2.isNull = false := by
    have hAll : (r.keyCells record).all fun cell => !cell.2.isNull := by decide
    simpa using hAll
  have hUnique : s.Unique t rows := by
    refine List.pairwise_pair.mpr fun held hHeld ⟨hFirst, hSecond⟩ => ?_
    obtain ⟨⟨c, v⟩, others, rfl⟩ := List.exists_cons_of_ne_nil (l := held) (by rintro rfl; cases hHeld)
    have hName : c.name = "STUDENT" := congrArg Column.name (List.cons.inj hHeld).1
    have hSame {student mark : Value} (hHolds : s.holds ((c, v) :: others) (row student mark) = true) :
        student.same v = true := by
      have hEqual := List.all_eq_true.mp hHolds _ (List.mem_cons_self ..)
      rw [hName] at hEqual
      cases hv : student.same v with
      | true => rfl
      | false => simp [s, row, hv, Truth.ofBool] at hEqual
    have hThree := hSame hFirst
    have hSeven := hSame hSecond
    cases v with
    | integer k n =>
        simp only [Value.same, Bool.and_eq_true, beq_iff_eq] at hThree hSeven
        have hBoth := hThree.2.trans hSeven.2.symm
        cases hBoth
    | _ => cases hThree
  have hUpsert : r.dialect.upsert ≠ .none := by decide
  have hColumns := columns_keyCells record hMapped
  have hTexts : ([Command.upsert (r.cells record) (r.updated record), .count (r.keyCells record),
      .insert (r.cells record), .update (r.otherCells record) (r.keyCells record)].map fun c =>
        (c.request r.dialect t).sql).Nodup := by
    decide +kernel
  obtain ⟨-, -, -, -, h⟩ := save_alike hAligned hKey hMapped hPresent hUpsert
  have hTypes : Insert.columnTypes r.dialect r.table.name (r.cells record).columns =
      .ok ["BIGINT", "INTEGER", "TEXT"] := rfl
  rw [hTypes] at h
  obtain ⟨upserted, counted, hUpserted, hCounted, hAlike⟩ := h.2.2 s E E .native .native rows hUnique
    (Engine.executes_ofStore hTexts (by simp) fun _ hSame => by cases hSame)
    (Engine.executes_ofStore hTexts (by simp) (by simp [hColumns, r]))
    (Engine.executes_ofStore hTexts (by simp) fun _ hSame => by cases hSame)
    fun _ => Engine.executes_ofStore hTexts (by simp) fun _ hSame => by cases hSame
  obtain rfl : upserted = counted := hAlike.mpr fun hSets => absurd hSets.1 (by decide)
  exact ⟨upserted, hUpserted, hCounted⟩

/-- Tags have no column besides their key, which a database compares in any letter case, and one of
them is saved in capitals. The upsert writes the key anew; without it nothing is sent after the
count. -/
theorem save_unlike_keyOnly :
    let e : Entity := ⟨"Tag", [⟨"id", .text⟩]⟩
    let t : Table := { name := "tags", columns := [
      { (Column.ofTy "id" .text).asKey with length := some 20 }] }
    let r : Repository e := ⟨t, .mysql, (t.mapping e.name e.propertyNames).1, 100⟩
    let record : Record e := ⟨("A", ())⟩
    let anyCase (v w : Value) : Bool := match v, w with
      | .text (some a), .text (some b) => Text.sameName a b
      | _, _ => false
    let s : Store := ⟨fun _ v w => .ofBool (anyCase v w), fun _ v => v, fun _ => .null⟩
    let row (id : String) : SqlMapper.Cells := fun name =>
      if name = "id" then .text (some id) else .null
    let commands := [Command.upsert (r.cells record) (r.updated record), .count (r.keyCells record),
      .insert (r.cells record)]
    let E := Engine.ofStore s r.dialect t commands
    r.Aligned ∧ r.table.key ≠ [] ∧ r.MapsKey ∧
      (∀ cell ∈ r.keyCells record, cell.2.isNull = false) ∧ r.dialect.upsert ≠ .none ∧
      r.otherCells record = [] ∧ s.Unique t [row "a"] ∧
      (∀ c ∈ commands, E.Executes s r.dialect t c) ∧
      E.Leaves (r.save record) .native [row "a"] [row "A"] ∧
      E.Leaves (r.withoutUpsert.save record) .native [row "a"] [row "a"] ∧ row "A" ≠ row "a" := by
  intro e t r record anyCase s row commands E
  have hAligned : r.Aligned := ⟨Table.distinct_of_validate (t := t) rfl, rfl⟩
  have hKey : r.table.key ≠ [] := by decide
  have hMapped : r.MapsKey := by
    have hAll : r.table.key.all fun c => (r.mapping.propertyOf? c.name).isSome := by decide
    exact List.all_eq_true.mp hAll
  have hPresent : ∀ cell ∈ r.keyCells record, cell.2.isNull = false := by
    have hAll : (r.keyCells record).all fun cell => !cell.2.isNull := by decide
    simpa using hAll
  have hUnique : s.Unique t [row "a"] := List.pairwise_singleton ..
  have hTexts : (commands.map fun c => (c.request r.dialect t).sql).Nodup := by decide +kernel
  have hColumns := columns_keyCells record hMapped
  have hExecutes : ∀ c ∈ commands, E.Executes s r.dialect t c := by
    refine fun c hc => Engine.executes_ofStore hTexts hc fun held hHeld => ?_
    subst hHeld
    obtain rfl : held = r.keyCells record := by simpa [commands] using hc
    exact hColumns
  have hTypes : Insert.columnTypes r.dialect r.table.name (r.cells record).columns =
      .ok ["VARCHAR(20)"] := rfl
  have hOthers : r.otherCells record = [] := rfl
  have hAssign : s.assign (r.keyCells record) (row "a") = row "A" := by
    funext name
    by_cases hName : name = "id"
    · subst hName
      rfl
    · have hOther : ∀ cell ∈ r.keyCells record, cell.1.name = "id" := by decide
      have hNone : (r.keyCells record).find? (·.1.name == name) = none := by
        refine List.find?_eq_none.mpr fun cell hCell hSame => hName ?_
        rw [← hOther cell hCell, beq_iff_eq.mp hSame]
      simp [Store.assign, hNone, row, hName]
  refine ⟨hAligned, hKey, hMapped, hPresent, by decide, hOthers, hUnique, hExecutes, ?_, ?_, ?_⟩
  · rw [hAligned.save_of_upsert hKey hMapped hTypes (by decide)]
    refine leaves_byUpsert hUnique (hExecutes _ (by simp [commands])) ?_
    have hSets : (r.cells record).on (r.updated record) = r.keyCells record := rfl
    rw [run_upsert_cells hAligned hMapped hUnique, if_neg (by decide), hSets, ← hAssign]
    rfl
  · rw [save_withoutUpsert hAligned hKey hMapped hTypes hPresent]
    refine leaves_byCount hUnique (hExecutes _ (by simp [commands])) (hExecutes _ (by simp [commands]))
      (absurd hOthers) ?_
    rw [if_neg (by decide), hOthers]
    exact Store.run_update_eq_iff.mpr fun _ _ _ => rfl
  · intro hSame
    have hId := congrFun hSame "id"
    simp [row] at hId

end Repository

end SqlMapper
