import SqlMapper.Proofs.Catalog.Cache
import SqlMapper.Proofs.Record.Insertion
import SqlMapper.Proofs.Record.Wrap
import SqlMapper.Proofs.Schema.Mapping
import SqlMapper.Proofs.Storage.RoundTrip

/-! Records that are inserted and found again. Columns, parameters, labels and properties line up, so
the row that storage keeps of an inserted record is a row of that record. -/
namespace SqlMapper

open Column (Distinct)

/-! ### Stored rows -/

/-- The cell of a column that an insertion leaves behind: what storage makes of the value that is
bound for the column, NULL where the insertion does not name it. -/
def Column.storedCell (store : Column → Value → Value) (named : List Column) (values : List Value)
    (c : Column) : Value :=
  (((named.map name).zip values).lookup c.name).elim .null (store c)

/-- The row of several columns that an insertion leaves behind. -/
def Row.stored (store : Column → Value → Value) (named : List Column) (values : List Value)
    (columns : List Column) : Row where
  labels := columns.map Column.name
  values := columns.map (Column.storedCell store named values)

/-- A stored row has one labelled cell for every column asked for. -/
theorem Row.cells_stored (store : Column → Value → Value) (named : List Column)
    (values : List Value) (columns : List Column) :
    (stored store named values columns).cells =
      columns.map fun c => (c.name, c.storedCell store named values) := by
  rw [cells, stored, List.zip_map']

/-- Storage cells restore the properties of a record whose values all have one. -/
theorem Record.restoredBy_reread {e : Entity} {record : Record e} {cells : List Storage.Cell}
    (hStorable : ∀ p ∈ e.properties, p.type.Storable)
    (hCells : Storage.Cell.ofValues (record.toList.map Prod.snd) = .ok cells) {name : String}
    {v : Value} (h : record.get? name = some v) :
    record.RestoredBy Ty.Kept name (Storage.Cell.reread v) := by
  rw [get?_eq, Option.map_eq_some_iff] at h
  obtain ⟨⟨t, x⟩, hField, rfl⟩ := h
  obtain ⟨⟨p, hp, rfl⟩, hMem⟩ := Fields.of_field? hField
  have hListed : p.type.toValue x ∈ record.toList.map Prod.snd := List.mem_map_of_mem hMem
  obtain ⟨c, hCell⟩ := Storage.Cell.exists_of_mapAll hCells _ hListed
  obtain ⟨y, hRead, hKept⟩ := (hStorable p hp).ofValue_reread hCell
  exact ⟨p.type, x, y, hField, hRead, hKept⟩

/-! ### Insertions -/

/-- Columns resolved by their own names carry these names. -/
theorem Table.map_name_of_columnsOf {t : Table} {operation : Operation} {names : List String}
    {named : List Column} (hDistinct : Distinct t.columns)
    (hNames : ∀ n ∈ names, ∃ c ∈ t.columns, c.name = n)
    (h : t.columnsOf operation names = .ok named) : named.map Column.name = names := by
  have hOwn : ∀ n ∈ names, (t.find? n).map Column.name = some n := by
    intro n hn
    obtain ⟨c, hc, rfl⟩ := hNames n hn
    rw [find?_eq_named? (Column.named?_self hDistinct hc)]
    rfl
  have hSome : (named.map Column.name).map some = names.map some := by
    calc
      _ = (named.map some).map (Option.map Column.name) := by simp
      _ = (names.map t.find?).map (Option.map Column.name) := by rw [Table.find?_of_columnsOf h]
      _ = names.map some := by
        rw [List.map_map]
        exact List.map_congr_left hOwn
  exact (List.map_inj_right fun _ _ => Option.some.inj).mp hSome

/-- A name that is listed with one value only is looked up. -/
theorem lookup_map_of_mem {entries : List (String × α)} {k : String} {a : α} (f : String × α → β)
    (hMem : (k, a) ∈ entries) (hOnly : ∀ b, (k, b) ∈ entries → b = a) :
    (entries.map fun entry => (entry.1, f entry)).lookup k = some (f (k, a)) := by
  induction entries with
  | nil => simp at hMem
  | cons entry entries ih =>
      obtain ⟨n, b⟩ := entry
      rw [List.map_cons, List.lookup_cons]
      by_cases hName : k = n
      · subst hName
        obtain rfl := hOnly b (List.mem_cons_self ..)
        simp
      · have hLater : (k, a) ∈ entries := by simpa [hName] using hMem
        rw [beq_eq_false_iff_ne.mpr hName]
        exact ih hLater fun c hc => hOnly c (List.mem_cons_of_mem _ hc)

namespace Repository

variable {e : Entity} {r : Repository e} {record : Record e} {named : List Column}

/-- The columns of the table have distinct names, and the mapping is the one that they give. -/
structure Aligned (r : Repository e) : Prop where
  distinct : Distinct r.table.columns
  mapping : r.mapping = Mapping.resolve e.name e.propertyNames r.table.name r.table.columns

/-- So are repositories that are opened on tables with distinct names and an orderly cache. -/
theorem aligned_of_new {properties : String → List String} {db db' : Database} {name : String}
    (hTidy : db.Tidy) (hCoherent : db.Slots fun _ t => t.Coherent properties)
    (hEntity : e.propertyNames = properties e.name)
    (hOpened : Repository.new e db name = .ok (r, db')) : r.Aligned := by
  obtain ⟨t, hTable, hResult⟩ := Result.bind_eq_ok_iff.mp hOpened
  have hOpenedOn : r.table = (t.mapping e.name e.propertyNames).2 :=
    congrArg (·.1.table) (Except.ok.inj hResult).symm
  have hMapping : r.mapping = (t.mapping e.name e.propertyNames).1 :=
    congrArg (·.1.mapping) (Except.ok.inj hResult).symm
  have hSlot := Database.findTable?_of_table hTable
  have hSame : (t.mapping e.name e.propertyNames).2.name = t.name ∧
      (t.mapping e.name e.propertyNames).2.columns = t.columns := by
    rw [Table.mapping]
    split <;> exact ⟨rfl, rfl⟩
  constructor
  · rw [hOpenedOn, hSame.2]
    exact (hTidy _ _ _ hSlot).2
  · rw [hMapping, hOpenedOn, hSame.1, hSame.2, hEntity]
    exact ((hCoherent _ _ _ hSlot).mapping e.name).1

/-- A column maps to a property exactly when the mapping lists the two together. -/
theorem Aligned.propertyOf?_eq_some_iff (h : r.Aligned) {c : Column} (hc : c ∈ r.table.columns)
    {p : String} : r.mapping.propertyOf? c.name = some p ↔ (c.name, p) ∈ r.mapping.entries := by
  rw [h.mapping]
  exact Mapping.propertyOf?_eq_some_iff h.distinct hc

/-- The entries are about columns of the table and properties of the entity. -/
theorem Aligned.of_mem_entries (h : r.Aligned) {name p : String} (hEntry : (name, p) ∈ r.mapping.entries) :
    (∃ c ∈ r.table.columns, c.name = name) ∧ p ∈ e.propertyNames := by
  rw [h.mapping] at hEntry
  obtain ⟨c, hc, hName, hProperty⟩ := Mapping.mem_entries_resolve_iff.mp hEntry
  exact ⟨⟨c, hc, hName⟩, Mapping.mem_of_property? hProperty⟩

/-- An insertion of one record is one statement, which binds the values of the mapped columns. -/
theorem insertion_eq_ok {requests : List Request} (h : (r.insertion [record]).compile = .ok requests) :
    ∃ insert named types, requests = [insert] ∧
      r.table.columnsOrAll .insert (r.mapping.entries.map Prod.fst) = .ok named ∧
      named.length = (r.rowOf record).length ∧
      insert = r.dialect.request (Insert.rowsSql r.table named types [r.rowOf record]) ∧
      insert.params.map Param.value = r.rowOf record := by
  obtain ⟨named, types, hFills⟩ := fills_of_compile (List.cons_ne_nil record []) h
  rw [compile_insertion hFills (List.cons_ne_nil record []), shares_singleton] at h
  have hValues := values_statement hFills [record]
  rw [List.flatMap_singleton] at hValues
  exact ⟨r.statement named types [record], named, types, (Except.ok.inj h).symm, hFills.resolved,
    hFills.length_eq.trans (length_rowOf record).symm, rfl, hValues⟩

/-- The columns an insertion fills are those of the mapping, in its order. -/
theorem map_name_of_insertion (h : r.Aligned)
    (hNamed : r.table.columnsOrAll .insert (r.mapping.entries.map Prod.fst) = .ok named)
    (hLength : named.length = (r.rowOf record).length) :
    named.map Column.name = r.mapping.entries.map Prod.fst := by
  rw [Table.columnsOrAll] at hNamed
  split at hNamed
  -- Without entries all columns are filled, which the empty row lets pass only if there are none.
  next hNone =>
    have hEntries : r.mapping.entries = [] := by simpa using hNone
    rw [rowOf, hEntries, List.map_nil, List.length_nil, List.length_eq_zero_iff] at hLength
    rw [hLength, hEntries]
    rfl
  next =>
    refine Table.map_name_of_columnsOf h.distinct ?_ hNamed
    intro n hn
    obtain ⟨⟨name, p⟩, hEntry, rfl⟩ := List.mem_map.mp hn
    exact (h.of_mem_entries hEntry).1

/-- A mapped column holds what storage makes of its property. -/
theorem storedCell_eq (h : r.Aligned)
    (hNames : named.map Column.name = r.mapping.entries.map Prod.fst)
    {c : Column} (hc : c ∈ r.table.columns) {p : String} (hEntry : (c.name, p) ∈ r.mapping.entries)
    (store : Column → Value → Value) :
    c.storedCell store named (r.rowOf record) = store c ((record.get? p).getD .null) := by
  have hOnly : ∀ q, (c.name, q) ∈ r.mapping.entries → q = p := by
    intro q hq
    rw [← h.propertyOf?_eq_some_iff hc] at hEntry hq
    exact Option.some.inj (hq.symm.trans hEntry)
  have hLookup := lookup_map_of_mem (fun entry => (record.get? entry.2).getD .null) hEntry hOnly
  rw [Column.storedCell, hNames, rowOf, List.zip_map', hLookup]
  rfl

/-- The row that an insertion leaves behind is a row of the record, if coercion undoes storage for
its values. -/
theorem exists_wrap_stored (h : r.Aligned)
    (hCovered : ∀ p ∈ e.propertyNames, ∃ name, (name, p) ∈ r.mapping.entries)
    (hNames : named.map Column.name = r.mapping.entries.map Prod.fst)
    {same : ∀ t : Ty, t.Carrier → t.Carrier → Prop} {store : Column → Value → Value}
    (hStore : ∀ c ∈ r.table.columns, ∀ p, (c.name, p) ∈ r.mapping.entries →
      ∀ v, record.get? p = some v → record.RestoredBy same p (store c v)) :
    ∃ found, r.mapping.wrap e (.stored store named (r.rowOf record) r.table.columns) = .ok found ∧
      ∀ p ∈ e.propertyNames, record.AgreesOn same found p := by
  have hCells : ∀ cell ∈ (Row.stored store named (r.rowOf record) r.table.columns).cells, ∀ p,
      r.mapping.propertyOf? cell.1 = some p → record.RestoredBy same p cell.2 := by
    rw [Row.cells_stored, List.forall_mem_map]
    intro c hc p hp
    have hEntry := (h.propertyOf?_eq_some_iff hc).mp hp
    obtain ⟨t, x, hField⟩ := record.exists_field? (h.of_mem_entries hEntry).2
    have hValue : record.get? p = some (t.toValue x) := by rw [Record.get?_eq, hField]; rfl
    rw [storedCell_eq h hNames hc hEntry store, hValue]
    exact hStore c hc p hEntry _ hValue
  obtain ⟨found, hWrap, -, hTold⟩ := Mapping.exists_wrapCells hCells (Record.initial e)
  refine ⟨found, hWrap, ?_⟩
  intro p hp
  obtain ⟨name, hEntry⟩ := hCovered p hp
  obtain ⟨⟨c, hc, rfl⟩, -⟩ := h.of_mem_entries hEntry
  rw [Row.cells_stored, List.forall_mem_map] at hTold
  exact hTold c hc p ((h.propertyOf?_eq_some_iff hc).mpr hEntry)

end Repository

/-- A query names the columns that it selects, all of the table if it is not told which. -/
theorem Query.compile_eq_ok {q : Query} (hAll : q.columns = []) {select : Request}
    (h : q.compile = .ok select) :
    ∃ rest, select = q.dialect.request
      (.text "SELECT " :: Column.nameList q.table.columns ++ .text "\nFROM " :: rest) := by
  simp only [Query.compile, Result.bind_eq_ok_iff] at h
  obtain ⟨columns, hColumns, keys, -, window, -, clause, -, hRequest⟩ := h
  rw [hAll] at hColumns
  obtain rfl := Except.ok.inj hColumns
  obtain rfl := Except.ok.inj hRequest
  exact ⟨q.table.reference ++ clause ++ orderSql keys ++ windowSql q.dialect window, by simp⟩

namespace Repository

variable {e : Entity} {r : Repository e} {record : Record e}

/-- The statement asks for the record with a key: for the first of a query, or for a reply of at most
one row. -/
inductive AsksFor (r : Repository e) (id : Value) (select : Request) : Prop
  | first {c : Condition} (hId : r.idCondition id = .ok c)
      (h : (r.query.narrow c).first.compile = .ok select)
  | whole {c : Condition} (hId : r.idCondition id = .ok c)
      (h : ((r.query.narrow c).limit 1).compile = .ok select)

/-- A request for an identity selects every column of the table. -/
theorem AsksFor.eq_request {id : Value} {select : Request} (h : r.AsksFor id select) :
    ∃ rest, select = r.dialect.request
      (.text "SELECT " :: Column.nameList r.table.columns ++ .text "\nFROM " :: rest) := by
  cases h with
  | first hId h => exact Query.compile_eq_ok rfl h
  | whole hId h => exact Query.compile_eq_ok rfl h

/-- A record that is inserted is found again. The insertion is one statement that names the mapped
columns and binds a value for each, the query selects all columns of the table, and the row that is
stored of the one under the labels of the other gives back every property, as far as coercion into
its type undoes storage. -/
theorem found_of_inserted (h : r.Aligned)
    (hCovered : ∀ p ∈ e.propertyNames, ∃ name, (name, p) ∈ r.mapping.entries)
    {requests : List Request} (hInsert : (r.insertion [record]).compile = .ok requests)
    {id : Value} {select : Request} (hSelect : r.AsksFor id select) :
    ∃ insert named types rest,
      requests = [insert] ∧
      insert = r.dialect.request
        (Insert.rowsSql r.table named types [insert.params.map Param.value]) ∧
      named.map Column.name = r.mapping.entries.map Prod.fst ∧
      select = r.dialect.request
        (.text "SELECT " :: Column.nameList r.table.columns ++ .text "\nFROM " :: rest) ∧
      ∀ (same : ∀ t : Ty, t.Carrier → t.Carrier → Prop) (store : Column → Value → Value),
        (∀ c ∈ r.table.columns, ∀ p, (c.name, p) ∈ r.mapping.entries →
          ∀ v, record.get? p = some v → record.RestoredBy same p (store c v)) →
        ∃ found,
          r.mapping.wrap e (.stored store named (insert.params.map Param.value) r.table.columns) =
            .ok found ∧
          ∀ p ∈ e.propertyNames, record.AgreesOn same found p := by
  obtain ⟨insert, named, types, hRequests, hNamed, hLength, hText, hParams⟩ := insertion_eq_ok hInsert
  obtain ⟨rest, hSelected⟩ := hSelect.eq_request
  have hNames := map_name_of_insertion h hNamed hLength
  refine ⟨insert, named, types, rest, hRequests, ?_, hNames, hSelected, ?_⟩
  · rwa [hParams]
  · intro same store hStore
    rw [hParams]
    exact exists_wrap_stored h hCovered hNames hStore

/-- Two columns of one property, one that is unknown to the record, and names in another letter case,
with cells that keep neither the sign of a zero nor the type of a missing text. -/
theorem found_of_inserted_aliased :
    let e : Entity := ⟨"Product",
      [⟨"id", .integer .int64⟩, ⟨"name", .option .text⟩, ⟨"price", .decimal⟩]⟩
    let t : Table := { name := "products", columns := [
      (Column.ofTy "ID" (.integer .int64)).asKey,
      { Column.ofTy "label" .text with mappedTo := "NAME" },
      .ofTy "note" .text,
      .ofTy "price" .decimal,
      { Column.ofTy "list_price" .decimal with mappedTo := "Price" }] }
    let r : Repository e := ⟨t, .generic, (t.mapping e.name e.propertyNames).1, 100⟩
    let price : Decimal := ⟨true, 0, 2, by decide, by decide⟩
    let record : Record e := ⟨(⟨7, by decide⟩, none, price, ())⟩
    ∃ insert select named found, (r.insertion [record]).compile = .ok [insert] ∧
      r.AsksFor (.integer .int64 (some ⟨7, by decide⟩)) select ∧
      r.mapping.wrap e (.stored (fun _ => Storage.Cell.reread) named
        (insert.params.map Param.value) t.columns) = .ok found ∧
      ∀ p ∈ e.propertyNames, record.AgreesOn Ty.Kept found p := by
  intro e t r price record
  have hDistinct : Distinct t.columns := Table.distinct_of_validate (t := t) rfl
  have hAligned : r.Aligned := ⟨hDistinct, rfl⟩
  have hEntries : r.mapping.entries =
      [("ID", "id"), ("label", "name"), ("price", "price"), ("list_price", "price")] := by decide
  have hCovered : ∀ p ∈ e.propertyNames, ∃ name, (name, p) ∈ r.mapping.entries := by
    rw [hEntries]
    simp [Entity.propertyNames, e]
  have hStorable : ∀ p ∈ e.properties, p.type.Storable := by
    simp only [e, List.forall_mem_cons]
    exact ⟨.plain (.integer .int64), .option .text, .plain .decimal, by simp⟩
  have hInsert : (r.insertion [record]).compile = .ok [_] := rfl
  have hSelect : r.AsksFor (.integer .int64 (some ⟨7, by decide⟩)) _ := .first rfl rfl
  have hCells : Storage.Cell.ofValues (record.toList.map Prod.snd) = .ok [_, _, _] := rfl
  obtain ⟨insert, named, types, rest, hRequests, -, -, -, hFound⟩ :=
    found_of_inserted hAligned hCovered hInsert hSelect
  obtain ⟨found, hWrap, hAgrees⟩ := hFound Ty.Kept (fun _ => Storage.Cell.reread)
    fun _ _ _ _ _ hValue => Record.restoredBy_reread hStorable hCells hValue
  obtain rfl := (List.cons.inj hRequests).1
  exact ⟨_, _, named, found, hInsert, hSelect, hWrap, hAgrees⟩

end Repository

end SqlMapper
