import SqlMapper.Proofs.Condition.Leaves
import SqlMapper.Proofs.Exchange.Trace
import SqlMapper.Proofs.Result
import SqlMapper.Proofs.Statement.Resolution

/-! What statements that do not compile fail with. Every writer reports under the operation and the
table that it was called for, except where the dialect has no type for a column: that is always told
as a failure of the declaration. -/
namespace SqlMapper

open Result (FailsAs)

namespace Failure

/-- A report about an operation on a table: a contradiction to the declarations, or a refusal. -/
inductive Sited (operation : Operation) (table : String) : Failure → Prop where
  | metadata (column : Option String) (reason : MetadataReason) :
      Sited operation table (.metadata ⟨operation, table, column⟩ reason)
  | compile (column : Option String) (reason : CompileReason) :
      Sited operation table (.compile ⟨operation, table, column⟩ reason)

/-- The report about a name that leads to no column of the table. -/
def Unknown (operation : Operation) (table : String) (f : Failure) : Prop :=
  ∃ name, f = .metadata ⟨operation, table, some name⟩ .columnNotFound

/-- An unknown column is refused at its operation and table. -/
theorem Unknown.sited {operation : Operation} {table : String} {f : Failure}
    (h : Unknown operation table f) : Sited operation table f := by
  obtain ⟨name, rfl⟩ := h
  exact .metadata (some name) .columnNotFound

/-- The report about a column of the table that the dialect has no type for. -/
def Untyped (d : Dialect) (t : Table) (f : Failure) : Prop :=
  ∃ c ∈ t.columns, ∃ fault, c.typeName = "" ∧ d.typeName c.type c.length c.precision = .error fault ∧
    f = .metadata ⟨.ddl, t.name, some c.name⟩ (.faults [fault])

/-- A column without a type is refused at the table, as if it were being defined. -/
theorem Untyped.sited {d : Dialect} {t : Table} {f : Failure} (h : Untyped d t f) :
    Sited .ddl t.name f := by
  obtain ⟨c, -, fault, -, -, rfl⟩ := h
  exact .metadata (some c.name) (.faults [fault])

/-- A failure names one operation. -/
theorem Sited.operation_unique {o o' : Operation} {table table' : String} {f : Failure}
    (h : Sited o table f) (h' : Sited o' table' f) : o = o' := by
  cases h <;> cases h' <;> rfl

/-- All that compiling a statement on the table can fail with. -/
def Told (d : Dialect) (t : Table) (operation : Operation) (f : Failure) : Prop :=
  Sited operation t.name f ∨ Untyped d t f

end Failure

open Failure (Sited Unknown Untyped Told)

variable {d : Dialect} {t : Table} {operation : Operation}

/-- A column of the table may have no type in the dialect. -/
theorem Dialect.columnType_fails {c : Column} (hc : c ∈ t.columns) :
    FailsAs (Untyped d t) (d.columnType t.name c) := by
  unfold columnType
  split
  next => exact .ok _
  next hBare =>
    cases hName : d.typeName c.type c.length c.precision with
    | ok name => exact .ok _
    | error fault => exact .error ⟨c, hc, fault, by simpa using hBare, hName, rfl⟩

/-! ### Columns -/

namespace Table

/-- A name that is not found is refused. -/
theorem column_fails (name : String) :
    FailsAs (Unknown operation t.name) (t.column name operation) := by
  unfold column
  cases t.find? name with
  | some c => exact .ok _
  | none => exact .error ⟨name, rfl⟩

/-- A list of names is refused for one that is not found. -/
theorem columnsOf_fails (names : List String) :
    FailsAs (Unknown operation t.name) (t.columnsOf operation names) := by
  induction names with
  | nil => exact .ok _
  | cons name names ih => exact .bind (column_fails name) fun c _ => .bind ih fun cs _ => .ok _

theorem columnsOrAll_fails (names : List String) :
    FailsAs (Unknown operation t.name) (t.columnsOrAll operation names) := by
  unfold columnsOrAll
  split
  · exact .ok _
  · exact columnsOf_fails names

end Table

/-! ### Filters -/

/-- A comparison is refused with its operation and table, or for a type. -/
theorem Predicate.sql_fails (p : Predicate) : FailsAs (Told d t operation) (p.sql d t operation) := by
  refine .bind ((Table.column_fails p.column).mono fun _ h => .inl h.sited) fun c hColumn => ?_
  cases p.operator.forValues p.values with
  | error reason => exact .error (.inl (.compile (some c.name) reason))
  | ok operator =>
      refine .bind ?_ fun sqlType _ => .ok _
      exact (Dialect.columnType_fails (Table.mem_of_column hColumn)).mono fun _ => .inr

namespace Condition

mutual

/-- A condition fails as one of its comparisons does, or for a group without any. -/
theorem sql_fails_of_leaves {kind : Failure → Prop}
    (hEmpty : kind (.compile ⟨operation, t.name, none⟩ .emptyGroup)) :
    ∀ c : Condition, (∀ p ∈ c.leaves, FailsAs kind (p.sql d t operation)) →
      FailsAs kind (c.sql d t operation)
  | leaf p, h => by
      rw [Condition.sql]
      exact h p (by simp [leaves])
  | group [], _ => .error hEmpty
  | group ((_, c) :: rest), h => by
      rw [leaves, leavesOf, List.forall_mem_append] at h
      rw [Condition.sql]
      exact .bind (sql_fails_of_leaves hEmpty c h.1) fun first _ =>
        sqlAfter_fails_of_leaves hEmpty rest h.2 _ none

/-- A condition fails as one of its comparisons does, or for an empty group. -/
theorem sqlAfter_fails_of_leaves {kind : Failure → Prop}
    (hEmpty : kind (.compile ⟨operation, t.name, none⟩ .emptyGroup)) :
    ∀ rest : List (Link × Condition), (∀ p ∈ leavesOf rest, FailsAs kind (p.sql d t operation)) →
      ∀ (written : Sql) (previous : Option Link),
        FailsAs kind (sqlAfter d t operation written previous rest)
  | [], _, written, _ => .ok written
  | (link, c) :: rest, h, written, previous => by
      rw [leavesOf, List.forall_mem_append] at h
      rw [sqlAfter]
      exact .bind (sql_fails_of_leaves hEmpty c h.1) fun right _ =>
        sqlAfter_fails_of_leaves hEmpty rest h.2 _ (some link)

end

theorem sql_fails (c : Condition) : FailsAs (Told d t operation) (c.sql d t operation) :=
  sql_fails_of_leaves (.inl (.compile none .emptyGroup)) c fun p _ => p.sql_fails

theorem clause_fails (filter : Option Condition) :
    FailsAs (Told d t operation) (clause d t operation filter) := by
  cases filter with
  | none => exact .ok _
  | some c => exact .bind (sql_fails c) fun condition _ => .ok _

end Condition

/-! ### Statements -/

namespace Insert

/-- The types of the columns fail for one that has none. -/
theorem columnTypes_fails {columns : List Column} (hColumns : ∀ c ∈ columns, c ∈ t.columns) :
    FailsAs (Untyped d t) (columnTypes d t.name columns) := by
  induction columns with
  | nil => exact .ok _
  | cons c columns ih =>
      rw [List.forall_mem_cons] at hColumns
      refine .bind (Dialect.columnType_fails hColumns.1) fun type _ => ?_
      exact .bind (ih hColumns.2) fun types _ => .ok _

/-- An upsert is refused with its operation and table, or for a type. -/
theorem compileUpsert_fails (i : Insert) :
    FailsAs (Told i.dialect i.table .insert) i.compileUpsert := by
  have hSited {f : Failure} (h : Sited .insert i.table.name f) : Told i.dialect i.table .insert f :=
    .inl h
  have hResolved := (Table.columnsOrAll_fails i.columns).mono fun _ h => hSited h.sited
  refine .bind hResolved fun columns hColumns => ?_
  refine .guard (hSited (.compile none .noRows)) ?_
  cases misfit? columns.length 0 i.rows with
  | some misfit =>
      exact .error (hSited (.compile none (.rowLength misfit.1 misfit.2 columns.length)))
  | none =>
      refine .guard (hSited (.metadata none .upsertNeedsKey)) ?_
      have hTypes := columnTypes_fails (d := i.dialect) (Table.mem_of_columnsOrAll hColumns)
      exact .bind (hTypes.mono fun _ => .inr) fun types _ => .ok _

/-- An insertion is refused with its operation and table, or for a type. -/
theorem compile_fails (i : Insert) : FailsAs (Told i.dialect i.table .insert) i.compile := by
  refine .bind i.compileUpsert_fails fun requests? _ => ?_
  cases requests? with
  | some requests => exact .ok _
  | none => exact .error (.inl (.compile none (.noUpsert i.dialect.name)))

end Insert

namespace Update

/-- An assignment to a name that is not found is refused. -/
theorem resolved_fails (assignments : List (String × Value)) :
    FailsAs (Sited .update t.name) (resolved t assignments) := by
  induction assignments with
  | nil => exact .ok _
  | cons assignment rest ih =>
      refine .bind ((Table.column_fails assignment.1).mono fun _ => Unknown.sited) fun c _ => ?_
      exact .bind ih fun cs _ => .ok _

/-- An assignment fails for a column without a type. -/
theorem assignmentSql_fails {columns : List (Column × Value)}
    (hColumns : ∀ cell ∈ columns, cell.1 ∈ t.columns) :
    FailsAs (Untyped d t) (assignmentSql d t.name columns) := by
  induction columns with
  | nil => exact .ok _
  | cons cell rest ih =>
      rw [List.forall_mem_cons] at hColumns
      refine .bind (Dialect.columnType_fails hColumns.1) fun type _ => ?_
      exact .bind (ih hColumns.2) fun parts _ => .ok _

/-- An update is refused with its operation and table, or for a type. -/
theorem compile_fails (u : Update) : FailsAs (Told u.dialect u.table .update) u.compile := by
  refine .guard (.inl (.compile none .nothingToSet)) ?_
  refine .guard (.inl (.compile none .unconditionalUpdate)) ?_
  refine .bind ((resolved_fails u.assignments).mono fun _ => .inl) fun columns hColumns => ?_
  have hParts := assignmentSql_fails (d := u.dialect) (mem_of_resolved hColumns)
  refine .bind (hParts.mono fun _ => .inr) fun parts _ => ?_
  exact .bind (Condition.clause_fails _) fun clause _ => .ok _

end Update

/-- A deletion is refused with its operation and table, or for a type. -/
theorem Delete.compile_fails (x : Delete) : FailsAs (Told x.dialect x.table .delete) x.compile := by
  refine .guard (.inl (.compile none .unconditionalDelete)) ?_
  exact .bind (Condition.clause_fails _) fun clause _ => .ok _

namespace Query

/-- A sort key that is not found is refused. -/
theorem sortKeys_fails (keys : List (String × Direction)) :
    FailsAs (Sited .query t.name) (sortKeys t keys) := by
  induction keys with
  | nil => exact .ok _
  | cons key rest ih =>
      refine .bind ((Table.column_fails key.1).mono fun _ => Unknown.sited) fun c _ => ?_
      exact .bind ih fun keys _ => .ok _

/-- A window too large for the dialect is refused. -/
theorem windowBounds_fails (q : Query) : FailsAs (Sited .query q.table.name) q.windowBounds := by
  unfold windowBounds
  cases q.window with
  | none => exact .ok _
  | some window =>
      cases window with
      | limit n => exact .ok _
      | page index size =>
          dsimp only
          split
          · exact .error (.compile none .pageSizeZero)
          · split
            · exact .error (.compile none (.pageOutOfRange index size))
            · exact .ok _

/-- The bounds of a query are refused at its table. -/
theorem bounds_fails (q : Query) : FailsAs (Sited .query q.table.name) q.bounds := by
  refine .bind q.windowBounds_fails fun window _ => ?_
  split
  · exact .ok _
  · cases window <;> exact .ok _

/-- A query is refused with its operation and table, or for a type. -/
theorem compile_fails (q : Query) : FailsAs (Told q.dialect q.table .query) q.compile := by
  refine .bind ((Table.columnsOrAll_fails q.columns).mono fun _ h => .inl h.sited) fun columns _ => ?_
  refine .bind ((sortKeys_fails q.order).mono fun _ => .inl) fun keys _ => ?_
  refine .bind (q.bounds_fails.mono fun _ => .inl) fun window _ => ?_
  exact .bind (Condition.clause_fails _) fun clause _ => .ok _

/-- A count is refused with its operation and table, or for a type. -/
theorem countRequest_fails (q : Query) : FailsAs (Told q.dialect q.table .count) q.countRequest :=
  .bind (Condition.clause_fails _) fun _ _ => .ok _

end Query

/-- Every statement is refused with its operation and table, or for a type. -/
theorem Statement.compile_fails (x : Statement) :
    FailsAs (Told x.dialect x.table x.operation) x.compile := by
  cases x with
  | insert i => exact i.compile_fails
  | update u => exact u.compile_fails.map
  | delete x => exact x.compile_fails.map
  | select q => exact q.compile_fails.map
  | count q => exact q.countRequest_fails.map

end SqlMapper
