import SqlMapper.Migration.Session
import SqlMapper.Proofs.Migration.Plan
import SqlMapper.Proofs.Refusal.Statement

/-! What migrations that do not compile fail with. The planner reports under the table that it brings
to its target, except where it alters the default of a known column to a value without a literal:
that fault is told bare. -/
namespace SqlMapper

open Result (FailsAs)
open Failure (Sited)

variable {d : Dialect} {target : Table} {known : Option Table}

/-- A default without a literal that a column of the target gets by an alteration, told bare. -/
def Failure.Unwritten (d : Dialect) (known : Option Table) (target : Table) (f : Failure) : Prop :=
  ∃ k, known = some k ∧ d.altering = .clauses ∧
    ∃ c ∈ target.columns, ∃ previous value fault, k.find? c.name = some previous ∧
      c.sameDefault previous = false ∧ c.default = some value ∧ d.literal value = .error fault ∧
      f = .fault fault

/-- All that planning a migration to the target can fail with. -/
def Failure.Planned (d : Dialect) (known : Option Table) (target : Table) (f : Failure) : Prop :=
  Sited .ddl target.name f ∨ Unwritten d known target f

open Failure (Unwritten Planned)

/-! ### Definitions of columns -/

/-- A column without a type is refused at its table. -/
theorem Dialect.columnType_fails_ddl (table : String) (c : Column) :
    FailsAs (Sited .ddl table) (d.columnType table c) :=
  (columnType_fails (t := { name := table, columns := [c] }) (List.mem_singleton_self c)).mono
    fun _ => Failure.Untyped.sited

namespace Table

/-- Invalid columns are refused at their table. -/
theorem validateColumns_fails (table : String) (seen columns : List Column) :
    FailsAs (Sited .ddl table) (validateColumns table seen columns) := by
  induction columns generalizing seen with
  | nil => exact .ok _
  | cons c columns ih =>
      rw [validateColumns]
      split
      · exact .error (.metadata (some c.name) .duplicateColumn)
      · split
        · exact .error (.metadata (some c.name) .nullableKey)
        · exact ih (c :: seen)

/-- Names no column answers to are refused at their table. -/
theorem validateNames_fails (names : List String) :
    FailsAs (Sited .ddl target.name) (target.validateNames names) := by
  induction names with
  | nil => exact .ok _
  | cons name names ih =>
      rw [validateNames]
      cases hColumn : target.column name .ddl with
      | ok c => exact ih
      | error f => exact .error (column_fails name f hColumn).sited

theorem validate_fails (t : Table) : FailsAs (Sited .ddl t.name) t.validate :=
  .bind (validateColumns_fails t.name [] t.columns) fun _ _ => validateNames_fails _

end Table

namespace ColumnClause

/-- A default without a literal is refused at its table. -/
theorem defaultOf_fails (table : String) (c : Column) :
    FailsAs (Sited .ddl table) (defaultOf d table c) := by
  unfold defaultOf
  split
  · exact .ok _
  · split
    · exact .ok _
    next fault _ => exact .error (.metadata (some c.name) (.faults [fault]))

theorem ofColumn_fails (table : String) (c : Column) (alone : Bool) :
    FailsAs (Sited .ddl table) (ofColumn d table c alone) := by
  refine .bind (Dialect.columnType_fails_ddl table c) fun type _ => ?_
  exact .bind (defaultOf_fails table c) fun default _ => .ok _

/-- The clauses of a creation are refused at their table. -/
theorem ofColumns_fails (table : String) (alone : Bool) (columns : List Column) :
    FailsAs (Sited .ddl table) (ofColumns d table alone columns) := by
  induction columns with
  | nil => exact .ok _
  | cons c columns ih =>
      exact .bind (ofColumn_fails table c _) fun _ _ => .bind ih fun _ _ => .ok _

end ColumnClause

/-! ### Edits -/

namespace Edit

theorem creating_fails : FailsAs (Sited .ddl target.name) (creating d target) :=
  .bind (ColumnClause.ofColumns_fails _ _ _) fun _ _ => .ok _

theorem adding_fails (c : Column) : FailsAs (Sited .ddl target.name) (adding d target c) :=
  .bind (ColumnClause.ofColumn_fails _ c false) fun _ _ => .ok _

/-- The default is the only thing of a column whose fault gets no place. -/
theorem defaultChange_fails (previous c : Column) :
    FailsAs (fun f => ∃ value fault, c.sameDefault previous = false ∧ c.default = some value ∧
      d.literal value = .error fault ∧ f = .fault fault) (defaultChange d previous c) := by
  unfold defaultChange
  split
  · exact .ok _
  next hDiffers =>
    split
    · exact .ok _
    next value hSome =>
      split
      · exact .ok _
      next fault hLiteral =>
        exact .error ⟨value, fault, by simpa using hDiffers, hSome, hLiteral, rfl⟩

/-- An alteration is refused at its table, or bare by a default without a literal. -/
theorem altering_fails {k : Table} {previous c : Column} (hc : c ∈ target.columns)
    (hFind : k.find? c.name = some previous) :
    FailsAs (Planned d (some k) target) (altering d target previous c) := by
  unfold altering
  split
  · exact .error (.inl (.metadata (some c.name) (.alteringRefused d.name)))
  · refine .bind ((ColumnClause.ofColumn_fails _ c false).mono fun _ => .inl) fun clause _ => .ok _
  next hStyle =>
    refine .bind ?_ fun changes _ => .ok _
    have hType (column : Column) : FailsAs (Planned d (some k) target)
        (d.columnType target.name column) :=
      (Dialect.columnType_fails_ddl target.name column).mono fun _ => .inl
    refine .bind (hType c) fun type _ => .bind (hType previous) fun knownType _ => ?_
    refine .bind ((defaultChange_fails previous c).mono ?_) fun default _ => .ok _
    rintro f ⟨value, fault, hDiffers, hSome, hLiteral, rfl⟩
    exact .inr ⟨k, rfl, hStyle, c, hc, previous, value, fault, hFind, hDiffers, hSome, hLiteral, rfl⟩

/-- A dialect that cannot add a key refuses it at the table. -/
theorem addingKey_fails : FailsAs (Sited .ddl target.name) (addingKey d target) := by
  unfold addingKey
  split
  · exact .ok _
  · exact .error (.metadata none (.addingKeyRefused d.name))

/-- Index columns that are not found are refused at their table. -/
theorem indexColumns_fails (columns : List (String × Direction)) :
    FailsAs (Sited .ddl target.name) (indexColumns target columns) := by
  induction columns with
  | nil => exact .ok _
  | cons column columns ih =>
      refine .bind ((Table.column_fails column.1).mono fun _ => Failure.Unknown.sited) fun c _ => ?_
      exact .bind ih fun columns _ => .ok _

/-- An index is refused at its table. -/
theorem indexing_fails (i : Index) : FailsAs (Sited .ddl target.name) (indexing d target i) :=
  .bind (indexColumns_fails i.columns) fun _ _ => .ok _

end Edit

/-! ### Plans -/

theorem Step.indexing_fails (indexes : List Index) :
    FailsAs (Sited .ddl target.name) (Step.indexing d target indexes) := by
  induction indexes with
  | nil => exact .ok _
  | cons i indexes ih => exact .bind (Edit.indexing_fails i) fun edit _ => .bind ih fun steps _ => .ok _

namespace Plan

theorem fresh_fails : FailsAs (Sited .ddl target.name) (fresh d target) :=
  .bind Edit.creating_fails fun _ _ => .bind (Step.indexing_fails _) fun _ _ => .ok _

/-- The plan of a column fails as its addition or its alteration does. -/
theorem columnStep_fails {k : Table} {c : Column} (hc : c ∈ target.columns) :
    FailsAs (Planned d (some k) target) (columnStep d target c (k.find? c.name)) := by
  cases hFind : k.find? c.name with
  | none => exact .bind ((Edit.adding_fails c).mono fun _ => .inl) fun edit _ => .ok _
  | some previous =>
      rw [columnStep]
      split
      · exact .bind (Edit.altering_fails hc hFind) fun edits _ => .ok _
      · exact .ok _

/-- The plan of the columns fails as that of one of them does. -/
theorem columnSteps_fails {k : Table} {columns : List Column}
    (hColumns : ∀ c ∈ columns, c ∈ target.columns) :
    FailsAs (Planned d (some k) target) (columnSteps d k target columns) := by
  induction columns with
  | nil => exact .ok _
  | cons c columns ih =>
      rw [List.forall_mem_cons] at hColumns
      refine .bind (columnStep_fails hColumns.1) fun step _ => ?_
      exact .bind (ih hColumns.2) fun steps _ => .ok _

/-- The plan of the key is refused at the table. -/
theorem keySteps_fails (k : Table) : FailsAs (Sited .ddl target.name) (keySteps d k target) := by
  unfold keySteps
  split
  · exact .ok _
  · split
    · exact .bind Edit.addingKey_fails fun edit _ => .ok _
    · exact .error (.metadata none (.keyReplaced k.keyNames target.keyNames))

/-- A migration is refused at its table, or bare by a changed default without a literal. -/
theorem steps_fails : FailsAs (Planned d known target) (steps d known target) := by
  refine .bind (target.validate_fails.mono fun _ => .inl) fun _ _ => ?_
  cases known with
  | none => exact fresh_fails.mono fun _ => .inl
  | some k =>
      refine .bind (columnSteps_fails fun _ hc => hc) fun columns _ => ?_
      refine .bind ((keySteps_fails k).mono fun _ => .inl) fun key _ => ?_
      exact .bind ((Step.indexing_fails _).mono fun _ => .inl) fun indexes _ => .ok _

end Plan

theorem Session.compile_fails (s : Session) (db : Database) :
    FailsAs (Planned db.dialect (s.known? db) s.target) (s.compile db) :=
  .bind Plan.steps_fails fun _ _ => .ok _

/-! ### Places -/

/-- What is compiled: a statement, or a migration of a database. -/
inductive Subject where
  | statement (x : Statement)
  | migration (s : Session) (db : Database)

namespace Subject

def table : Subject → Table
  | statement x => x.table
  | migration s _ => s.target

def operation : Subject → Operation
  | statement x => x.operation
  | migration .. => .ddl

def compile : Subject → Result (List Request)
  | statement x => x.compile
  | migration s db => s.compile db

/-- A failure that is not told under the operation: of a statement, that the dialect has no type for a
column of the table; of a migration, that an altered default has no literal. -/
def Misplaced : Subject → Failure → Prop
  | statement x => Failure.Untyped x.dialect x.table
  | migration s db => Unwritten db.dialect (s.known? db) s.target

/-- What does not compile is reported as a contradiction to the declarations or as a refusal, under
its operation and its table, unless it is one of the two failures that are misplaced. -/
theorem sited_iff_of_compile {x : Subject} {f : Failure} (h : x.compile = .error f) :
    Sited x.operation x.table.name f ↔ ¬ x.Misplaced f := by
  constructor
  · intro hSited hMisplaced
    cases x with
    | statement x =>
        have hOperation : x.operation = .ddl := hSited.operation_unique hMisplaced.sited
        cases x <;> cases hOperation
    | migration s db =>
        obtain ⟨-, -, -, -, -, -, -, fault, -, -, -, -, rfl⟩ := hMisplaced
        cases hSited
  · intro hPlaced
    cases x with
    | statement x => exact (x.compile_fails f h).resolve_right hPlaced
    | migration s db => exact (s.compile_fails db f h).resolve_right hPlaced

/-- A comparison with a column that the table lacks, inside a group of a counted query. -/
theorem sited_iff_of_compile_unknown :
    let t : Table := { name := "t", columns := [.ofTy "a" .text] }
    let filter := Condition.all [.compare "A" .isNull [], .compare "b" .isNull []]
    let x := statement (.count { table := t, dialect := .mysql, filter := some filter })
    ∃ f, x.compile = .error f ∧ Sited .count "t" f := by
  intro t filter x
  have hFails : x.compile = .error (.metadata ⟨.count, "t", some "b"⟩ .columnNotFound) := rfl
  refine ⟨_, hFails, (sited_iff_of_compile hFails).mpr ?_⟩
  rintro ⟨c, -, fault, -, -, hOther⟩
  cases hOther

/-- An infinite default of a known column, whose fault has no place, and a list that is deleted by,
which is told as a fault of the declaration. -/
theorem compile_misplaced :
    let infinite := Binary.infinity .double false
    let known : Table := { name := "t", columns := [.ofTy "a" (.float .double)] }
    let target : Table := { name := "t", columns := [
      { Column.ofTy "a" (.float .double) with default := some (.float .double (some infinite)) }] }
    let lists : Table := { name := "t", columns := [.ofTy "a" (.vec (.integer .int32))] }
    let filter := Condition.compare "a" .isNull []
    let altered := migration { target } (Database.put (.new .generic) known)
    let deleted := statement (.delete { table := lists, dialect := .sqlite, filter := some filter })
    (∃ f, altered.compile = .error f ∧ ¬ Sited .ddl "t" f) ∧
      ∃ f, deleted.compile = .error f ∧ ¬ Sited .delete "t" f := by
  let bare := Fault.nonFiniteLiteral ((Binary.infinity .double false).text .message) "generic"
  refine ⟨⟨.fault bare, rfl, ?_⟩, .metadata ⟨.ddl, "t", some "a"⟩ (.faults [_]), rfl, ?_⟩
  · rintro ⟨⟩
  · rintro ⟨⟩

end Subject

end SqlMapper
