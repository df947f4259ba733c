import SqlMapper.Proofs.Migration.Readback

/-! The statements of a plan can be read. What a planned definition has for a default is the literal of
its value, and its type is one that the dialect gives or that the column names itself. Every change
of a planned alteration comes from such a column, and a key of several columns has them. -/
namespace SqlMapper

variable {d : Dialect} {target : Table} {c : Column}

/-! ### Columns -/

/-- The definition of a column can be read, if the type that the column names is one. -/
theorem ColumnClause.legible_of_ofColumn {table : String} {alone : Bool} {clause : ColumnClause}
    (hNames : c.NamesType) (h : ofColumn d table c alone = .ok clause) : clause.Legible d := by
  obtain ⟨hType, hDefault, -⟩ := ofColumn_eq_ok h
  exact ⟨Dialect.isType_of_columnType hNames hType, literal_of_defaultOf hDefault⟩

namespace Edit

/-- Each change of a column can be read. -/
theorem legible_of_changes {known : Column} {changes : List ColumnChange} (hNames : c.NamesType)
    (h : Edit.changes d target known c = .ok changes) : ∀ change ∈ changes, change.Legible d := by
  obtain ⟨type, knownType, default, hType, -, hDefault, rfl⟩ := changes_eq_ok h
  intro change hMem
  rcases List.mem_append.mp hMem with hMem | hMem
  · rcases List.mem_append.mp hMem with hMem | hMem
    · split at hMem
      next => simp at hMem
      next =>
        rw [List.mem_singleton.mp hMem]
        exact Dialect.isType_of_columnType hNames hType
    · split at hMem
      next => simp at hMem
      next =>
        rw [List.mem_singleton.mp hMem]
        trivial
  · rcases defaultChange_eq_ok hDefault with ⟨-, rfl⟩ | ⟨-, -, rfl⟩ | ⟨-, v, literal, -, hLiteral, rfl⟩
    · simp at hMem
    · rw [List.mem_singleton.mp hMem]
      trivial
    · rw [List.mem_singleton.mp hMem]
      exact hLiteral

/-- A known column is altered by statements that can be read. -/
theorem legible_of_altering {known : Column} {edits : List Edit} (hNames : c.NamesType)
    (h : altering d target known c = .ok edits) : ∀ e ∈ edits, e.Legible d := by
  intro e hMem
  rcases altering_eq_ok h with ⟨-, changes, hChanges, rfl⟩ | ⟨-, clause, hClause, rfl⟩
  · split at hMem
    next => simp at hMem
    next hSome =>
      rw [List.mem_singleton.mp hMem]
      exact ⟨by simpa using hSome, legible_of_changes hNames hChanges⟩
  · rw [List.mem_singleton.mp hMem]
    exact ColumnClause.legible_of_ofColumn hNames hClause

/-- The statement that creates a table can be read. -/
theorem legible_of_creating {e : Edit} (hNames : ∀ c ∈ target.columns, c.NamesType)
    (h : creating d target = .ok e) : e.Legible d := by
  obtain ⟨clauses, rfl, hClauses⟩ := creating_eq_ok h
  refine ⟨fun clause hMem => ?_, ?_⟩
  · obtain ⟨c, hc, hClause⟩ := exists_mem_of_forall₂ hClauses.flip hMem
    exact ColumnClause.legible_of_ofColumn (hNames c hc) hClause
  · rintro rfl
    have hNone : target.columns = [] := List.forall₂_nil_right_iff.mp hClauses
    have hNoKey : target.key = [] := by rw [Table.key, hNone, List.filter_nil]
    rw [hNoKey, if_neg (by simp)]

end Edit

/-! ### Plans -/

/-- All statements of a step can be read. -/
def Step.Legible (d : Dialect) (step : Step) : Prop := ∀ e ∈ step.edits, e.Legible d

/-- A step of one legible edit is legible. -/
theorem Step.legible_single {change : TableChange} {e : Edit} (h : e.Legible d) :
    Step.Legible d ⟨change, [e]⟩ := by
  intro e' hMem
  rwa [List.mem_singleton.mp hMem]

theorem Step.legible_commentOn (d : Dialect) (c : Column) : (Step.commentOn d c).Legible d := by
  rw [Step.commentOn, Edit.commenting]
  split
  next => exact legible_single trivial
  next => exact List.forall_mem_nil _

namespace Plan

variable {known : Table} {steps : List Step}

/-- What is planned for the type and default of a column is legible. -/
theorem legible_of_columnStep {previous : Option Column} (hNames : c.NamesType)
    (h : columnStep d target c previous = .ok steps) : ∀ step ∈ steps, step.Legible d := by
  rcases columnStep_eq_ok h with ⟨clause, -, hClause, rfl⟩ | ⟨k, edits, -, -, hEdits, rfl⟩ |
    ⟨_, -, -, -, rfl⟩
  · rw [List.forall_mem_singleton]
    exact Step.legible_single (e := .addColumn clause)
      (ColumnClause.legible_of_ofColumn hNames hClause)
  · rw [List.forall_mem_singleton]
    exact Edit.legible_of_altering hNames hEdits
  · exact List.forall_mem_nil _

/-- What is planned for a column, its comment included, is legible. -/
theorem legible_of_ownSteps {previous : Option Column} (hNames : c.NamesType)
    (h : ownSteps d target c previous = .ok steps) : ∀ step ∈ steps, step.Legible d := by
  obtain ⟨shape, hShape, rfl⟩ := Result.map_eq_ok_iff.mp h
  rw [List.forall_mem_append]
  refine ⟨legible_of_columnStep hNames hShape, ?_⟩
  rw [commentSteps]
  split
  next => exact List.forall_mem_nil _
  next =>
    rw [List.forall_mem_singleton]
    exact Step.legible_commentOn d c

/-- What is planned for the primary key is legible. -/
theorem legible_of_keySteps (h : keySteps d known target = .ok steps) :
    ∀ step ∈ steps, step.Legible d := by
  rcases keySteps_eq_ok h with ⟨-, rfl⟩ | ⟨-, -, -, rfl⟩
  · exact List.forall_mem_nil _
  · rw [List.forall_mem_singleton]
    exact Step.legible_single (e := .addKey target.keyNames) trivial

/-- The statements that create indexes are legible. -/
theorem legible_of_indexing {is : List Index} (h : Step.indexing d target is = .ok steps) :
    ∀ step ∈ steps, step.Legible d := by
  induction is generalizing steps with
  | nil =>
      obtain rfl := Except.ok.inj h
      exact List.forall_mem_nil _
  | cons i is ih =>
      obtain ⟨edit, rest, hEdit, hRest, rfl⟩ := indexing_cons_eq_ok.mp h
      obtain ⟨columns, -, rfl⟩ := edit_indexing_eq_ok hEdit
      rw [List.forall_mem_cons]
      exact ⟨Step.legible_single (e := .createIndex ..) trivial, ih hRest⟩

/-- Every statement of a plan can be read, if the types that columns name themselves are types. -/
theorem legible_of_steps {known : Option Table} (hNames : ∀ c ∈ target.columns, c.NamesType)
    (h : Plan.steps d known target = .ok steps) : ∀ e ∈ edits steps, e.Legible d := by
  suffices hSteps : ∀ step ∈ steps, step.Legible d by
    intro e hMem
    obtain ⟨step, hStep, hEdit⟩ := List.mem_flatMap.mp hMem
    exact hSteps step hStep e hEdit
  cases known with
  | none =>
      obtain ⟨-, edit, indexes, hCreate, hIndexes, rfl⟩ := steps_none_eq_ok.mp h
      rw [List.cons_append, List.forall_mem_cons, List.forall_mem_append]
      refine ⟨Step.legible_single (Edit.legible_of_creating hNames hCreate), ?_,
        legible_of_indexing hIndexes⟩
      intro step hMem
      obtain ⟨c, -, rfl⟩ := List.mem_map.mp hMem
      exact Step.legible_commentOn d c
  | some known =>
      obtain ⟨-, columns, key, indexes, hColumns, hKey, hIndexes, rfl⟩ := steps_some_eq_ok.mp h
      rw [List.forall_mem_append, List.forall_mem_append]
      refine ⟨⟨?_, legible_of_keySteps hKey⟩, legible_of_indexing hIndexes⟩
      obtain ⟨owns, rfl, hOwns⟩ := forall₂_ownSteps hColumns
      intro step hMem
      obtain ⟨own, hOwn, hStep⟩ := List.mem_flatten.mp hMem
      obtain ⟨c, hc, hSteps⟩ := exists_mem_of_forall₂ hOwns.flip hOwn
      exact legible_of_ownSteps (hNames c hc) hSteps step hStep

end Plan

end SqlMapper
