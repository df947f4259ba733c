import SqlMapper.Proofs.Migration.Commit
import SqlMapper.Proofs.Migration.Merge
import SqlMapper.Proofs.Migration.Plan

/-! Which columns of two tables belong together. Where no property has the name of another column,
columns match by name alone: what is added are the names that the known table lacks, what is altered
are names that it has, and the table that a commit registers has the names of both. -/
namespace SqlMapper

open Column (Apart Distinct foldedNames named?)

namespace Edit

/-- The name of the column that the statement adds. -/
def added? : Edit → Option String
  | addColumn clause => some clause.name
  | _ => none

/-- The name of the column whose shape the statement changes. -/
def altered? : Edit → Option String
  | changeColumn name _ => some name
  | redefineColumn clause => some clause.name
  | _ => none

end Edit

namespace Plan

/-- The names of the columns that a plan adds, in order. -/
def added (steps : List Step) : List String := (edits steps).filterMap Edit.added?

/-- The names of the columns that a plan alters, in order. -/
def altered (steps : List Step) : List String := (edits steps).filterMap Edit.altered?

/-- The columns two plans add are those of the one and then of the other. -/
theorem added_append (xs ys : List Step) : added (xs ++ ys) = added xs ++ added ys := by
  simp [added, edits]

/-- The columns two plans alter are those of the one and then of the other. -/
theorem altered_append (xs ys : List Step) : altered (xs ++ ys) = altered xs ++ altered ys := by
  simp [altered, edits]

/-- The steps neither add nor alter columns. -/
def Neutral (steps : List Step) : Prop := added steps = [] ∧ altered steps = []

variable {d : Dialect} {target known : Table} {c : Column} {steps : List Step}

/-- A comment adds and alters no column. -/
theorem neutral_commentSteps (d : Dialect) (c : Column) (previous : Option Column) :
    Neutral (commentSteps d c previous) := by
  rw [commentSteps]
  split
  next => exact ⟨rfl, rfl⟩
  next =>
    have hEdits : edits [Step.commentOn d c] = Edit.commenting d c := List.flatMap_singleton _ _
    rw [Neutral, added, altered, hEdits, Edit.commenting]
    split <;> exact ⟨rfl, rfl⟩

/-- The primary key adds and alters no column. -/
theorem neutral_keySteps (h : keySteps d known target = .ok steps) : Neutral steps := by
  rcases keySteps_eq_ok h with ⟨-, rfl⟩ | ⟨-, -, -, rfl⟩ <;> exact ⟨rfl, rfl⟩

/-- An index adds and alters no column. -/
theorem neutral_indexing {is : List Index} (h : Step.indexing d target is = .ok steps) :
    Neutral steps := by
  induction is generalizing steps with
  | nil =>
      obtain rfl := Except.ok.inj h
      exact ⟨rfl, rfl⟩
  | cons i is ih =>
      obtain ⟨edit, rest, hEdit, hRest, rfl⟩ := indexing_cons_eq_ok.mp h
      obtain ⟨columns, -, rfl⟩ := edit_indexing_eq_ok hEdit
      have hNeutral : Neutral rest := ih hRest
      exact hNeutral

/-- A column that nothing is known of is added. -/
theorem added_ownSteps_none (h : ownSteps d target c none = .ok steps) :
    added steps = [c.name] ∧ altered steps = [] := by
  obtain ⟨own, hStep, rfl⟩ := Result.map_eq_ok_iff.mp h
  rcases columnStep_eq_ok hStep with ⟨clause, -, hClause, rfl⟩ | ⟨k, _, hSome, -⟩ | ⟨k, hSome, -⟩
  · have hName : clause.name = c.name := (ColumnClause.ofColumn_eq_ok hClause).2.2.1
    obtain ⟨hAdded, hAltered⟩ := neutral_commentSteps d c none
    rw [added_append, altered_append, hAdded, hAltered, ← hName]
    exact ⟨rfl, rfl⟩
  · simp at hSome
  · simp at hSome

/-- A column that is known is at most altered. -/
theorem altered_ownSteps_some {k : Column} (h : ownSteps d target c (some k) = .ok steps) :
    added steps = [] ∧ (altered steps).Sublist [c.name] := by
  obtain ⟨own, hStep, rfl⟩ := Result.map_eq_ok_iff.mp h
  obtain ⟨hAdded, hAltered⟩ := neutral_commentSteps d c (some k)
  rw [added_append, altered_append, hAdded, hAltered, List.append_nil, List.append_nil]
  rcases columnStep_eq_ok hStep with ⟨_, hNone, -⟩ | ⟨_, edits, -, -, hEdits, rfl⟩ | ⟨_, -, -, -, rfl⟩
  · simp at hNone
  · rcases Edit.altering_eq_ok hEdits with ⟨-, changes, -, rfl⟩ | ⟨-, clause, hClause, rfl⟩
    · cases changes.isEmpty with
      | true => exact ⟨rfl, List.nil_sublist _⟩
      | false => exact ⟨rfl, List.Sublist.refl _⟩
    · rw [← (ColumnClause.ofColumn_eq_ok hClause).2.2.1]
      exact ⟨rfl, List.Sublist.refl _⟩
  · exact ⟨rfl, List.nil_sublist _⟩

/-- The columns that the known table lacks are added, and none but those that it has are altered. -/
theorem added_columnSteps {cs : List Column}
    (hFind : ∀ c ∈ cs, known.find? c.name = named? known.columns c.name)
    (h : columnSteps d known target cs = .ok steps) :
    added steps = (Column.lacking known.columns cs).map Column.name ∧
      (altered steps).Sublist ((Column.sharing known.columns cs).map Column.name) := by
  induction cs generalizing steps with
  | nil =>
      obtain rfl := columnSteps_nil_eq_ok.mp h
      exact ⟨rfl, List.Sublist.refl _⟩
  | cons c cs ih =>
      obtain ⟨own, rest, hOwn, hRest, rfl⟩ := columnSteps_cons_eq_ok.mp h
      obtain ⟨hAdded, hAltered⟩ := ih (fun x hx => hFind x (List.mem_cons_of_mem _ hx)) hRest
      rw [hFind c (List.mem_cons_self ..)] at hOwn
      rw [added_append, altered_append, hAdded]
      cases hNamed : named? known.columns c.name with
      | none =>
          rw [hNamed] at hOwn
          obtain ⟨hNew, hNone⟩ := added_ownSteps_none hOwn
          rw [hNew, hNone]
          exact ⟨by simp [Column.lacking, hNamed], by simpa [Column.sharing, hNamed] using hAltered⟩
      | some k =>
          rw [hNamed] at hOwn
          obtain ⟨hNone, hOwnAltered⟩ := altered_ownSteps_some hOwn
          have hBoth := hOwnAltered.append hAltered
          rw [hNone]
          exact ⟨by simp [Column.lacking, hNamed], by simpa [Column.sharing, hNamed] using hBoth⟩

end Plan

namespace Session

variable {s : Session} {db : Database} {known : Table} {steps : List Step}

/-- Columns match by name where no property has the name of another column. The plan adds the columns
of the target that the known table lacks, each once and in order, and alters none but those that the
known table has. What a commit registers has the names of both tables, each once. -/
theorem matches_by_name (hKnown : s.known? db = some known) (hPlan : s.plan db = .ok steps)
    (hApart : Apart (known.columns ++ s.target.columns)) :
    Plan.added steps = (Column.lacking known.columns s.target.columns).map Column.name ∧
      (Plan.altered steps).Sublist
        ((Column.sharing known.columns s.target.columns).map Column.name) ∧
      ∀ {n s' db' w u}, s.commit db w = (.ok n, s', db', u) →
        ∃ t, s.known? db' = some t ∧ Distinct t.columns ∧ ∀ name, name ∈ foldedNames t.columns ↔
          name ∈ foldedNames known.columns ∨ name ∈ foldedNames s.target.columns := by
  rw [plan, hKnown] at hPlan
  obtain ⟨hValid, columns, key, indexes, hColumns, hKey, hIndexes, rfl⟩ :=
    Plan.steps_some_eq_ok.mp hPlan
  have hFind (c : Column) (hMem : c ∈ s.target.columns) :
      known.find? c.name = named? known.columns c.name :=
    Table.find?_eq_of_apart hApart (List.subset_append_left _ _) (List.mem_append_right _ hMem)
  obtain ⟨hAdded, hAltered⟩ := Plan.added_columnSteps hFind hColumns
  obtain ⟨hKeyAdded, hKeyAltered⟩ := Plan.neutral_keySteps hKey
  obtain ⟨hIndexAdded, hIndexAltered⟩ := Plan.neutral_indexing hIndexes
  refine ⟨?_, ?_, ?_⟩
  · simp [Plan.added_append, hAdded, hKeyAdded, hIndexAdded]
  · simpa [Plan.altered_append, hKeyAltered, hIndexAltered] using hAltered
  · intro n s' db' w u hCommit
    obtain ⟨_, -, -, -, -, rfl⟩ := commit_eq_ok hCommit
    rw [hKnown]
    refine ⟨_, known?_put_merged s db (some known), ?_, fun name => ?_⟩
    · obtain ⟨extra, _, hEq, -, hDistinct⟩ := Table.exists_merged s.target (some known)
      rw [hEq]
      exact hDistinct (Table.distinct_of_validate hValid)
    · have hTurned : Apart (s.target.columns ++ known.columns) :=
        hApart.of_subset (by simp)
      have hNames := Table.mem_foldedNames_withUnknown
        (t := { s.target with mappings := [] }) hTurned name
      rw [Table.merged_eq, or_comm]
      exact hNames

/-- Letter case and a property do not stand in the way of matching. -/
theorem matches_by_name_renamed :
    let known : Table :=
      { name := "T", columns := [(Column.ofTy "id" (.integer .int64)).asKey, .ofTy "old" .text] }
    let target : Table :=
      { name := "t"
        columns := [(Column.ofTy "ID" (.integer .int64)).asKey,
          { Column.ofTy "a" .text with mappedTo := "whole" }] }
    let s : Session := { target }
    let db := (Database.new .generic).put known
    ∃ steps, s.known? db = some known ∧ s.plan db = .ok steps ∧
      Apart (known.columns ++ target.columns) ∧
      Plan.added steps = (Column.lacking known.columns target.columns).map Column.name ∧
      (Plan.altered steps).Sublist
        ((Column.sharing known.columns target.columns).map Column.name) ∧
      ∀ {n s' db' w u}, s.commit db w = (.ok n, s', db', u) →
        ∃ t, s.known? db' = some t ∧ Distinct t.columns ∧ ∀ name, name ∈ foldedNames t.columns ↔
          name ∈ foldedNames known.columns ∨ name ∈ foldedNames target.columns := by
  intro known target s db
  have hKnown : s.known? db = some known := known?_put rfl (by decide)
  have hPlan : ∃ steps, s.plan db = .ok steps := by
    dsimp +zetaDelta only
    exact ⟨_, rfl⟩
  have hApart : Apart (known.columns ++ target.columns) := by
    simp [Apart, known, target, Column.ofTy, Column.new, Column.asKey]
  obtain ⟨steps, hSteps⟩ := hPlan
  exact ⟨steps, hKnown, hSteps, hApart, matches_by_name hKnown hSteps hApart⟩

/-- A known column that asks for the property of a name keeps the column of this name from being
added, and a column of the target that does so makes the known column of this name be forgotten. -/
theorem matches_by_property :
    let plain : Table := { name := "t", columns := [.ofTy "b" (.integer .int32)] }
    let asking : Table :=
      { name := "t", columns := [{ Column.ofTy "a" (.integer .int32) with mappedTo := "b" }] }
    (({ target := plain } : Session).plan ((Database.new .generic).put asking) = .ok [] ∧
        named? asking.columns "b" = none) ∧
      ∃ n s' db' u, ({ target := asking } : Session).commit ((Database.new .generic).put plain)
          (.scripted .blocking []) = (.ok n, s', db', u) ∧
        (({ target := asking } : Session).known? db').map (fun t => foldedNames t.columns) =
          some ["a"] :=
  ⟨⟨rfl, rfl⟩, _, _, _, _, rfl, rfl⟩

end Session

end SqlMapper
