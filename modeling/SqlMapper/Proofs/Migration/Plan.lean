import Mathlib.Data.List.Forall2
import SqlMapper.Migration.Plan
import SqlMapper.Proofs.Result

/-! What a plan consists of. The steps of a table that is not known create it, and the others go
through the columns of the target one by one, each with its comment, before the key and the indexes.
Here is said once what each of these can be. -/
namespace SqlMapper

variable {d : Dialect} {target known : Table} {c : Column}

theorem exists_mem_of_forall₂ {R : α → β → Prop} {as : List α} {bs : List β}
    (h : List.Forall₂ R as bs) {a : α} (hMem : a ∈ as) : ∃ b ∈ bs, R a b := by
  induction h with
  | nil => simp at hMem
  | @cons x y as bs hFirst _ ih =>
      rcases List.mem_cons.mp hMem with rfl | hMem
      · exact ⟨y, List.mem_cons_self .., hFirst⟩
      · obtain ⟨b, hb, hRel⟩ := ih hMem
        exact ⟨b, List.mem_cons_of_mem _ hb, hRel⟩

/-! ### Definitions of columns -/

namespace ColumnClause

/-- Nothing was wrong with the default of a column: it has none, or one with a literal. -/
theorem defaultOf_eq_ok {table : String} {default : Option DefaultClause}
    (h : defaultOf d table c = .ok default) :
    default.map DefaultClause.value = c.default ∧
      ∀ v, c.default = some v → ∃ literal, d.literal v = .ok literal := by
  rw [defaultOf] at h
  split at h
  next hNone =>
    obtain rfl := Except.ok.inj h
    exact ⟨hNone.symm, by simp [hNone]⟩
  next v hSome =>
    split at h
    next literal hLiteral =>
      obtain rfl := Except.ok.inj h
      refine ⟨hSome.symm, fun w hw => ⟨literal, ?_⟩⟩
      obtain rfl : v = w := Option.some.inj (hSome.symm.trans hw)
      exact hLiteral
    next => simp at h

/-- The default of a definition is written as its value is. -/
theorem literal_of_defaultOf {table : String} {default : Option DefaultClause}
    (h : defaultOf d table c = .ok default) : ∀ x ∈ default, d.literal x.value = .ok x.literal := by
  rw [defaultOf] at h
  split at h
  next =>
    obtain rfl := Except.ok.inj h
    nofun
  next v _ =>
    split at h
    next literal hLiteral =>
      obtain rfl := Except.ok.inj h
      intro x hx
      obtain rfl := Option.some.inj hx
      exact hLiteral
    next => simp at h

/-- The definition of a column has the type that the column is given, its default and its name. -/
theorem ofColumn_eq_ok {table : String} {alone : Bool} {clause : ColumnClause}
    (h : ofColumn d table c alone = .ok clause) :
    d.columnType table c = .ok clause.type ∧ defaultOf d table c = .ok clause.default ∧
      clause.name = c.name ∧ clause.notNull = (!c.nullable && !alone) ∧ clause.isKey = alone := by
  simp only [ofColumn, Result.bind_eq_ok_iff] at h
  obtain ⟨type, hType, default, hDefault, hClause⟩ := h
  obtain rfl := Except.ok.inj hClause
  exact ⟨hType, hDefault, rfl, rfl, rfl⟩

/-- A definition has no comment where comments have statements of their own. -/
theorem comment_ofColumn {table : String} {alone : Bool} {clause : ColumnClause}
    (h : ofColumn d table c alone = .ok clause) (hStatement : d.comments = .statement) :
    clause.comment = none := by
  simp only [ofColumn, Result.bind_eq_ok_iff] at h
  obtain ⟨type, -, default, -, hClause⟩ := h
  obtain rfl := Except.ok.inj hClause
  simp [hStatement]

/-- The clauses of a creation are written column by column, in order. -/
theorem forall₂_ofColumns {table : String} {alone : Bool} {cs : List Column}
    {clauses : List ColumnClause} (h : ofColumns d table alone cs = .ok clauses) :
    List.Forall₂ (fun c clause => ofColumn d table c (alone && c.isKey) = .ok clause) cs clauses := by
  induction cs generalizing clauses with
  | nil =>
      obtain rfl := Except.ok.inj h
      exact .nil
  | cons c cs ih =>
      simp only [ofColumns, Result.bind_eq_ok_iff] at h
      obtain ⟨clause, hClause, rest, hRest, hClauses⟩ := h
      obtain rfl := Except.ok.inj hClauses
      exact .cons hClause (ih hRest)

end ColumnClause

namespace Edit

/-- A table is created with the definitions of its columns and, if its key has several columns, with
the key behind them. -/
theorem creating_eq_ok {edit : Edit} (h : creating d target = .ok edit) :
    ∃ clauses, edit = createTable clauses (if 1 < target.key.length then target.keyNames else []) ∧
      List.Forall₂ (fun c clause => ColumnClause.ofColumn d target.name c
        (decide (target.key.length = 1) && c.isKey) = .ok clause) target.columns clauses := by
  obtain ⟨clauses, hClauses, hEdit⟩ := Result.bind_eq_ok_iff.mp h
  exact ⟨clauses, (Except.ok.inj hEdit).symm, ColumnClause.forall₂_ofColumns hClauses⟩

/-- The changes of a column are those of its type, of its being nullable and of its default. -/
theorem changes_eq_ok {changes : List ColumnChange} {previous : Column}
    (h : Edit.changes d target previous c = .ok changes) :
    ∃ type knownType default, d.columnType target.name c = .ok type ∧
      d.columnType target.name previous = .ok knownType ∧
      defaultChange d previous c = .ok default ∧
      changes = (if type = knownType then [] else [.type type]) ++
        (if c.nullable = previous.nullable then [] else [.nullable c.nullable]) ++ default := by
  simp only [Edit.changes, Result.bind_eq_ok_iff] at h
  obtain ⟨type, hType, knownType, hKnown, default, hDefault, hChanges⟩ := h
  exact ⟨type, knownType, default, hType, hKnown, hDefault, (Except.ok.inj hChanges).symm⟩

/-- A default is left, dropped, or set to the literal of the new one. -/
theorem defaultChange_eq_ok {previous : Column} {changes : List ColumnChange}
    (h : defaultChange d previous c = .ok changes) :
    c.sameDefault previous = true ∧ changes = [] ∨
      c.sameDefault previous = false ∧ c.default = none ∧ changes = [.dropDefault] ∨
      c.sameDefault previous = false ∧ ∃ v literal, c.default = some v ∧ d.literal v = .ok literal ∧
        changes = [.setDefault ⟨v, literal⟩] := by
  rw [defaultChange] at h
  split at h
  next hSame => exact .inl ⟨hSame, (Except.ok.inj h).symm⟩
  next hDiffers =>
    have hDiffers : c.sameDefault previous = false := by simpa using hDiffers
    split at h
    next hNone => exact .inr (.inl ⟨hDiffers, hNone, (Except.ok.inj h).symm⟩)
    next v hSome =>
      split at h
      next literal hLiteral =>
        exact .inr (.inr ⟨hDiffers, v, literal, hSome, hLiteral, (Except.ok.inj h).symm⟩)
      next => simp at h

/-- A known column is altered by its differences or by its whole definition. -/
theorem altering_eq_ok {previous : Column} {edits : List Edit}
    (h : altering d target previous c = .ok edits) :
    d.altering = .clauses ∧ (∃ changes, Edit.changes d target previous c = .ok changes ∧
        edits = if changes.isEmpty then [] else [changeColumn c.name changes]) ∨
      d.altering = .definition ∧ ∃ clause, ColumnClause.ofColumn d target.name c false = .ok clause ∧
        edits = [redefineColumn clause] := by
  rw [altering] at h
  split at h
  next => simp at h
  next hStyle =>
    obtain ⟨clause, hClause, hEdits⟩ := Result.bind_eq_ok_iff.mp h
    exact .inr ⟨hStyle, clause, hClause, (Except.ok.inj hEdits).symm⟩
  next hStyle =>
    obtain ⟨changes, hChanges, hEdits⟩ := Result.bind_eq_ok_iff.mp h
    exact .inl ⟨hStyle, changes, hChanges, (Except.ok.inj hEdits).symm⟩

end Edit

namespace Plan

def edits (steps : List Step) : List Edit := steps.flatMap Step.edits

@[simp] theorem edits_append (xs ys : List Step) : edits (xs ++ ys) = edits xs ++ edits ys :=
  List.flatMap_append

/-! ### Columns -/

/-- The comment step of a column, if its comment is new. -/
def commentSteps (d : Dialect) (c : Column) (previous : Option Column) : List Step :=
  if c.comment.isEmpty || c.comment == previous.elim "" Column.comment then []
  else [Step.commentOn d c]

/-- The steps of one column of the target. -/
def ownSteps (d : Dialect) (target : Table) (c : Column) (previous : Option Column) :
    Result (List Step) :=
  (columnStep d target c previous).map (· ++ commentSteps d c previous)

/-- A column that nothing is known of is added, one that is known is altered where it differs. -/
theorem columnStep_eq_ok {previous : Option Column} {steps : List Step}
    (h : columnStep d target c previous = .ok steps) :
    (∃ clause, previous = none ∧ ColumnClause.ofColumn d target.name c false = .ok clause ∧
        steps = [⟨.column c, [.addColumn clause]⟩]) ∨
      (∃ k edits, previous = some k ∧ (c.differs k || !c.sameDefault k) = true ∧
        Edit.altering d target k c = .ok edits ∧ steps = [⟨.column c, edits⟩]) ∨
      ∃ k, previous = some k ∧ c.differs k = false ∧ c.sameDefault k = true ∧ steps = [] := by
  cases previous with
  | none =>
      simp only [columnStep, Edit.adding, Result.bind_eq_ok_iff] at h
      obtain ⟨edit, ⟨clause, hClause, hEdit⟩, hSteps⟩ := h
      obtain rfl := Except.ok.inj hEdit
      exact .inl ⟨clause, rfl, hClause, (Except.ok.inj hSteps).symm⟩
  | some k =>
      rw [columnStep] at h
      split at h
      next hDiffers =>
        obtain ⟨edits, hEdits, hSteps⟩ := Result.bind_eq_ok_iff.mp h
        exact .inr (.inl ⟨k, edits, rfl, hDiffers, hEdits, (Except.ok.inj hSteps).symm⟩)
      next hSame =>
        simp only [Bool.or_eq_true, Bool.not_eq_true', not_or, Bool.not_eq_true,
          Bool.not_eq_false] at hSame
        exact .inr (.inr ⟨k, rfl, hSame.1, hSame.2, (Except.ok.inj h).symm⟩)

theorem columnSteps_nil_eq_ok {steps : List Step} :
    columnSteps d known target [] = .ok steps ↔ steps = [] := by
  rw [columnSteps, Except.ok.injEq, eq_comm]

/-- The plan of the columns is that of the first and then of the others. -/
theorem columnSteps_cons_eq_ok {cs : List Column} {steps : List Step} :
    columnSteps d known target (c :: cs) = .ok steps ↔
      ∃ own rest, ownSteps d target c (known.find? c.name) = .ok own ∧
        columnSteps d known target cs = .ok rest ∧ steps = own ++ rest := by
  simp only [columnSteps, ownSteps, Result.bind_eq_ok_iff, Result.map_eq_ok_iff]
  constructor
  · rintro ⟨step, hStep, rest, hRest, hSteps⟩
    exact ⟨_, rest, ⟨step, hStep, rfl⟩, hRest, (Except.ok.inj hSteps).symm⟩
  · rintro ⟨_, rest, ⟨step, hStep, rfl⟩, hRest, rfl⟩
    exact ⟨step, hStep, rest, hRest, rfl⟩

/-- The steps of columns fall apart into those of each one. -/
theorem forall₂_ownSteps {cs : List Column} {steps : List Step}
    (h : columnSteps d known target cs = .ok steps) :
    ∃ owns : List (List Step), steps = owns.flatten ∧
      List.Forall₂ (fun c own => ownSteps d target c (known.find? c.name) = .ok own) cs owns := by
  induction cs generalizing steps with
  | nil =>
      obtain rfl := columnSteps_nil_eq_ok.mp h
      exact ⟨[], rfl, .nil⟩
  | cons c cs ih =>
      obtain ⟨own, rest, hOwn, hRest, rfl⟩ := columnSteps_cons_eq_ok.mp h
      obtain ⟨owns, rfl, hEach⟩ := ih hRest
      exact ⟨own :: owns, rfl, .cons hOwn hEach⟩

/-- Every column has steps of its own among all. -/
theorem ownSteps_of_mem {cs : List Column} {steps : List Step} (hMem : c ∈ cs)
    (h : columnSteps d known target cs = .ok steps) :
    ∃ own, ownSteps d target c (known.find? c.name) = .ok own ∧ own ⊆ steps := by
  obtain ⟨owns, rfl, hEach⟩ := forall₂_ownSteps h
  obtain ⟨own, hOwnMem, hOwn⟩ := exists_mem_of_forall₂ hEach hMem
  exact ⟨own, hOwn, fun step hStep => List.mem_flatten.mpr ⟨own, hOwnMem, hStep⟩⟩

/-- Each step of a column is about this column. -/
theorem change_of_mem_ownSteps {previous : Option Column} {own : List Step} {step : Step}
    (h : ownSteps d target c previous = .ok own) (hMem : step ∈ own) :
    step.change = .column c ∨ step.change = .comment c := by
  obtain ⟨shape, hShape, rfl⟩ := Result.map_eq_ok_iff.mp h
  rcases List.mem_append.mp hMem with hMem | hMem
  · rcases columnStep_eq_ok hShape with ⟨_, -, -, rfl⟩ | ⟨_, _, -, -, -, rfl⟩ | ⟨_, -, -, -, rfl⟩
    · exact .inl (by rw [List.mem_singleton.mp hMem])
    · exact .inl (by rw [List.mem_singleton.mp hMem])
    · simp at hMem
  · rw [commentSteps] at hMem
    split at hMem
    next => simp at hMem
    next => exact .inr (by rw [List.mem_singleton.mp hMem]; rfl)

/-- A step planned for the columns is about one of them or its comment. -/
theorem change_of_mem_columnSteps {cs : List Column} {steps : List Step} {step : Step}
    (h : columnSteps d known target cs = .ok steps) (hMem : step ∈ steps) :
    ∃ c ∈ cs, step.change = .column c ∨ step.change = .comment c := by
  induction cs generalizing steps with
  | nil =>
      obtain rfl := columnSteps_nil_eq_ok.mp h
      simp at hMem
  | cons c cs ih =>
      obtain ⟨own, rest, hOwn, hRest, rfl⟩ := columnSteps_cons_eq_ok.mp h
      rcases List.mem_append.mp hMem with hMem | hMem
      · exact ⟨c, List.mem_cons_self .., change_of_mem_ownSteps hOwn hMem⟩
      · obtain ⟨x, hx, hChange⟩ := ih hRest hMem
        exact ⟨x, List.mem_cons_of_mem _ hx, hChange⟩

/-- The comments of a new table are those of its columns one by one. -/
theorem map_commentOn (d : Dialect) (cs : List Column) :
    (cs.filter (!·.comment.isEmpty)).map (Step.commentOn d) =
      (cs.map (commentSteps d · none)).flatten := by
  induction cs with
  | nil => rfl
  | cons c cs ih =>
      rw [List.map_cons, List.flatten_cons, ← ih, commentSteps, List.filter_cons]
      cases hComment : c.comment.isEmpty with
      | true => rfl
      | false =>
          have hOther : (c.comment == "") = false := by
            rw [beq_eq_false_iff_ne]
            rintro hEq
            simp [hEq] at hComment
          simp [hOther]

/-! ### Key and indexes -/

/-- A key that is there stays, and a key is added where there is none. -/
theorem keySteps_eq_ok {steps : List Step} (h : keySteps d known target = .ok steps) :
    Table.sameNames target.keyNames known.keyNames = true ∧ steps = [] ∨
      Table.sameNames target.keyNames known.keyNames = false ∧ known.key = [] ∧
        d.addsKeys = true ∧ steps = [⟨.key, [.addKey target.keyNames]⟩] := by
  rw [keySteps] at h
  split at h
  next hSame => exact .inl ⟨hSame, (Except.ok.inj h).symm⟩
  next hOther =>
    split at h
    next hNone =>
      obtain ⟨edit, hEdit, hSteps⟩ := Result.bind_eq_ok_iff.mp h
      rw [Edit.addingKey] at hEdit
      split at hEdit
      next hAdds =>
        obtain rfl := Except.ok.inj hEdit
        exact .inr ⟨by simpa using hOther, by simpa using hNone, hAdds, (Except.ok.inj hSteps).symm⟩
      next => simp at hEdit
    next => simp at h

/-- Every index is one statement, in order. -/
theorem indexing_cons_eq_ok {i : Index} {is : List Index} {steps : List Step} :
    Step.indexing d target (i :: is) = .ok steps ↔
      ∃ edit rest, Edit.indexing d target i = .ok edit ∧
        Step.indexing d target is = .ok rest ∧ steps = ⟨.index i, [edit]⟩ :: rest := by
  simp only [Step.indexing, Result.bind_eq_ok_iff]
  constructor
  · rintro ⟨edit, hEdit, rest, hRest, hSteps⟩
    exact ⟨edit, rest, hEdit, hRest, (Except.ok.inj hSteps).symm⟩
  · rintro ⟨edit, rest, hEdit, hRest, rfl⟩
    exact ⟨edit, hEdit, rest, hRest, rfl⟩

/-- Steps of indexes are about these indexes. -/
theorem change_of_mem_indexing {is : List Index} {steps : List Step} {step : Step}
    (h : Step.indexing d target is = .ok steps) (hMem : step ∈ steps) :
    ∃ i ∈ is, step.change = .index i := by
  induction is generalizing steps with
  | nil =>
      obtain rfl := Except.ok.inj h
      simp at hMem
  | cons i is ih =>
      obtain ⟨edit, rest, -, hRest, rfl⟩ := indexing_cons_eq_ok.mp h
      rcases List.mem_cons.mp hMem with rfl | hMem
      · exact ⟨i, List.mem_cons_self .., rfl⟩
      · obtain ⟨j, hj, hChange⟩ := ih hRest hMem
        exact ⟨j, List.mem_cons_of_mem _ hj, hChange⟩

/-- An index is created on columns that the target finds. -/
theorem edit_indexing_eq_ok {i : Index} {edit : Edit} (h : Edit.indexing d target i = .ok edit) :
    ∃ columns, Edit.indexColumns target i.columns = .ok columns ∧
      edit = .createIndex i.name i.unique d.guardsIndexes columns := by
  obtain ⟨columns, hColumns, hEdit⟩ := Result.bind_eq_ok_iff.mp h
  exact ⟨columns, hColumns, (Except.ok.inj hEdit).symm⟩

/-! ### Whole plans -/

/-- An unknown table is created and then indexed. -/
theorem steps_none_eq_ok {steps : List Step} :
    Plan.steps d none target = .ok steps ↔
      target.validate = .ok () ∧ ∃ edit indexes, Edit.creating d target = .ok edit ∧
        Step.indexing d target target.indexes = .ok indexes ∧
        steps = ⟨.create, [edit]⟩ ::
          (target.columns.filter (!·.comment.isEmpty)).map (Step.commentOn d) ++ indexes := by
  simp only [Plan.steps, fresh, Result.bind_eq_ok_iff]
  constructor
  · rintro ⟨_, hValid, edit, hEdit, indexes, hIndexes, hSteps⟩
    exact ⟨hValid, edit, indexes, hEdit, hIndexes, (Except.ok.inj hSteps).symm⟩
  · rintro ⟨hValid, edit, indexes, hEdit, hIndexes, rfl⟩
    exact ⟨(), hValid, edit, hEdit, indexes, hIndexes, rfl⟩

/-- A known table gets its columns, its key and then its indexes. -/
theorem steps_some_eq_ok {steps : List Step} :
    Plan.steps d (some known) target = .ok steps ↔
      target.validate = .ok () ∧ ∃ columns key indexes,
        columnSteps d known target target.columns = .ok columns ∧
        keySteps d known target = .ok key ∧
        Step.indexing d target (newIndexes known target) = .ok indexes ∧
        steps = columns ++ key ++ indexes := by
  simp only [Plan.steps, Result.bind_eq_ok_iff]
  constructor
  · rintro ⟨_, hValid, columns, hColumns, key, hKey, indexes, hIndexes, hSteps⟩
    exact ⟨hValid, columns, key, indexes, hColumns, hKey, hIndexes, (Except.ok.inj hSteps).symm⟩
  · rintro ⟨hValid, columns, key, indexes, hColumns, hKey, hIndexes, rfl⟩
    exact ⟨(), hValid, columns, hColumns, key, hKey, indexes, hIndexes, rfl⟩

/-- Only a valid target is planned. -/
theorem validate_of_steps {known : Option Table} {steps : List Step}
    (h : Plan.steps d known target = .ok steps) : target.validate = .ok () := by
  cases known with
  | none => exact (steps_none_eq_ok.mp h).1
  | some k => exact (steps_some_eq_ok.mp h).1

/-! ### Single statements -/

section Single

variable {steps : List Step} {step : Step}

/-- No step has more than one statement. -/
theorem length_edits_columnStep {c : Column} {previous : Option Column}
    (h : columnStep d target c previous = .ok steps) (hMem : step ∈ steps) :
    step.edits.length ≤ 1 := by
  rcases columnStep_eq_ok h with ⟨clause, -, -, rfl⟩ | ⟨k, edits, -, -, hEdits, rfl⟩ |
    ⟨k, -, -, -, rfl⟩
  · obtain rfl := List.mem_singleton.mp hMem
    exact Nat.le_refl 1
  · obtain rfl := List.mem_singleton.mp hMem
    rcases Edit.altering_eq_ok hEdits with ⟨-, changes, -, rfl⟩ | ⟨-, clause, -, rfl⟩
    · dsimp only
      split
      next => exact Nat.zero_le 1
      next => exact Nat.le_refl 1
    · exact Nat.le_refl 1
  · simp at hMem

/-- A comment takes at most one statement. -/
theorem length_edits_commentOn (d : Dialect) (c : Column) :
    (Step.commentOn d c).edits.length ≤ 1 := by
  rw [Step.commentOn, Edit.commenting]
  split
  next => exact Nat.le_refl 1
  next => exact Nat.zero_le 1

/-- Every step for a column takes at most one statement. -/
theorem length_edits_columnSteps {known : Table} {cs : List Column}
    (h : columnSteps d known target cs = .ok steps) (hMem : step ∈ steps) :
    step.edits.length ≤ 1 := by
  induction cs generalizing steps with
  | nil =>
      obtain rfl := columnSteps_nil_eq_ok.mp h
      simp at hMem
  | cons c cs ih =>
      obtain ⟨own, rest, hOwn, hRest, rfl⟩ := columnSteps_cons_eq_ok.mp h
      obtain ⟨shape, hShape, rfl⟩ := Result.map_eq_ok_iff.mp hOwn
      rcases List.mem_append.mp hMem with hMem | hMem
      · rcases List.mem_append.mp hMem with hMem | hMem
        · exact length_edits_columnStep hShape hMem
        · rw [commentSteps] at hMem
          split at hMem
          next => simp at hMem
          next =>
            obtain rfl := List.mem_singleton.mp hMem
            exact length_edits_commentOn d c
      · exact ih hRest hMem

/-- Every index takes at most one statement. -/
theorem length_edits_indexing {is : List Index} (h : Step.indexing d target is = .ok steps)
    (hMem : step ∈ steps) : step.edits.length ≤ 1 := by
  induction is generalizing steps with
  | nil =>
      obtain rfl := Except.ok.inj h
      simp at hMem
  | cons i is ih =>
      obtain ⟨edit, rest, -, hRest, rfl⟩ := indexing_cons_eq_ok.mp h
      rcases List.mem_cons.mp hMem with rfl | hMem
      · exact Nat.le_refl 1
      · exact ih hRest hMem

/-- Every step of a plan takes at most one statement. -/
theorem length_edits_steps {known : Option Table} (h : Plan.steps d known target = .ok steps)
    (hMem : step ∈ steps) : step.edits.length ≤ 1 := by
  cases known with
  | none =>
      obtain ⟨-, edit, indexes, -, hIndexes, rfl⟩ := steps_none_eq_ok.mp h
      rcases List.mem_cons.mp hMem with rfl | hMem
      · exact Nat.le_refl 1
      · rcases List.mem_append.mp hMem with hMem | hMem
        · obtain ⟨c, -, rfl⟩ := List.mem_map.mp hMem
          exact length_edits_commentOn d c
        · exact length_edits_indexing hIndexes hMem
  | some k =>
      obtain ⟨-, columns, key, indexes, hColumns, hKey, hIndexes, rfl⟩ := steps_some_eq_ok.mp h
      rcases List.mem_append.mp hMem with hMem | hMem
      · rcases List.mem_append.mp hMem with hMem | hMem
        · exact length_edits_columnSteps hColumns hMem
        · rcases keySteps_eq_ok hKey with ⟨-, rfl⟩ | ⟨-, -, -, rfl⟩
          · simp at hMem
          · obtain rfl := List.mem_singleton.mp hMem
            exact Nat.le_refl 1
      · exact length_edits_indexing hIndexes hMem

end Single

/-! ### Defaults -/

/-- A planned column has a default that has a literal, or one that a known column has already. -/
def DefaultPlanned (d : Dialect) (c : Column) : Prop :=
  (∀ v, c.default = some v → ∃ literal, d.literal v = .ok literal) ∨
    ∃ k : Column, c.sameDefault k = true

/-- A column is planned only with a default that has a literal. -/
theorem defaultPlanned_of_columnStep {previous : Option Column} {steps : List Step}
    (h : columnStep d target c previous = .ok steps) : DefaultPlanned d c := by
  have hClause {clause : ColumnClause}
      (hClause : ColumnClause.ofColumn d target.name c false = .ok clause) : DefaultPlanned d c :=
    .inl (ColumnClause.defaultOf_eq_ok (ColumnClause.ofColumn_eq_ok hClause).2.1).2
  rcases columnStep_eq_ok h with ⟨clause, -, hNew, -⟩ | ⟨k, edits, -, -, hEdits, -⟩ |
    ⟨k, -, -, hSame, -⟩
  · exact hClause hNew
  · rcases Edit.altering_eq_ok hEdits with ⟨-, changes, hChanges, -⟩ | ⟨-, clause, hNew, -⟩
    · obtain ⟨_, _, default, -, -, hDefault, -⟩ := Edit.changes_eq_ok hChanges
      rcases Edit.defaultChange_eq_ok hDefault with ⟨hSame, -⟩ | ⟨-, hNone, -⟩ |
        ⟨-, v, literal, hSome, hLiteral, -⟩
      · exact .inr ⟨k, hSame⟩
      · exact .inl (by simp [hNone])
      · refine .inl fun w hw => ⟨literal, ?_⟩
        obtain rfl : v = w := Option.some.inj (hSome.symm.trans hw)
        exact hLiteral
    · exact hClause hNew
  · exact .inr ⟨k, hSame⟩

/-- Every column of a planned target has a default with a literal. -/
theorem defaultPlanned_of_steps {known : Option Table} {steps : List Step}
    (h : Plan.steps d known target = .ok steps) (hMem : c ∈ target.columns) :
    DefaultPlanned d c := by
  cases known with
  | none =>
      obtain ⟨-, edit, -, hCreate, -⟩ := steps_none_eq_ok.mp h
      obtain ⟨clauses, -, hClauses⟩ := Edit.creating_eq_ok hCreate
      obtain ⟨clause, -, hClause⟩ := exists_mem_of_forall₂ hClauses hMem
      exact .inl (ColumnClause.defaultOf_eq_ok (ColumnClause.ofColumn_eq_ok hClause).2.1).2
  | some k =>
      obtain ⟨-, columns, -, -, hColumns, -⟩ := steps_some_eq_ok.mp h
      obtain ⟨own, hOwn, -⟩ := ownSteps_of_mem hMem hColumns
      obtain ⟨steps, hStep, -⟩ := Result.map_eq_ok_iff.mp hOwn
      exact defaultPlanned_of_columnStep hStep

end Plan

end SqlMapper
