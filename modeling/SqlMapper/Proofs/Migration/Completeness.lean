import SqlMapper.Proofs.Migration.Idempotence
import SqlMapper.Proofs.Schema.Shape

/-! Migrations that have nothing to do. If no step of a plan has a statement then the target is in
force already: what it asks of its columns, its key and its indexes is what the known table says.
Indexes are known by their names alone, and a comment that is taken away is none.

Where comments stand inside the definitions of columns the plan of a new comment has no statement,
although the commit registers the comment. -/
namespace SqlMapper

open Column (foldedNames named?)

/-- A column of a target is as the known one is: the type in the database, whether it may be null,
the default, and a comment that is there where comments are statements. -/
structure Column.AsKnown (d : Dialect) (c k : Column) : Prop where
  type : c.SharesType d k
  nullable : c.nullable = k.nullable
  default : c.sameDefault k = true
  comment : d.comments = .statement → c.comment.isEmpty = false → c.comment = k.comment

/-- A target is in force in a known table, which finds each of its columns, the column of the name
before any other, and finds it as the target has it. The key is the known one, and the indexes are
known under their names. -/
structure Table.InForce (d : Dialect) (known target : Table) : Prop where
  columns : ∀ c ∈ target.columns, ∃ k, known.find? c.name = some k ∧ c.AsKnown d k
  key : (foldedNames target.key).Perm (foldedNames known.key)
  indexes : ∀ i ∈ target.indexes, ∃ j ∈ known.indexes, j.name = i.name

variable {d : Dialect} {known target : Table} {c k : Column} {steps : List Step}

namespace Edit

/-- A change of a column that has no text changes neither type nor default. -/
theorem same_of_changes_nil (h : Edit.changes d target k c = .ok []) :
    c.SharesType d k ∧ c.nullable = k.nullable ∧ c.sameDefault k = true := by
  obtain ⟨type, knownType, default, hType, hKnown, hDefault, hNone⟩ := changes_eq_ok h
  obtain ⟨hFirst, hNone⟩ := List.append_eq_nil_iff.mp hNone.symm
  obtain ⟨hTyped, hNulled⟩ := List.append_eq_nil_iff.mp hFirst
  refine ⟨Column.sharesType_of_eq fun table => ?_, ?_, ?_⟩
  · have hSame : type = knownType := by simpa using hTyped
    rw [Dialect.toOption_columnType_eq d table target.name c,
      Dialect.toOption_columnType_eq d table target.name k, hType, hKnown, hSame]
  · simpa using hNulled
  · rcases defaultChange_eq_ok hDefault with ⟨hSame, -⟩ | ⟨-, -, rfl⟩ | ⟨-, _, _, -, -, rfl⟩
    · exact hSame
    · simp at hNone
    · simp at hNone

end Edit

namespace Plan

/-- The plan of a column has no statement: the column is known, and as it is known. -/
theorem asKnown_of_ownSteps {previous : Option Column} (h : ownSteps d target c previous = .ok steps)
    (hIdle : ∀ step ∈ steps, step.edits = []) : ∃ k, previous = some k ∧ c.AsKnown d k := by
  obtain ⟨shape, hShape, rfl⟩ := Result.map_eq_ok_iff.mp h
  have hComment (k : Column) (hSome : previous = some k) (hStatement : d.comments = .statement)
      (hThere : c.comment.isEmpty = false) : c.comment = k.comment := by
    by_contra hOther
    have hMem : Step.commentOn d c ∈ commentSteps d c previous := by
      simp [commentSteps, hSome, hThere, hOther]
    have hNone := hIdle _ (List.mem_append_right _ hMem)
    simp [Step.commentOn, Edit.commenting, hStatement] at hNone
  rcases columnStep_eq_ok hShape with ⟨clause, -, -, rfl⟩ | ⟨k, edits, hSome, -, hEdits, rfl⟩ |
    ⟨k, hSome, hDiffers, hDefault, rfl⟩
  · simp at hIdle
  · have hNone : edits = [] := hIdle ⟨.column c, edits⟩ (List.mem_append_left _ (List.mem_singleton_self _))
    rcases Edit.altering_eq_ok hEdits with ⟨-, changes, hChanges, rfl⟩ | ⟨-, clause, -, rfl⟩
    · have hEmpty : changes = [] := by simpa using hNone
      obtain ⟨hType, hNullable, hDefault⟩ := Edit.same_of_changes_nil (hEmpty ▸ hChanges)
      exact ⟨k, hSome, hType, hNullable, hDefault, hComment k hSome⟩
    · simp at hNone
  · have hNullable : c.nullable = k.nullable := by
      simpa [Column.differs] using (Bool.or_eq_false_iff.mp hDiffers).2
    exact ⟨k, hSome, Column.sharesType_of_not_differs hDiffers, hNullable, hDefault,
      hComment k hSome⟩

/-- Where comments have no statements, a column that is known as it is has none, whatever is said of
it: a new comment is planned, and nothing is sent for it. -/
theorem edits_eq_nil_of_same (hComments : d.comments ≠ .statement) (hSame : c.differs k = false)
    (hDefault : c.sameDefault k = true) (h : ownSteps d target c (some k) = .ok steps) :
    steps = commentSteps d c (some k) ∧ ∀ step ∈ steps, step.edits = [] := by
  obtain ⟨shape, hShape, rfl⟩ := Result.map_eq_ok_iff.mp h
  rcases columnStep_eq_ok hShape with ⟨_, hNone, -⟩ | ⟨k', _, hSome, hDiffers, -⟩ | ⟨_, -, -, -, rfl⟩
  · cases hNone
  · obtain rfl := Option.some.inj hSome
    simp [hSame, hDefault] at hDiffers
  · refine ⟨List.nil_append _, fun step hStep => ?_⟩
    rw [List.nil_append, commentSteps] at hStep
    split at hStep
    next => cases hStep
    next =>
      obtain rfl := List.mem_singleton.mp hStep
      exact if_neg hComments

/-- A key that has nothing to be done for it is the known one. -/
theorem sameNames_of_keySteps (h : keySteps d known target = .ok steps)
    (hIdle : ∀ step ∈ steps, step.edits = []) :
    Table.sameNames target.keyNames known.keyNames = true := by
  rcases keySteps_eq_ok h with ⟨hSame, -⟩ | ⟨-, -, -, rfl⟩
  · exact hSame
  · simp at hIdle

/-- Where there is nothing to send for indexes, there are none. -/
theorem eq_nil_of_indexing {is : List Index} (h : Step.indexing d target is = .ok steps)
    (hIdle : ∀ step ∈ steps, step.edits = []) : is = [] := by
  cases is with
  | nil => rfl
  | cons i is =>
      obtain ⟨edit, rest, -, -, rfl⟩ := indexing_cons_eq_ok.mp h
      simp at hIdle

/-- A plan without statements is one for a known table in which the target is in force. -/
theorem inForce_of_steps {known : Option Table} (h : Plan.steps d known target = .ok steps)
    (hIdle : ∀ step ∈ steps, step.edits = []) : ∃ t, known = some t ∧ Table.InForce d t target := by
  cases known with
  | none =>
      obtain ⟨-, edit, indexes, -, -, rfl⟩ := steps_none_eq_ok.mp h
      simp at hIdle
  | some t =>
      obtain ⟨hValid, columns, key, indexes, hColumns, hKey, hIndexes, rfl⟩ := steps_some_eq_ok.mp h
      simp only [List.mem_append, or_imp, forall_and] at hIdle
      obtain ⟨⟨hColumnsIdle, hKeyIdle⟩, hIndexesIdle⟩ := hIdle
      refine ⟨t, rfl, ?_, ?_, ?_⟩
      · intro c hMem
        obtain ⟨own, hOwn, hSubset⟩ := ownSteps_of_mem hMem hColumns
        exact asKnown_of_ownSteps hOwn fun step hStep => hColumnsIdle step (hSubset hStep)
      · exact Table.perm_key_of_sameNames (sameNames_of_keySteps hKey hKeyIdle)
          (Table.distinct_of_validate hValid)
      · intro i hMem
        have hNone := List.filter_eq_nil_iff.mp (eq_nil_of_indexing hIndexes hIndexesIdle) i hMem
        simpa using hNone

end Plan

namespace Session

/-- A session that compiles to nothing finds its target in force in the known table. -/
theorem inForce_of_compile_nil {s : Session} {db : Database} (h : s.compile db = .ok []) :
    ∃ known, s.known? db = some known ∧ Table.InForce db.dialect known s.target := by
  obtain ⟨steps, hPlan, hIdle⟩ := compile_eq_nil_iff.mp h
  exact Plan.inForce_of_steps hPlan hIdle

/-- The known table says the same in another order and letter case, and more. -/
theorem inForce_of_compile_nil_reordered :
    let known : Table :=
      { name := "T"
        columns := [.ofTy "old" .text, (Column.ofTy "ID" (.integer .int64)).asKey,
          { Column.ofTy "a" .text with comment := "said", default := some (.text (some "x")) }]
        indexes := [{ name := "j" }, { name := "i", columns := [("a", .ascending)] }] }
    let target : Table :=
      { name := "t"
        columns := [{ Column.ofTy "A" .text with comment := "said", default := some (.text (some "x")) },
          (Column.ofTy "id" (.integer .int64)).asKey]
        indexes := [{ name := "i", columns := [("A", .ascending)] }] }
    let s : Session := { target }
    let db := (Database.new .generic).put known
    s.compile db = .ok [] ∧
      ∃ known, s.known? db = some known ∧ Table.InForce db.dialect known s.target := by
  intro known target s db
  have h : s.compile db = .ok [] := by
    dsimp +zetaDelta only
    rfl
  exact ⟨h, inForce_of_compile_nil h⟩

/-- A commit that has nothing to send registers every column of the target as it is there, with its
comment, also where the comment is new and comments have no statements: the database is not told of
it then, and no later commit will tell it. -/
theorem registers_of_compile_nil {s : Session} {db : Database} (h : s.compile db = .ok []) (w : Wire) :
    ∃ s' db' known, s.commit db w = (.ok 0, s', db', w) ∧ s'.known? db' = some known ∧
      ∀ c ∈ s.target.columns, known.find? c.name = some c := by
  obtain ⟨steps, hPlan, hIdle⟩ := compile_eq_nil_iff.mp h
  have hNone : steps.flatMap (s.stepRequests db) = [] :=
    List.flatMap_eq_nil_iff.mpr fun step hStep => by rw [stepRequests, hIdle step hStep, List.map_nil]
  have hDistinct := Table.distinct_of_validate (Plan.validate_of_steps hPlan)
  rcases commit_cases s db w with ⟨e, hError, -⟩ | ⟨steps', u, hPlan', hRan, hCommit⟩ |
    ⟨done, step, rest, ran, r, later, e, u, hPlan', hWithin, -⟩
  · cases hError.symm.trans hPlan
  · obtain rfl := Except.ok.inj (hPlan.symm.trans hPlan')
    rw [hNone] at hRan hCommit
    cases hRan
    exact ⟨_, _, _, hCommit, known?_put_merged s db (s.known? db),
      fun c hMem => Table.find?_merged hDistinct hMem⟩
  · obtain rfl := Except.ok.inj (hPlan.symm.trans hPlan')
    have hStep := List.flatMap_eq_nil_iff.mp hNone step (by simp)
    rw [hWithin] at hStep
    simp at hStep

/-- Nothing is done about an index of a known name that is to be unique, about a comment that is to
go, and about a column whose name is the property of another. Nothing is sent either for a comment
that is new where comments stand inside the definitions of columns, which is a defect: the column is
registered with it. -/
theorem compile_nil_unlike :
    let known : Table :=
      { name := "t"
        columns := [{ Column.ofTy "a" .text with comment := "old" },
          { Column.ofTy "b" .text with mappedTo := "c" }]
        indexes := [{ name := "i", columns := [("a", .ascending)] }] }
    let target : Table :=
      { name := "t"
        columns := [.ofTy "a" .text, .ofTy "c" .text]
        indexes := [{ name := "i", unique := true, columns := [("a", .descending)] }] }
    let commented : Table :=
      { name := "t", columns := [{ Column.ofTy "a" .text with comment := "new" }] }
    (({ target } : Session).compile ((Database.new .generic).put known) = .ok [] ∧
        (∀ j ∈ known.indexes, ∀ i ∈ target.indexes, j.unique ≠ i.unique ∧ j.columns ≠ i.columns) ∧
        (named? known.columns "a").map Column.comment = some "old" ∧
        named? known.columns "c" = none) ∧
      ({ target := commented } : Session).compile ((Database.new .mysql).put known) = .ok [] :=
  ⟨⟨rfl, by decide, rfl, rfl⟩, rfl⟩

end Session

end SqlMapper
