import SqlMapper.Proofs.Migration.Effect
import SqlMapper.Proofs.Migration.Plan
import SqlMapper.Proofs.Schema.Shape

/-! The steps of one column. Run where the column is as it was known, or missing as it was, they are
possible, bring it to the target and leave all others alone. -/
namespace SqlMapper

/-! ### Columns of a database -/

namespace Field

variable {d : Dialect}

/-- The column is as it is known. -/
structure Depicts (m : d.Meaning) (f : Field) (k : Column) : Prop where
  type : ∀ table type, d.columnType table k = .ok type → Text.sameName f.type type = true
  notNull : f.notNull = (!k.nullable || k.isKey)
  default : Option.Rel m.Stands k.default f.default
  comment : f.comment = k.comment

/-- The column has the shape of one of the target, and its default stands for an equal one. -/
structure HasShape (m : d.Meaning) (f : Field) (c : Column) : Prop where
  type : ∀ table type, d.columnType table c = .ok type → Text.sameName f.type type = true
  notNull : f.notNull = !c.nullable
  default : Option.Rel m.StandsSame c.default f.default

/-- The column is what the target has, which may leave the comment open. -/
structure Meets (m : d.Meaning) (f : Field) (c : Column) : Prop extends HasShape m f c where
  comment : c.comment.isEmpty = false → f.comment = c.comment

end Field

open Layout (SameBut)

namespace Edit

variable {target : Table} {c k : Column} {f : Field}

/-- The change of a default, if it changes, sets one that stands for that of the target. -/
theorem foldl_defaultChange {changes : List ColumnChange}
    (h : defaultChange .generic k c = .ok changes) :
    ∃ default, (c.sameDefault k = false →
        ∀ m : Dialect.Meaning .generic, Option.Rel m.Stands c.default default) ∧
      ∀ f, (changes.map ColumnChange.alteration).foldl Alteration.applyTo f =
        { f with default := if c.sameDefault k then f.default else default } := by
  rcases defaultChange_eq_ok h with ⟨hSame, rfl⟩ | ⟨hDiffers, hNone, rfl⟩ |
    ⟨hDiffers, v, literal, hSome, hLiteral, rfl⟩
  · refine ⟨none, fun hDiffers => ?_, fun f => ?_⟩
    · simp [hSame] at hDiffers
    · rw [if_pos hSame]
      rfl
  · refine ⟨none, fun _ m => ?_, fun f => ?_⟩
    · rw [hNone]
      exact .none
    · rw [hDiffers]
      rfl
  · refine ⟨some (v.asLiteral literal), fun _ m => ?_, fun f => ?_⟩
    · rw [hSome]
      exact .some (m.stands_literal hLiteral)
    · rw [hDiffers]
      rfl

/-- The changes of a column replace the parts of it that differ. -/
theorem foldl_changes {changes : List ColumnChange}
    (h : Edit.changes .generic target k c = .ok changes) :
    ∃ type knownType default, Dialect.columnType .generic target.name c = .ok type ∧
      Dialect.columnType .generic target.name k = .ok knownType ∧
      (c.sameDefault k = false →
        ∀ m : Dialect.Meaning .generic, Option.Rel m.Stands c.default default) ∧
      ∀ f, (changes.map ColumnChange.alteration).foldl Alteration.applyTo f =
        { f with
          type := if type = knownType then f.type else type
          notNull := if c.nullable = k.nullable then f.notNull else !c.nullable
          default := if c.sameDefault k then f.default else default } := by
  obtain ⟨type, knownType, new, hType, hKnown, hDefault, rfl⟩ := changes_eq_ok h
  have hTyped (f : Field) :
      ((if type = knownType then [] else [ColumnChange.type type]).map
        ColumnChange.alteration).foldl Alteration.applyTo f =
          { f with type := if type = knownType then f.type else type } := by
    split <;> rfl
  have hNulled (f : Field) :
      ((if c.nullable = k.nullable then [] else [ColumnChange.nullable c.nullable]).map
        ColumnChange.alteration).foldl Alteration.applyTo f =
          { f with notNull := if c.nullable = k.nullable then f.notNull else !c.nullable } := by
    split <;> rfl
  obtain ⟨default, hStands, hDefaulted⟩ := foldl_defaultChange hDefault
  refine ⟨type, knownType, default, hType, hKnown, hStands, fun f => ?_⟩
  rw [List.map_append, List.map_append, List.foldl_append, List.foldl_append, hTyped, hNulled,
    hDefaulted]

/-- Only a column that may be null has its being not null dropped. -/
theorem nullable_of_dropsNotNull {changes : List ColumnChange}
    (h : Edit.changes .generic target k c = .ok changes)
    (hDrops : (changes.map ColumnChange.alteration).any (·.dropsNotNull) = true) :
    c.nullable = true := by
  obtain ⟨type, knownType, default, -, -, hDefault, rfl⟩ := changes_eq_ok h
  have hOther : (default.map ColumnChange.alteration).any (·.dropsNotNull) = false := by
    rcases defaultChange_eq_ok hDefault with ⟨-, rfl⟩ | ⟨-, -, rfl⟩ | ⟨-, _, _, -, -, rfl⟩ <;> rfl
  rw [List.map_append, List.map_append, List.any_append, List.any_append, hOther, Bool.or_false,
    Bool.or_eq_true] at hDrops
  rcases hDrops with hDrops | hDrops
  · split at hDrops <;> simp [ColumnChange.alteration, Alteration.dropsNotNull] at hDrops
  · split at hDrops
    next => simp at hDrops
    next => simpa [ColumnChange.alteration, Alteration.dropsNotNull] using hDrops

end Edit

/-- What stands for a known default stands for one that is equal to it. -/
theorem Column.standsSame_of_sameDefault {d : Dialect} {m : d.Meaning} {c k : Column}
    {default : Option Literal} (hKnown : Option.Rel m.Stands k.default default)
    (hSame : c.sameDefault k = true) : Option.Rel m.StandsSame c.default default := by
  rw [Column.sameDefault_eq] at hSame
  generalize k.default = known at hKnown hSame
  cases hKnown with
  | none =>
      cases hDefault : c.default with
      | none => exact .none
      | some v => simp [hDefault, sameOption] at hSame
  | @some w literal hStands =>
      cases hDefault : c.default with
      | none => simp [hDefault, sameOption] at hSame
      | some v =>
          rw [hDefault] at hSame
          exact .some ⟨w, .inr hSame, hStands⟩

namespace Field

variable {d : Dialect} {m : d.Meaning} {c k : Column} {f : Field}

/-- A column that differs in nothing from the known one has its shape already. -/
theorem Depicts.hasShape (h : f.Depicts m k)
    (hDiffers : c.differs k = false) (hDefault : c.sameDefault k = true)
    (hKey : k.isKey = true → c.nullable = false) : f.HasShape m c where
  type table type hType := by
    obtain ⟨knownType, hKnown, hSame⟩ := (Column.sharesType_of_not_differs hDiffers).columnType_eq_ok hType
    exact Text.sameName_trans (h.type table knownType hKnown) hSame
  notNull := by
    have hNullable : c.nullable = k.nullable := by
      simpa [Column.differs] using (Bool.or_eq_false_iff.mp hDiffers).2
    rw [h.notNull, ← hNullable]
    cases hIsKey : k.isKey with
    | true => rw [hKey hIsKey]; rfl
    | false => rw [Bool.or_false]
  default := Column.standsSame_of_sameDefault h.default hDefault

/-- The definition of a column gives it its shape, if it says of being null what the column does. -/
theorem hasShape_of_clause {table : String} {alone keyed : Bool} {clause : ColumnClause}
    (h : ColumnClause.ofColumn d table c alone = .ok clause)
    (hNotNull : (clause.notNull || keyed) = !c.nullable) :
    (clause.definition.field keyed).HasShape m c := by
  obtain ⟨hType, hDefault, -⟩ := ColumnClause.ofColumn_eq_ok h
  refine ⟨fun other type hOther => ?_, hNotNull, ?_⟩
  · rw [Dialect.columnType_congr hOther hType]
    exact Text.sameName_self _
  · exact Dialect.Meaning.standsSame_of_stands (ColumnClause.stands_of_defaultOf m hDefault)

end Field

namespace Layout

variable {target : Table} {c : Column} {previous : Option Column} {l : Layout} {steps : List Step}
  {m : Dialect.Meaning .generic}

/-- A column that is missing is added. -/
theorem run_addColumn {clause : ColumnClause}
    (h : ColumnClause.ofColumn .generic target.name c false = .ok clause)
    (hAbsent : l.field? c.name = none) :
    ∃ l' f, l.run (Edit.addColumn clause).statement = some l' ∧ SameBut c.name l l' ∧
      l'.field? c.name = some f ∧ f.HasShape m c ∧ f.comment = "" := by
  obtain ⟨-, -, hName, hNotNull, hKey⟩ := ColumnClause.ofColumn_eq_ok h
  have hComment := ColumnClause.comment_ofColumn h rfl
  have hNamed : (clause.definition.field false).name = c.name := hName
  have hFieldAbsent : l.field? (clause.definition.field false).name = none := by
    rw [hNamed, hAbsent]
  refine ⟨{ l with fields := l.fields ++ [clause.definition.field false] },
    clause.definition.field false, ?_, ?_, ?_, ?_, ?_⟩
  · have hNew : l.has clause.definition.name = false := by
      change (l.field? clause.name).isSome = false
      rw [hName, hAbsent]
      rfl
    have hNoKey : clause.definition.isKey = false := hKey
    rw [Edit.statement, run_single, act, hNew, hNoKey]
    rfl
  · rw [← hNamed]
    exact sameBut_concat (clause.definition.field false) hFieldAbsent
  · rw [field?_concat _ hFieldAbsent, hNamed, Text.sameName_self, if_pos rfl]
  · exact Field.hasShape_of_clause h (by simp [hNotNull])
  · simp [Definition.field, ColumnClause.definition, hComment]

/-- A column that is known is brought to its shape. -/
theorem run_altering {k : Column} {edits : List Edit} {f : Field}
    (h : Edit.altering .generic target k c = .ok edits) (hField : l.field? c.name = some f)
    (hDepicts : f.Depicts m k) (hKey : c.nullable = true → l.isKey c.name = false)
    (hKnownKey : k.isKey = true → c.nullable = false) :
    ∃ l' f', l.runAll (edits.map Edit.statement) = some l' ∧ SameBut c.name l l' ∧ l'.field? c.name = some f' ∧
      f'.HasShape m c ∧ f'.comment = f.comment := by
  rcases Edit.altering_eq_ok h with ⟨-, changes, hChanges, rfl⟩ | ⟨hStyle, -⟩
  · obtain ⟨type, knownType, default, hType, hKnownType, hStands, hFold⟩ :=
      Edit.foldl_changes hChanges
    have hShape : ((changes.map ColumnChange.alteration).foldl Alteration.applyTo f).HasShape m c := by
      rw [hFold]
      refine ⟨fun table type' hType' => ?_, ?_, ?_⟩
      · obtain rfl := Dialect.columnType_congr hType hType'
        dsimp only
        split
        next hSame =>
          subst hSame
          exact hDepicts.type _ _ hKnownType
        next => exact Text.sameName_self _
      · dsimp only
        split
        next hSame =>
          rw [hDepicts.notNull, ← hSame]
          cases hIsKey : k.isKey with
          | true => rw [hKnownKey hIsKey]; rfl
          | false => rw [Bool.or_false]
        next => rfl
      · dsimp only
        split
        next hSame => exact Column.standsSame_of_sameDefault hDepicts.default hSame
        next hDiffers =>
          exact Dialect.Meaning.standsSame_of_stands (hStands (by simpa using hDiffers) m)
    cases hEmpty : changes.isEmpty with
    | true =>
        rw [List.isEmpty_iff.mp hEmpty] at hShape
        exact ⟨l, f, rfl, .refl _ _, hField, hShape, rfl⟩
    | false =>
        let alterations := changes.map ColumnChange.alteration
        have hName (g : Field) : (alterations.foldl Alteration.applyTo g).name = g.name := by
          rw [hFold]
        refine ⟨l.update c.name fun g => alterations.foldl Alteration.applyTo g, _, ?_,
          sameBut_update hName l c.name, ?_, hShape, by rw [hFold]⟩
        · have hAllowed : (l.isKey c.name && alterations.any (·.dropsNotNull)) = false := by
            cases hDrops : alterations.any (·.dropsNotNull) with
            | true => rw [hKey (Edit.nullable_of_dropsNotNull hChanges hDrops), Bool.false_and]
            | false => rw [Bool.and_false]
          have hActions : changes.map (fun change => TableAction.alter c.name change.alteration) =
              alterations.map (TableAction.alter c.name) := (List.map_map ..).symm
          have hSome : (alterations.map (TableAction.alter c.name)).isEmpty = false := by
            rw [List.isEmpty_map, List.isEmpty_map, hEmpty]
          rw [if_neg (by simp), List.map_cons, List.map_nil, runAll_singleton, Edit.statement,
            hActions, run, hSome, if_neg (by simp)]
          exact foldlM_alter (has_iff.mpr ⟨f, hField⟩) hAllowed
        · rw [field?_update hName, Text.sameName_self, if_pos rfl, hField, Option.map_some]
  · simp [Dialect.generic] at hStyle

/-- The step of a column gives it its shape. -/
theorem run_columnStep (h : Plan.columnStep .generic target c previous = .ok steps)
    (hPrevious : Option.Rel (Field.Depicts m) (l.field? c.name) previous)
    (hKey : c.nullable = true → l.isKey c.name = false)
    (hKnownKey : ∀ k ∈ previous, k.isKey = true → c.nullable = false) :
    ∃ l' f, l.runAll (Plan.statements steps) = some l' ∧ SameBut c.name l l' ∧
      l'.field? c.name = some f ∧ f.HasShape m c ∧
      f.comment = previous.elim "" Column.comment := by
  generalize hField : l.field? c.name = field at hPrevious
  rcases Plan.columnStep_eq_ok h with ⟨clause, rfl, hClause, rfl⟩ | ⟨k, edits, rfl, -, hEdits, rfl⟩ |
    ⟨k, rfl, hDiffers, hDefault, rfl⟩
  · cases hPrevious
    have hRuns := run_addColumn (m := m) hClause hField
    simpa [Plan.statements, Plan.edits, runAll_singleton] using hRuns
  · cases hPrevious with
    | @some f _ hDepicts =>
        obtain ⟨l', f', hRun, hSame, hField', hShape, hComment⟩ :=
          run_altering hEdits hField hDepicts hKey (hKnownKey k rfl)
        exact ⟨l', f', by simpa [Plan.statements, Plan.edits] using hRun, hSame, hField', hShape,
          hComment.trans hDepicts.comment⟩
  · cases hPrevious with
    | @some f _ hDepicts =>
        exact ⟨l, f, rfl, .refl _ _, hField,
          hDepicts.hasShape hDiffers hDefault (hKnownKey k rfl), hDepicts.comment⟩

/-- The comment of a column completes it. -/
theorem run_commentSteps {f : Field} (hField : l.field? c.name = some f)
    (hShape : f.HasShape m c) (hComment : f.comment = previous.elim "" Column.comment) :
    ∃ l' f', l.runAll (Plan.statements (Plan.commentSteps .generic c previous)) = some l' ∧
      SameBut c.name l l' ∧ l'.field? c.name = some f' ∧ f'.Meets m c := by
  rw [Plan.commentSteps]
  split
  next hNone =>
    refine ⟨l, f, rfl, .refl _ _, hField, hShape, fun hThere => ?_⟩
    rw [hThere, Bool.false_or, beq_iff_eq] at hNone
    rw [hComment, hNone]
  next =>
    have hName (g : Field) : ({ g with comment := c.comment } : Field).name = g.name := rfl
    refine ⟨l.update c.name fun g => { g with comment := c.comment }, { f with comment := c.comment },
      ?_, sameBut_update hName l c.name, ?_, ⟨hShape.type, hShape.notNull, hShape.default⟩,
      fun _ => rfl⟩
    · change l.runAll [.comment c.name c.comment] = _
      rw [runAll_singleton, run, has, hField]
      rfl
    · rw [field?_update hName, Text.sameName_self, if_pos rfl, hField, Option.map_some]

/-- The steps of a column bring it to the target. -/
theorem run_ownSteps (h : Plan.ownSteps .generic target c previous = .ok steps)
    (hPrevious : Option.Rel (Field.Depicts m) (l.field? c.name) previous)
    (hKey : c.nullable = true → l.isKey c.name = false)
    (hKnownKey : ∀ k ∈ previous, k.isKey = true → c.nullable = false) :
    ∃ l' f, l.runAll (Plan.statements steps) = some l' ∧ SameBut c.name l l' ∧
      l'.field? c.name = some f ∧ f.Meets m c := by
  obtain ⟨own, hStep, rfl⟩ := Result.map_eq_ok_iff.mp h
  obtain ⟨m, f, hRun, hSame, hField, hShape, hComment⟩ :=
    run_columnStep hStep hPrevious hKey hKnownKey
  obtain ⟨l', f', hCommented, hSame', hField', hMeets⟩ := run_commentSteps hField hShape hComment
  exact ⟨l', f', by rw [Plan.statements_append, runAll_append hRun, hCommented], hSame.trans hSame',
    hField', hMeets⟩

end Layout

end SqlMapper
