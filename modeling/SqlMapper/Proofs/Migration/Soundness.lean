import SqlMapper.Proofs.Catalog.Slot
import SqlMapper.Proofs.Migration.Creation
import SqlMapper.Proofs.Migration.Legible

/-! Migrations are sound. What the texts of the reference dialect are read as is possible, statement
by statement, wherever the table is as it was known, or missing if it was not known. The statements
bring it to the target and leave alone what the target lacks. -/
namespace SqlMapper

open Column (Apart named?)

namespace Plan

variable {d : Dialect} {known target : Table} {steps : List Step}

/-- A known key column is one of the target's key, so it cannot become nullable. -/
theorem not_nullable_of_knownKey (hValid : target.validate = .ok ())
    (h : keySteps d known target = .ok steps) {c : Column} (hMem : c ∈ target.columns)
    (hKey : c.folded ∈ known.keyNames.map Text.lowerCase) : c.nullable = false := by
  have hDistinct := Table.distinct_of_validate hValid
  rcases keySteps_eq_ok h with ⟨hSame, -⟩ | ⟨-, hNone, -⟩
  · rw [Table.foldedNames_key] at hKey
    have hTarget := (Table.perm_key_of_sameNames hSame hDistinct).symm.subset hKey
    obtain ⟨k, hk, hName⟩ := List.mem_map.mp hTarget
    obtain ⟨hkMem, hkKey⟩ := List.mem_filter.mp hk
    obtain rfl : k = c := List.inj_on_of_nodup_map hDistinct hkMem hMem hName
    exact Table.not_nullable_of_validate hValid hkMem hkKey
  · simp [Table.keyNames, hNone] at hKey

end Plan

namespace Layout

variable {known target : Table} {l : Layout} {steps : List Step} {m : Dialect.Meaning .generic}

/-- The steps of all columns bring them to the target. -/
theorem run_columnSteps (hValid : target.validate = .ok ())
    (hFind : ∀ c ∈ target.columns, known.find? c.name = named? known.columns c.name)
    (hKnown : l.Depicts m known)
    (hColumns : Plan.columnSteps .generic known target target.columns = .ok steps)
    {keySteps : List Step} (hKey : Plan.keySteps .generic known target = .ok keySteps) :
    ∃ l', l.runAll (Plan.statements steps) = some l' ∧ l'.key = l.key ∧ l'.indexes = l.indexes ∧
      (∀ c ∈ target.columns, ∃ f, l'.field? c.name = some f ∧ f.Meets m c) ∧
      ∀ name, named? target.columns name = none → l'.field? name = l.field? name := by
  obtain ⟨owns, rfl, hOwns⟩ := Plan.forall₂_ownSteps hColumns
  refine runAll_flatten (fun c field => c ∈ target.columns ∧
      Option.Rel (Field.Depicts m) field (named? known.columns c.name))
    (Table.distinct_of_validate hValid) ?_ rfl fun c hMem => ⟨hMem, hKnown.fields c.name⟩
  refine hOwns.imp fun c own hOwn m hm hReady => ?_
  obtain ⟨hMem, hPrevious⟩ := hReady
  have hKnownKey : c.folded ∈ known.keyNames.map Text.lowerCase → c.nullable = false :=
    Plan.not_nullable_of_knownKey hValid hKey hMem
  rw [hFind c hMem] at hOwn
  refine run_ownSteps hOwn hPrevious ?_ ?_
  · intro hNullable
    rw [Bool.eq_false_iff, ne_eq, isKey_iff, hm, hKnown.key.mem_iff]
    intro hThere
    simp [hKnownKey hThere] at hNullable
  · intro k hFound hIsKey
    refine hKnownKey ?_
    have hName : k.folded = c.folded := Column.isNamed_iff.mp (Column.isNamed_of_named? hFound)
    rw [Table.foldedNames_key, ← hName]
    exact Column.folded_mem (List.mem_filter.mpr ⟨Column.mem_of_named? hFound, hIsKey⟩)

/-- A known table is brought to the target. -/
theorem runOn_some {before : Layout} (hKnown : before.Depicts m known)
    (hApart : Apart (known.columns ++ target.columns))
    (h : Plan.steps .generic (some known) target = .ok steps) :
    ∃ after, runOn (some before) (Plan.statements steps) = some after ∧ after.Meets m target ∧
      after.Spares target (some before) := by
  obtain ⟨hValid, columns, key, indexes, hColumns, hKey, hIndexes, rfl⟩ :=
    Plan.steps_some_eq_ok.mp h
  have hFind : ∀ c ∈ target.columns, known.find? c.name = named? known.columns c.name :=
    fun c hc => Table.find?_eq_of_apart hApart (List.subset_append_left _ _)
      (List.mem_append_right _ hc)
  obtain ⟨altered, hAltered, hSameKey, hSameIndexes, hMeets, hOthers⟩ :=
    run_columnSteps hValid hFind hKnown hColumns hKey
  obtain ⟨keyed, hKeyed, hTargetKey, hSameIndexes', hSameFields⟩ :=
    run_keySteps hValid (by rw [hSameKey]; exact hKnown.key) hMeets hKey
  have hMeets' : ∀ c ∈ target.columns, ∃ f, keyed.field? c.name = some f ∧ f.Meets m c := by
    intro c hc
    rw [hSameFields]
    exact hMeets c hc
  obtain ⟨after, hIndexed, hSameKey', hSameFields', hPrefix, hAll⟩ :=
    run_indexing (has_of_fields hMeets') hIndexes
  have hField (name : String) : after.field? name = altered.field? name := by
    rw [field?, hSameFields', ← field?, hSameFields]
  rw [hSameIndexes', hSameIndexes] at hPrefix
  refine ⟨after, ?_, ⟨?_, ?_, ?_⟩, ⟨fun name hNone => ?_, hPrefix⟩⟩
  · rw [runOn, Plan.statements_append, Plan.statements_append, List.append_assoc, runAll_append hAltered,
      runAll_append hKeyed, hIndexed]
  · intro c hc
    rw [hField]
    exact hMeets c hc
  · rw [hSameKey']
    exact hTargetKey
  · intro i hi
    cases hThere : known.indexes.any (·.name == i.name) with
    | false => exact hAll i (List.mem_filter.mpr ⟨hi, by rw [hThere]; rfl⟩)
    | true =>
        -- The known table has an index of this name, and the database keeps it.
        obtain ⟨k, hk, hName⟩ := List.any_eq_true.mp hThere
        have hNames : k.name ∈ before.indexes.map Index.name := by
          rw [hKnown.indexes]
          exact List.mem_map_of_mem hk
        obtain ⟨j, hj, hSame⟩ := List.mem_map.mp hNames
        refine hasIndex_of_subset hPrefix.subset (List.any_eq_true.mpr ⟨j, hj, ?_⟩)
        rw [hSame, beq_iff_eq.mp hName]
        exact Text.sameName_self _
  · rw [hField, hOthers name hNone]
    rfl

end Layout

namespace Session

variable {s : Session} {db : Database} {requests : List Request}

/-- The requests of a session of the reference dialect are read as statements on the table that are
possible in order, wherever the table is as the database knows it or missing if it is not known. They
bring it to the target and leave what the target lacks as it was, whatever the database takes literals
for. No column may ask for a property that has the name of another one. A type that a column names
itself is written as it stands, so it can be told from the rest of its definition only if it is
one. -/
theorem compile_sound (hDialect : db.dialect = .generic)
    (hApart : Apart ((s.known? db).elim [] Table.columns ++ s.target.columns))
    (hCompile : s.compile db = .ok requests) :
    ∃ steps, s.plan db = .ok steps ∧
      requests = (Plan.edits steps).map (Edit.request .generic s.target) ∧
      ((∀ c ∈ s.target.columns, c.NamesType) →
        requests.map (fun r => Dialect.generic.readSchema r.sql) =
          (Plan.statements steps).map fun statement => some (s.target.path, statement)) ∧
      ∀ (m : Dialect.Meaning .generic) (before : Option Layout),
        Option.Rel (Layout.Depicts m) before (s.known? db) →
          ∃ after, Layout.runOn before (Plan.statements steps) = some after ∧
            after.Meets m s.target ∧ after.Spares s.target before := by
  obtain ⟨steps, hPlan, hRequests⟩ := Result.bind_eq_ok_iff.mp hCompile
  obtain rfl := Except.ok.inj hRequests
  have hEdits : steps.flatMap (fun step => step.edits.map (Edit.request db.dialect s.target)) =
      (Plan.edits steps).map (Edit.request .generic s.target) := by
    rw [Plan.edits, List.map_flatMap, ← hDialect]
  rw [plan, hDialect] at hPlan
  refine ⟨steps, by rw [plan, hDialect, hPlan], hEdits, fun hNames => ?_, fun m before hBefore => ?_⟩
  · refine Eq.trans (congrArg _ hEdits) ?_
    rw [Plan.statements, List.map_map, List.map_map]
    refine List.map_congr_left fun e hMem => ?_
    have hLegible := Plan.legible_of_steps hNames hPlan e hMem
    exact Dialect.readSchema_request (by simp [Dialect.provided]) s.target hLegible
  · generalize s.known? db = known at hPlan hApart hBefore
    cases hBefore with
    | none => exact Layout.runOn_none hPlan
    | @some before known hKnown => exact Layout.runOn_some hKnown hApart hPlan

/-- A known table gets another type, a key, a column with a comment and an index. -/
theorem compile_sound_extended :
    let known : Table :=
      { name := "T", columns := [.ofTy "id" (.integer .int32), .ofTy "old" .text] }
    let target : Table :=
      { name := "t"
        columns := [(Column.ofTy "ID" (.integer .int64)).asKey,
          { Column.ofTy "a" .text with
            mappedTo := "whole", typeName := "ENUM('x', 'NOT')", comment := "new" }]
        indexes := [{ name := "i", columns := [("a", .ascending)] }] }
    let s : Session := { target }
    let db := (Database.new .generic).put known
    ∃ requests steps after, s.compile db = .ok requests ∧ requests.length = 5 ∧
      s.plan db = .ok steps ∧
      requests = (Plan.edits steps).map (Edit.request .generic target) ∧
      requests.map (fun r => Dialect.generic.readSchema r.sql) =
        (Plan.statements steps).map (fun statement => some (target.path, statement)) ∧
      Layout.runOn (some (.of .generic known)) (Plan.statements steps) = some after ∧
      after.Meets (.strict .generic) target ∧ after.Spares target (some (.of .generic known)) := by
  intro known target s db
  have hKnown : s.known? db = some known := known?_put rfl (by decide)
  have hCompile : ∃ requests, s.compile db = .ok requests ∧ requests.length = 5 := by
    dsimp +zetaDelta only
    exact ⟨_, rfl, rfl⟩
  have hApart : Apart ((s.known? db).elim [] Table.columns ++ s.target.columns) := by
    rw [hKnown]
    simp [Apart, s, known, target, Column.ofTy, Column.new, Column.asKey]
  have hNames : ∀ c ∈ target.columns, c.NamesType := by
    dsimp +zetaDelta only
    decide +kernel
  obtain ⟨requests, hRequests, hCount⟩ := hCompile
  obtain ⟨steps, hPlan, hEdits, hRead, hRuns⟩ := compile_sound rfl hApart hRequests
  obtain ⟨after, hRun, hMeets, hSpares⟩ := hRuns (.strict .generic) (some (.of .generic known))
    (by rw [hKnown]; exact .some (Layout.depicts_of .generic known))
  exact ⟨requests, steps, after, hRequests, hCount, hPlan, hEdits, hRead hNames, hRun, hMeets,
    hSpares⟩

end Session

end SqlMapper
