import SqlMapper.Proofs.Migration.Change
import SqlMapper.Proofs.Migration.Commit
import SqlMapper.Proofs.Migration.Plan
import SqlMapper.Proofs.Value.Equality

/-! What a step leaves of a plan. From the table that a step makes of the known one, the plan to the
same target is what followed the step. A plan can therefore be left behind any of its steps. -/
namespace SqlMapper

open Column (Apart Distinct foldedNames named?)
open Table (Compatible)

namespace Table

/-- Plans to the target can be left and taken up again: no property has the name of another column,
every default equals itself, and the indexes have distinct names. -/
structure Resumable (target : Table) : Prop where
  apart : Apart target.columns
  self : ∀ c ∈ target.columns, c.sameDefault c = true
  indexes : (target.indexes.map Index.name).Nodup

/-- Only the letter case of names plays no part in their comparison. -/
theorem sameNames_congr {names others others' : List String}
    (h : others.map Text.lowerCase = others'.map Text.lowerCase) :
    sameNames names others = sameNames names others' := by
  have hLength : others.length = others'.length := by simpa using congrArg List.length h
  have hAny (ns : List String) (n : String) : ns.any (Text.sameName · n) =
      (ns.map Text.lowerCase).any (· == Text.lowerCase n) := by
    simp [List.any_map, Text.sameName, Function.comp_def]
  simp only [sameNames, hLength, hAny, h]

end Table

namespace Plan

variable {d : Dialect} {target k k' : Table} {c : Column} {step : Step} {rest steps : List Step}

/-! ### Columns -/

/-- A column that differs in nothing needs at most its comment. -/
theorem ownSteps_of_same {p : Column} (hDiffers : c.differs p = false)
    (hDefault : c.sameDefault p = true) :
    ownSteps d target c (some p) = .ok (commentSteps d c (some p)) := by
  simp [ownSteps, columnStep, hDiffers, hDefault, Except.map]

/-- The first step of a column brings its shape, and its comment follows, or the comment is all. -/
theorem ownSteps_eq_cons {previous : Option Column}
    (h : ownSteps d target c previous = .ok (step :: rest)) :
    step.change = .column c ∧ rest = commentSteps d c previous ∨
      step.change = .comment c ∧ rest = [] ∧
        ∃ p, previous = some p ∧ c.differs p = false ∧ c.sameDefault p = true := by
  obtain ⟨own, hStep, hOwn⟩ := Result.map_eq_ok_iff.mp h
  rcases columnStep_eq_ok hStep with ⟨clause, -, -, rfl⟩ | ⟨p, edits, -, -, -, rfl⟩ |
    ⟨p, hPrevious, hDiffers, hDefault, rfl⟩
  · obtain ⟨rfl, hRest⟩ := List.cons.inj hOwn
    exact .inl ⟨rfl, hRest.symm⟩
  · obtain ⟨rfl, hRest⟩ := List.cons.inj hOwn
    exact .inl ⟨rfl, hRest.symm⟩
  · right
    rw [List.nil_append, commentSteps] at hOwn
    split at hOwn
    next => simp at hOwn
    next =>
      obtain ⟨rfl, hRest⟩ := List.cons.inj hOwn
      exact ⟨rfl, hRest.symm, p, hPrevious, hDiffers, hDefault⟩

/-- A missing column has a step. -/
theorem ownSteps_none_ne_nil : ownSteps d target c none ≠ .ok [] := by
  intro h
  obtain ⟨own, hStep, hOwn⟩ := Result.map_eq_ok_iff.mp h
  rcases columnStep_eq_ok hStep with ⟨clause, -, -, rfl⟩ | ⟨p, _, hPrevious, -⟩ | ⟨p, hPrevious, -⟩
  · simp at hOwn
  · simp at hPrevious
  · simp at hPrevious

/-- Known tables that agree on the columns of the target are planned alike. -/
theorem columnSteps_congr {cs : List Column}
    (h : ∀ c ∈ cs, ownSteps d target c (k'.find? c.name) = ownSteps d target c (k.find? c.name)) :
    columnSteps d k target cs = .ok steps → columnSteps d k' target cs = .ok steps := by
  induction cs generalizing steps with
  | nil => exact fun hSteps => hSteps
  | cons c cs ih =>
      intro hSteps
      obtain ⟨own, rest, hOwn, hRest, rfl⟩ := columnSteps_cons_eq_ok.mp hSteps
      exact columnSteps_cons_eq_ok.mpr ⟨own, rest, by rw [h c (List.mem_cons_self ..), hOwn],
        ih (fun x hx => h x (List.mem_cons_of_mem _ hx)) hRest, rfl⟩

/-! ### Columns after a step -/

/-- A compatible table is asked for columns of the target by name alone. -/
theorem find?_of_compatible (h : Compatible target k) (hMem : c ∈ target.columns) :
    k.find? c.name = named? k.columns c.name :=
  Table.find?_eq_of_apart h.apart (List.subset_append_left _ _) (List.mem_append_right _ hMem)

/-- A step of one column changes nothing in what is found under other names. -/
theorem find?_apply_of_ne (hTarget : Distinct target.columns) (h : Compatible target k) {x : Column}
    (hc : c ∈ target.columns) (hx : x ∈ target.columns) (hOther : c.isNamed x.name = false)
    {change : TableChange} (hChange : change = .column c ∨ change = .comment c) :
    (change.apply target k).find? x.name = k.find? x.name := by
  have hConcerns : change.Concerns target := by rcases hChange with rfl | rfl <;> exact hc
  rw [find?_of_compatible (TableChange.compatible_apply hTarget hConcerns h) hx,
    find?_of_compatible h hx]
  rcases hChange with rfl | rfl
  · rw [TableChange.named?_apply_column, hOther]
    rfl
  · rw [TableChange.named?_apply_comment, hOther]
    rfl

/-- After its first step a column needs the others. -/
theorem ownSteps_apply (hTarget : Distinct target.columns) (h : Compatible target k)
    (hc : c ∈ target.columns) (hSelf : c.sameDefault c = true)
    (hSteps : ownSteps d target c (k.find? c.name) = .ok (step :: rest)) :
    ownSteps d target c ((step.change.apply target k).find? c.name) = .ok rest := by
  rw [find?_of_compatible h hc] at hSteps
  have hChange := (ownSteps_eq_cons hSteps).imp And.left And.left
  have hConcerns : step.change.Concerns target := by rcases hChange with hEq | hEq <;> rwa [hEq]
  rw [find?_of_compatible (TableChange.compatible_apply hTarget hConcerns h) hc]
  rcases ownSteps_eq_cons hSteps with ⟨hEq, rfl⟩ | ⟨hEq, rfl, p, hFound, hDiffers, hDefault⟩
  · rw [hEq, TableChange.named?_apply_column, Column.isNamed_self, if_pos rfl,
      ownSteps_of_same (p := c.keeping _) c.differs_self hSelf]
    rfl
  · rw [hEq, TableChange.named?_apply_comment, Column.isNamed_self, if_pos rfl, hFound,
      Option.map_some, ownSteps_of_same (p := { p with comment := c.comment }) hDiffers
        hDefault, commentSteps]
    simp

/-- After the first step of some columns they need the others. -/
theorem columnSteps_apply (hTarget : Distinct target.columns) (h : Compatible target k)
    (hSelf : ∀ c ∈ target.columns, c.sameDefault c = true) {cs : List Column}
    (hSubset : cs ⊆ target.columns) (hDistinct : Distinct cs)
    (hSteps : columnSteps d k target cs = .ok (step :: rest)) :
    columnSteps d (step.change.apply target k) target cs = .ok rest := by
  induction cs generalizing rest with
  | nil => simp [columnSteps] at hSteps
  | cons c cs ih =>
      obtain ⟨hMem, hRestSubset⟩ := List.cons_subset.mp hSubset
      obtain ⟨hNew, hRestDistinct⟩ := List.nodup_cons.mp hDistinct
      obtain ⟨own, others, hOwn, hOthers, hEq⟩ := columnSteps_cons_eq_ok.mp hSteps
      cases own with
      | nil =>
          rw [List.nil_append] at hEq
          rw [← hEq] at hOthers
          obtain ⟨x, hx, hChange⟩ := change_of_mem_columnSteps hOthers (List.mem_cons_self ..)
          have hSame := find?_apply_of_ne hTarget h (hRestSubset hx) hMem
            (by rw [Column.isNamed_comm]; exact Column.not_isNamed_of_mem hNew hx) hChange
          exact columnSteps_cons_eq_ok.mpr
            ⟨[], rest, by rw [hSame, hOwn], ih hRestSubset hRestDistinct hOthers, rfl⟩
      | cons first own =>
          obtain ⟨rfl, rfl⟩ := List.cons.inj hEq
          have hChange := (ownSteps_eq_cons hOwn).imp And.left And.left
          refine columnSteps_cons_eq_ok.mpr
            ⟨own, others, ownSteps_apply hTarget h hMem (hSelf c hMem) hOwn, ?_, rfl⟩
          refine columnSteps_congr (fun x hx => ?_) hOthers
          have hOther := Column.not_isNamed_of_mem hNew hx
          rw [find?_apply_of_ne hTarget h hMem (hRestSubset hx) hOther hChange]

/-! ### Key -/

/-- Only the names of a known key matter, and not their letter case. -/
theorem keySteps_congr (hKey : foldedNames k'.key = foldedNames k.key)
    (h : keySteps d k target = .ok steps) : keySteps d k' target = .ok steps := by
  have hSame : Table.sameNames target.keyNames k'.keyNames =
      Table.sameNames target.keyNames k.keyNames :=
    Table.sameNames_congr (by rw [Table.foldedNames_key, Table.foldedNames_key, hKey])
  have hEmpty : k'.key.isEmpty = k.key.isEmpty := by
    have hLength := congrArg List.length hKey
    simp only [foldedNames, List.length_map] at hLength
    rw [Bool.eq_iff_iff, List.isEmpty_iff_length_eq_zero, List.isEmpty_iff_length_eq_zero, hLength]
  rw [keySteps] at h ⊢
  rw [hSame, hEmpty]
  split at h
  next hThere => rw [if_pos hThere, h]
  next hOther =>
    rw [if_neg hOther]
    split at h
    next hNone => rw [if_pos hNone, h]
    next => simp at h

/-- A step of one column leaves the names of the key. -/
theorem foldedNames_key_apply {change : TableChange}
    (hChange : change = .column c ∨ change = .comment c) :
    foldedNames (change.apply target k).key = foldedNames k.key := by
  rcases hChange with rfl | rfl
  · exact Column.foldedNames_key_putInto rfl
  · exact Column.foldedNames_key_setComment c k.columns

/-- What is there of the target gets the key of the target. -/
theorem keySteps_apply_key (hTarget : Distinct target.columns) (h : Compatible target k)
    (hThere : ∀ c ∈ target.columns, named? k.columns c.name ≠ none) :
    keySteps d (TableChange.key.apply target k) target = .ok [] := by
  have hDistinct := TableChange.distinct_apply hTarget h.distinct .key
  have hPerm : (foldedNames target.key).Perm (foldedNames (TableChange.key.apply target k).key) := by
    refine (List.perm_ext_iff_of_nodup (Table.distinct_key hTarget)
      (Table.distinct_key hDistinct)).mpr fun name => ?_
    constructor
    · intro hName
      obtain ⟨t, ht, rfl⟩ := List.mem_map.mp hName
      obtain ⟨hMem, hIsKey⟩ := List.mem_filter.mp ht
      obtain ⟨x, hFound⟩ := Option.ne_none_iff_exists'.mp (hThere t hMem)
      have hSame := Column.isNamed_of_named? hFound
      have hKeyed : (target.columns.any fun t => t.isKey && t.isNamed x.name) = true := by
        refine List.any_eq_true.mpr ⟨t, hMem, ?_⟩
        rw [hIsKey, Bool.true_and, Column.isNamed_comm, hSame]
      refine List.mem_map.mpr ⟨{ x with isKey := true }, ?_, Column.isNamed_iff.mp hSame⟩
      refine List.mem_filter.mpr ⟨List.mem_map.mpr ⟨x, Column.mem_of_named? hFound, ?_⟩, rfl⟩
      rw [hKeyed]
    · intro hName
      obtain ⟨y, hy, rfl⟩ := List.mem_map.mp hName
      obtain ⟨hMem, hIsKey⟩ := List.mem_filter.mp hy
      obtain ⟨x, hx, rfl⟩ := List.mem_map.mp hMem
      obtain ⟨t, ht, hBoth⟩ := List.any_eq_true.mp hIsKey
      rw [Bool.and_eq_true] at hBoth
      exact List.mem_map.mpr ⟨t, List.mem_filter.mpr ⟨ht, hBoth.1⟩, Column.isNamed_iff.mp hBoth.2⟩
  rw [keySteps, if_pos]
  exact Table.sameNames_of_perm (by rwa [Table.foldedNames_key, Table.foldedNames_key])

/-- A place in the key plays no part in the steps of a column. -/
theorem columnSteps_apply_key (hTarget : Distinct target.columns) (h : Compatible target k)
    (hSteps : columnSteps d k target target.columns = .ok steps) :
    columnSteps d (TableChange.key.apply target k) target target.columns = .ok steps := by
  refine columnSteps_congr (fun c hc => ?_) hSteps
  have hConcerns : TableChange.key.Concerns target := trivial
  have hCompatible := TableChange.compatible_apply hTarget hConcerns h
  rw [find?_of_compatible hCompatible hc, find?_of_compatible h hc]
  have hFound := Column.named?_map (f := fun c => { c with
    isKey := target.columns.any fun t => t.isKey && t.isNamed c.name }) (fun _ => rfl) k.columns c.name
  change ownSteps d target c (named? (k.columns.map _) c.name) = _
  rw [hFound]
  cases named? k.columns c.name <;> rfl

/-! ### Indexes -/

/-- The step of an index takes the first of those that are new. -/
theorem newIndexes_apply {i : Index} {is : List Index} (hNames : (target.indexes.map Index.name).Nodup)
    (h : newIndexes k target = i :: is) :
    newIndexes ((TableChange.index i).apply target k) target = is := by
  have hNodup : ((newIndexes k target).map Index.name).Nodup :=
    hNames.sublist (List.filter_sublist.map Index.name)
  have hRest : (newIndexes k target).filter (·.name != i.name) = is := by
    rw [h] at hNodup ⊢
    rw [List.map_cons, List.nodup_cons] at hNodup
    have hFirst : (i.name != i.name) = false := bne_self_eq_false i.name
    rw [List.filter_cons, hFirst]
    refine List.filter_eq_self.mpr fun j hj => ?_
    exact bne_iff_ne.mpr fun hSame => hNodup.1 (hSame ▸ List.mem_map_of_mem hj)
  rw [← hRest, newIndexes, newIndexes, List.filter_filter]
  refine List.filter_congr fun j _ => ?_
  by_cases hSame : j.name = i.name
  · simp [TableChange.apply, hSame]
  · have hLast : (i.name == j.name) = false := beq_eq_false_iff_ne.mpr fun h => hSame h.symm
    have hOthers : (fun x : Index => x.name != i.name && x.name == j.name) =
        fun x => x.name == j.name := by
      funext x
      by_cases hName : x.name = j.name <;> simp [hName, hSame]
    simp only [TableChange.apply, List.any_append, List.any_filter, List.any_cons, List.any_nil,
      hLast, hOthers, Bool.or_false]
    simp [hSame]

/-! ### New tables -/

/-- A created table needs its comments and its indexes. -/
theorem steps_create (hTarget : Distinct target.columns) (hResumable : target.Resumable)
    (hValid : target.validate = .ok ()) {indexes : List Step}
    (hIndexes : Step.indexing d target target.indexes = .ok indexes) (k : Table) :
    Plan.steps d (some (TableChange.create.apply target k)) target =
      .ok ((target.columns.filter (!·.comment.isEmpty)).map (Step.commentOn d) ++ indexes) := by
  have hCompatible := TableChange.compatible_create hTarget hResumable.apart k
  have hColumns : ∀ cs ⊆ target.columns,
      columnSteps d (TableChange.create.apply target k) target cs =
        .ok (cs.map (commentSteps d · none)).flatten := by
    intro cs hSubset
    induction cs with
    | nil => rfl
    | cons c cs ih =>
        obtain ⟨hMem, hRest⟩ := List.cons_subset.mp hSubset
        refine columnSteps_cons_eq_ok.mpr ⟨commentSteps d c none, _, ?_, ih hRest, by simp⟩
        rw [find?_of_compatible hCompatible hMem]
        have hFound := Column.named?_map (f := fun c => { c with comment := "" }) (fun _ => rfl)
          target.columns c.name
        rw [Column.named?_self hTarget hMem] at hFound
        change ownSteps d target c (named? (target.columns.map _) c.name) = _
        rw [hFound, Option.map_some, ownSteps_of_same (p := { c with comment := "" })
          c.differs_self (hResumable.self c hMem)]
        rfl
  have hKey : keySteps d (TableChange.create.apply target k) target = .ok [] := by
    have hSame : foldedNames (TableChange.create.apply target k).key = foldedNames target.key := by
      simp [TableChange.apply, Table.key, foldedNames, Column.folded, List.filter_map,
        Function.comp_def]
    exact keySteps_congr hSame
      (by rw [keySteps, if_pos (Table.sameNames_of_perm (List.Perm.refl _))])
  have hNew : newIndexes (TableChange.create.apply target k) target = target.indexes :=
    List.filter_eq_self.mpr fun _ _ => rfl
  exact steps_some_eq_ok.mpr ⟨hValid, _, [], indexes, hColumns _ (List.Subset.refl _), hKey,
    by rw [hNew, hIndexes], by rw [map_commentOn, List.append_nil]⟩

/-! ### Any step -/

/-- A table on the way from the known one to the target: it is at the same place, and merged with the
target it comes to the same. -/
structure OnWay (target : Table) (known : Option Table) (k' : Table) : Prop where
  compatible : Compatible target k'
  merged : target.merged (some k') = target.merged known
  name : k'.name = (known.getD target).name
  schema : k'.schema = (known.getD target).schema

/-- What is on the way to a table on the way is itself on the way. -/
theorem OnWay.trans {known : Option Table} {k'' : Table} (first : OnWay target known k')
    (later : OnWay target (some k') k'') : OnWay target known k'' where
  compatible := later.compatible
  merged := later.merged.trans first.merged
  name := later.name.trans first.name
  schema := later.schema.trans first.schema

/-- Every change of the plan is one step on the way to the target. -/
theorem onWay_apply (hTarget : Distinct target.columns) (h : Compatible target k)
    {change : TableChange} (hConcerns : change.Concerns target) (hCreate : change ≠ .create)
    (hKey : change = .key → k.key = []) : OnWay target (some k) (change.apply target k) where
  compatible := TableChange.compatible_apply hTarget hConcerns h
  merged := TableChange.merged_apply hTarget hConcerns h hCreate hKey
  name := (TableChange.address_apply hCreate).1
  schema := (TableChange.address_apply hCreate).2

/-- Where no column needs a step, the known table has them all. -/
theorem named?_of_columnSteps_nil (h : Compatible target k)
    (hNothing : columnSteps d k target target.columns = .ok []) (hc : c ∈ target.columns) :
    named? k.columns c.name ≠ none := by
  obtain ⟨own, hOwn, hSubset⟩ := ownSteps_of_mem hc hNothing
  rw [List.subset_nil.mp hSubset, find?_of_compatible h hc] at hOwn
  intro hNone
  rw [hNone] at hOwn
  exact ownSteps_none_ne_nil hOwn

/-- From a table that is known a step leaves what followed it. -/
theorem steps_apply_some (hResumable : target.Resumable) (h : Compatible target k)
    (hSteps : Plan.steps d (some k) target = .ok (step :: rest)) :
    OnWay target (some k) (step.change.apply target k) ∧
      Plan.steps d (some (step.change.apply target k)) target = .ok rest := by
  obtain ⟨hValid, columns, key, indexes, hColumns, hKey, hIndexes, hEq⟩ := steps_some_eq_ok.mp hSteps
  have hTarget := Table.distinct_of_validate hValid
  -- The step is one of a column, the one of the key if no column has any, or else one of an index.
  cases columns with
  | cons first columns =>
      obtain ⟨rfl, rfl⟩ := List.cons.inj hEq
      obtain ⟨c, hc, hChange⟩ := change_of_mem_columnSteps hColumns (List.mem_cons_self ..)
      have hRest := columnSteps_apply hTarget h hResumable.self (List.Subset.refl _) hTarget hColumns
      have hNames : foldedNames (step.change.apply target k).key = foldedNames k.key :=
        foldedNames_key_apply hChange
      have hKeyRest := keySteps_congr hNames hKey
      have hIndexesRest : newIndexes (step.change.apply target k) target = newIndexes k target := by
        rcases hChange with hEq | hEq <;> rw [hEq] <;> rfl
      refine ⟨onWay_apply hTarget h ?_ ?_ ?_, steps_some_eq_ok.mpr
        ⟨hValid, columns, key, indexes, hRest, hKeyRest, by rw [hIndexesRest, hIndexes], rfl⟩⟩
      · rcases hChange with hEq | hEq <;> rwa [hEq]
      · rcases hChange with hEq | hEq <;> simp [hEq]
      · rcases hChange with hEq | hEq <;> simp [hEq]
  | nil =>
      rcases keySteps_eq_ok hKey with ⟨-, rfl⟩ | ⟨-, hNone, -, rfl⟩
      · cases hNew : newIndexes k target with
        | nil =>
            rw [hNew] at hIndexes
            obtain rfl := Except.ok.inj hIndexes
            simp at hEq
        | cons i is =>
            rw [hNew] at hIndexes
            obtain ⟨edit, others, -, hOthers, rfl⟩ := indexing_cons_eq_ok.mp hIndexes
            obtain ⟨rfl, rfl⟩ := List.cons.inj hEq
            have hi : i ∈ target.indexes := by
              have hMem : i ∈ newIndexes k target := by rw [hNew]; exact List.mem_cons_self ..
              exact (List.mem_filter.mp hMem).1
            refine ⟨onWay_apply hTarget h hi (by simp) (by simp), steps_some_eq_ok.mpr
              ⟨hValid, [], [], rest, columnSteps_congr (k := k) (fun _ _ => rfl) hColumns,
                keySteps_congr rfl hKey, ?_, rfl⟩⟩
            rw [newIndexes_apply hResumable.indexes hNew, hOthers]
      · obtain ⟨rfl, rfl⟩ := List.cons.inj hEq
        exact ⟨onWay_apply hTarget h trivial (by simp) fun _ => hNone, steps_some_eq_ok.mpr
          ⟨hValid, [], [], rest, columnSteps_apply_key hTarget h hColumns,
            keySteps_apply_key hTarget h fun c hc => named?_of_columnSteps_nil h hColumns hc,
            hIndexes, rfl⟩⟩

/-- From the table that a step makes, or creates, the plan to the target is what followed the step. -/
theorem steps_apply {known : Option Table} (hResumable : target.Resumable)
    (h : ∀ k ∈ known, Compatible target k) (hSteps : Plan.steps d known target = .ok (step :: rest)) :
    OnWay target known (step.change.apply target (known.getD { name := "" })) ∧
      Plan.steps d (some (step.change.apply target (known.getD { name := "" }))) target =
        .ok rest := by
  cases known with
  | some k => exact steps_apply_some hResumable (h k rfl) hSteps
  | none =>
      obtain ⟨hValid, edit, indexes, -, hIndexes, hEq⟩ := steps_none_eq_ok.mp hSteps
      obtain ⟨rfl, rfl⟩ := List.cons.inj hEq
      have hTarget := Table.distinct_of_validate hValid
      exact ⟨⟨TableChange.compatible_create hTarget hResumable.apart _,
        TableChange.merged_create hTarget hResumable.apart _, rfl, rfl⟩,
        steps_create hTarget hResumable hValid hIndexes _⟩

/-- A plan can be left behind any of its steps and taken up there. -/
theorem steps_tableAfter {known : Option Table} {first : Step} {done : List Step}
    (hResumable : target.Resumable) (h : ∀ k ∈ known, Compatible target k)
    (hSteps : Plan.steps d known target = .ok (first :: done ++ rest)) :
    ∃ k', tableAfter target known (first :: done) = some k' ∧ OnWay target known k' ∧
      Plan.steps d (some k') target = .ok rest := by
  induction done generalizing known first with
  | nil =>
      obtain ⟨hWay, hRest⟩ := steps_apply hResumable h hSteps
      exact ⟨_, rfl, hWay, hRest⟩
  | cons second done ih =>
      obtain ⟨hWay, hRest⟩ := steps_apply hResumable h hSteps
      obtain ⟨k', hAfter, hLater, hLast⟩ :=
        ih (fun k hk => by obtain rfl := Option.some.inj hk; exact hWay.compatible) hRest
      exact ⟨k', hAfter, hWay.trans hLater, hLast⟩

end Plan

end SqlMapper
