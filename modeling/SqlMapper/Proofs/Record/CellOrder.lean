import SqlMapper.Proofs.Record.CalendarEnd

/-! The order of cells. Cells for different properties can be set in any order, so a row whose mapped cells
go to different properties gives the same record however its cells are ordered, and whatever cells of other
columns stand between them. Only how a row fails depends on which cell is reached first. -/
namespace SqlMapper

/-! ### Properties -/

namespace Fields

variable {name other : String} {p : Property} {ps : List Property} {v w : Value}

theorem set?_cons_of_eq (h : name = p.name) {a : p.type.Carrier} {rest : Fields ps}
    {g : Fields (p :: ps)} : set? name v (p :: ps) (a, rest) = some (.ok g) ↔
      ∃ b, p.type.ofValue v = .ok b ∧ (b, rest) = g := by
  have hSet : set? name v (p :: ps) (a, rest) = some ((p.type.ofValue v).map (·, rest)) := if_pos h
  constructor
  · intro hGiven
    exact Result.map_eq_ok_iff.mp (Option.some.inj (hSet.symm.trans hGiven))
  · intro hGiven
    exact hSet.trans (congrArg some (Result.map_eq_ok_iff.mpr hGiven))

theorem set?_cons_of_ne (h : name ≠ p.name) {a : p.type.Carrier} {rest : Fields ps}
    {g : Fields (p :: ps)} : set? name v (p :: ps) (a, rest) = some (.ok g) ↔
      ∃ later, set? name v ps rest = some (.ok later) ∧ (a, later) = g := by
  have hSet : set? name v (p :: ps) (a, rest) =
      (set? name v ps rest).map fun result => result.map (a, ·) := if_neg h
  constructor
  · intro hGiven
    obtain ⟨result, hRest, hMap⟩ := Option.map_eq_some_iff.mp (hSet.symm.trans hGiven)
    obtain ⟨later, rfl, hLater⟩ := Result.map_eq_ok_iff.mp hMap
    exact ⟨later, hRest, hLater⟩
  · rintro ⟨later, hRest, rfl⟩
    exact hSet.trans (Option.map_eq_some_iff.mpr ⟨.ok later, hRest, rfl⟩)

/-- Two properties that are set one after the other can be set the other way round. -/
theorem set?_comm (hNames : name ≠ other) {f g k : Fields ps}
    (hFirst : set? name v ps f = some (.ok g)) (hSecond : set? other w ps g = some (.ok k)) :
    ∃ g', set? other w ps f = some (.ok g') ∧ set? name v ps g' = some (.ok k) := by
  -- One name can end at the first property and the other go on, or both go on.
  induction ps with
  | nil => cases hFirst
  | cons p ps ih =>
      obtain ⟨a, rest⟩ := f
      by_cases hName : name = p.name
      · have hOther : other ≠ p.name := hName ▸ hNames.symm
        obtain ⟨b, hRead, rfl⟩ := (set?_cons_of_eq hName).mp hFirst
        obtain ⟨later, hRest, rfl⟩ := (set?_cons_of_ne hOther).mp hSecond
        exact ⟨(a, later), (set?_cons_of_ne hOther).mpr ⟨later, hRest, rfl⟩,
          (set?_cons_of_eq hName).mpr ⟨b, hRead, rfl⟩⟩
      · obtain ⟨later, hRest, rfl⟩ := (set?_cons_of_ne hName).mp hFirst
        by_cases hOther : other = p.name
        · obtain ⟨b, hRead, rfl⟩ := (set?_cons_of_eq hOther).mp hSecond
          exact ⟨(b, rest), (set?_cons_of_eq hOther).mpr ⟨b, hRead, rfl⟩,
            (set?_cons_of_ne hName).mpr ⟨later, hRest, rfl⟩⟩
        · obtain ⟨last, hLast, rfl⟩ := (set?_cons_of_ne hOther).mp hSecond
          obtain ⟨later', hRest', hLast'⟩ := ih hRest hLast
          exact ⟨(a, later'), (set?_cons_of_ne hOther).mpr ⟨later', hRest', rfl⟩,
            (set?_cons_of_ne hName).mpr ⟨last, hLast', rfl⟩⟩

end Fields

namespace Record

variable {e : Entity} {r s t : Record e} {name other : String} {v w : Value}
  {report report' : List Fault → Failure}

/-- Setting a property of a record is setting it among its fields. -/
theorem set_eq_ok_iff :
    r.set report name v = .ok s ↔ Fields.set? name v e.properties r.fields = some (.ok s.fields) := by
  obtain ⟨fields⟩ := s
  rw [set]
  split
  next hSet => simp [hSet]
  next hSet => simp [hSet]
  next hSet => simp [hSet]

/-- Two different properties may be set in either order. -/
theorem set_comm (hNames : name ≠ other) (hFirst : r.set report name v = .ok s)
    (hSecond : s.set report' other w = .ok t) :
    ∃ s', r.set report' other w = .ok s' ∧ s'.set report name v = .ok t := by
  rw [set_eq_ok_iff] at hFirst hSecond
  obtain ⟨fields, hFirst', hSecond'⟩ := Fields.set?_comm hNames hFirst hSecond
  exact ⟨⟨fields⟩, set_eq_ok_iff.mpr hFirst', set_eq_ok_iff.mpr hSecond'⟩

end Record

/-! ### Cells -/

namespace Mapping

variable {m : Mapping} {e : Entity} {r s t : Record e} {a b : String × Value}
  {cells others : List (String × Value)}

/-- The cells whose columns are mapped. -/
def mappedCells (m : Mapping) (cells : List (String × Value)) : List (String × Value) :=
  cells.filter fun cell => (m.propertyOf? cell.1).isSome

/-- The properties that the mapped cells go to. -/
def targets (m : Mapping) (cells : List (String × Value)) : List String :=
  cells.filterMap fun cell => m.propertyOf? cell.1

/-- Cells of other columns make no difference. -/
theorem wrapCells_mappedCells (m : Mapping) (r : Record e) (cells : List (String × Value)) :
    m.wrapCells r (m.mappedCells cells) = m.wrapCells r cells := by
  induction cells generalizing r with
  | nil => rfl
  | cons cell cells ih =>
      cases hProperty : m.propertyOf? cell.1 with
      | none =>
          have hLeft : m.mappedCells (cell :: cells) = m.mappedCells cells :=
            List.filter_cons_of_neg (by simp [hProperty])
          rw [hLeft, ih, wrapCells, hProperty]
      | some p =>
          have hKept : m.mappedCells (cell :: cells) = cell :: m.mappedCells cells :=
            List.filter_cons_of_pos (by simp [hProperty])
          rw [hKept, wrapCells_cons, wrapCells_cons m r cell cells]
          simp only [ih]

/-- Cells without a property set none. -/
theorem targets_mappedCells (m : Mapping) (cells : List (String × Value)) :
    m.targets (m.mappedCells cells) = m.targets cells := by
  rw [targets, mappedCells, List.filterMap_filter]
  refine congrArg (List.filterMap · cells) (funext fun cell => ?_)
  cases m.propertyOf? cell.1 <;> rfl

/-- A row wraps when its first cell does and then the others. -/
theorem wrapCells_cons_eq_ok_iff : m.wrapCells r (a :: cells) = .ok t ↔
    ∃ s, m.wrapCells r [a] = .ok s ∧ m.wrapCells s cells = .ok t := by
  rw [wrapCells_cons]
  exact Result.bind_eq_ok_iff

/-- Two cells that do not go to one property can be taken the other way round. -/
theorem wrapCell_comm (hApart : ∀ p, m.propertyOf? a.1 = some p → m.propertyOf? b.1 ≠ some p)
    (hFirst : m.wrapCells r [a] = .ok s) (hSecond : m.wrapCells s [b] = .ok t) :
    ∃ s', m.wrapCells r [b] = .ok s' ∧ m.wrapCells s' [a] = .ok t := by
  rw [wrapCells] at hFirst hSecond
  cases hA : m.propertyOf? a.1 with
  | none =>
      rw [hA] at hFirst
      obtain rfl := Except.ok.inj hFirst
      exact ⟨t, by rwa [wrapCells], by rw [wrapCells, hA]; rfl⟩
  | some p =>
      cases hB : m.propertyOf? b.1 with
      | none =>
          rw [hB] at hSecond
          obtain rfl := Except.ok.inj hSecond
          exact ⟨r, by rw [wrapCells, hB]; rfl, by rwa [wrapCells]⟩
      | some q =>
          have hNames : p ≠ q := fun h => hApart p hA (h ▸ hB)
          rw [hA] at hFirst
          rw [hB] at hSecond
          obtain ⟨s', hSet, hEnd⟩ := Result.bind_eq_ok_iff.mp hFirst
          obtain rfl := Except.ok.inj hEnd
          obtain ⟨t', hSet', hEnd'⟩ := Result.bind_eq_ok_iff.mp hSecond
          obtain rfl := Except.ok.inj hEnd'
          obtain ⟨u, hFirst', hSecond'⟩ := Record.set_comm hNames hSet hSet'
          refine ⟨u, ?_, ?_⟩
          · rw [wrapCells, hB]
            exact Result.bind_eq_ok_iff.mpr ⟨u, hFirst', rfl⟩
          · rw [wrapCells, hA]
            exact Result.bind_eq_ok_iff.mpr ⟨_, hSecond', rfl⟩

/-- Cells that go to different properties give the same record in every order in which they are taken. -/
theorem wrapCells_perm (hPerm : cells.Perm others) (hApart : (m.targets cells).Nodup)
    (h : m.wrapCells r cells = .ok t) : m.wrapCells r others = .ok t := by
  -- Success is carried along, and not equality: an order that fails may fail at another cell.
  induction hPerm generalizing r t with
  | nil => exact h
  | cons cell _ ih =>
      obtain ⟨s, hCell, hRest⟩ := wrapCells_cons_eq_ok_iff.mp h
      have hLater : (m.targets _).Nodup :=
        hApart.sublist ((List.sublist_cons_self cell _).filterMap _)
      exact wrapCells_cons_eq_ok_iff.mpr ⟨s, hCell, ih hLater hRest⟩
  | swap a b cells =>
      obtain ⟨s, hFirst, hLater⟩ := wrapCells_cons_eq_ok_iff.mp h
      obtain ⟨u, hSecond, hRest⟩ := wrapCells_cons_eq_ok_iff.mp hLater
      have hNames : ∀ p, m.propertyOf? b.1 = some p → m.propertyOf? a.1 ≠ some p := by
        intro p hB hA
        have hTwice : m.targets (b :: a :: cells) = p :: p :: m.targets cells := by
          simp [targets, hA, hB]
        rw [hTwice] at hApart
        exact (List.nodup_cons.mp hApart).1 (List.mem_cons_self ..)
      obtain ⟨s', hFirst', hSecond'⟩ := wrapCell_comm hNames hFirst hSecond
      exact wrapCells_cons_eq_ok_iff.mpr
        ⟨s', hFirst', wrapCells_cons_eq_ok_iff.mpr ⟨u, hSecond', hRest⟩⟩
  | trans hPerm _ ih ih' =>
      exact ih' ((hPerm.filterMap _).nodup_iff.mp hApart) (ih hApart h)

end Mapping

/-! ### Rows -/

def Row.ofCells (cells : List (String × Value)) : Row := ⟨cells.map Prod.fst, cells.map Prod.snd⟩

@[simp] theorem Row.cells_ofCells (cells : List (String × Value)) : (Row.ofCells cells).cells = cells := by
  rw [Row.cells, Row.ofCells, List.zip_map']
  exact List.map_id' cells

namespace Mapping

variable {m : Mapping} {e : Entity} {r s : Row} {f : Failure}

/-- The rows give one record, or each of them fails with the mapping of one of its cells. -/
def ReadsAlike (m : Mapping) (e : Entity) (r s : Row) : Prop :=
  (∃ record, m.wrap e r = .ok record ∧ m.wrap e s = .ok record) ∨
    ∃ f g, m.wrap e r = .error f ∧ m.wrap e s = .error g ∧
      (∃ cell ∈ r.cells, m.Blames cell f) ∧ ∃ cell ∈ s.cells, m.Blames cell g

/-- The rows have the same mapped cells, whatever their order and the other cells. -/
def Reorders (m : Mapping) (s r : Row) : Prop :=
  (m.mappedCells s.cells).Perm (m.mappedCells r.cells)

theorem Reorders.symm (h : m.Reorders s r) : m.Reorders r s := List.Perm.symm h

/-- Reordering the cells of a row makes no two of them set one property. -/
theorem Reorders.nodup_iff (h : m.Reorders s r) :
    (m.targets s.cells).Nodup ↔ (m.targets r.cells).Nodup := by
  rw [← targets_mappedCells m s.cells, ← targets_mappedCells m r.cells]
  exact (List.Perm.filterMap _ h).nodup_iff

/-- Cells that set different properties wrap to one record in any order. -/
theorem Reorders.wrap_eq_ok (h : m.Reorders s r) (hApart : (m.targets r.cells).Nodup)
    {record : Record e} (hRow : m.wrap e r = .ok record) : m.wrap e s = .ok record := by
  rw [wrap, ← wrapCells_mappedCells] at hRow ⊢
  rw [← targets_mappedCells] at hApart
  exact wrapCells_perm h.symm hApart hRow

/-- Only a cell with a property overruns. -/
theorem CellOverruns.mem_mappedCells {cell : String × Value} {cells : List (String × Value)}
    (h : m.CellOverruns e cell) : cell ∈ m.mappedCells cells ↔ cell ∈ cells := by
  obtain ⟨property, hProperty, -⟩ := h
  simp [mappedCells, hProperty]

theorem Reorders.overruns_mem (h : m.Reorders s r) {cell : String × Value} (hCell : cell ∈ s.cells)
    (hEnd : m.CellOverruns e cell) : cell ∈ r.cells :=
  hEnd.mem_mappedCells.mp (h.subset (hEnd.mem_mappedCells.mpr hCell))

/-- Where no cell overruns the calendar, a row fails with the mapping of one of its cells. -/
theorem exists_blames (hWithin : ∀ cell ∈ r.cells, ¬ m.CellOverruns e cell)
    (h : m.wrap e r = .error f) : ∃ cell ∈ r.cells, m.Blames cell f := by
  rcases m.wrapCells_fails_reported (Record.initial e) r.cells f h with rfl | hBlames
  · obtain ⟨before, cell, after, hCells, -, hEnd⟩ := wrapCells_eq_ended_iff.mp h
    exact absurd hEnd (hWithin cell (by simp [hCells]))
  · exact hBlames

/-- Rows in another order read alike when no cell overruns and no property is set twice. -/
theorem Reorders.readsAlike (h : m.Reorders s r) (hApart : (m.targets r.cells).Nodup)
    (hWithin : ∀ cell ∈ r.cells, ¬ m.CellOverruns e cell) : m.ReadsAlike e r s := by
  have hWithin' : ∀ cell ∈ s.cells, ¬ m.CellOverruns e cell :=
    fun cell hCell hEnd => hWithin cell (h.overruns_mem hCell hEnd) hEnd
  cases hRow : m.wrap e r with
  | ok record => exact .inl ⟨record, hRow, h.wrap_eq_ok hApart hRow⟩
  | error f =>
      cases hOther : m.wrap e s with
      | ok record =>
          have hRow' := h.symm.wrap_eq_ok (h.nodup_iff.mpr hApart) hOther
          rw [hRow] at hRow'
          cases hRow'
      | error g =>
          exact .inr ⟨f, g, hRow, hOther, exists_blames hWithin hRow, exists_blames hWithin' hOther⟩

/-- A cell that overruns the calendar ends the run of the row in which it comes first. -/
theorem exists_reordered_ended {cell : String × Value} (hCell : cell ∈ r.cells)
    (hEnd : m.CellOverruns e cell) : ∃ s, m.Reorders s r ∧ m.wrap e s = .error .ended := by
  obtain ⟨before, after, hCells⟩ := List.append_of_mem hCell
  refine ⟨.ofCells (cell :: (before ++ after)), ?_, ?_⟩
  · rw [Reorders, Row.cells_ofCells, hCells]
    exact List.perm_middle.symm.filter _
  · rw [wrap, Row.cells_ofCells, wrapCells_cons, wrapCell_eq_ended_of_overruns hEnd]
    rfl

/-- A row at which the run ends reads like no other. -/
theorem not_readsAlike_of_ended (h : m.wrap e s = .error .ended) : ¬ m.ReadsAlike e r s := by
  rintro (⟨record, -, hOther⟩ | ⟨f, g, -, hOther, -, cell, -, property, faults, -, hBlames⟩)
  · rw [h] at hOther
    cases hOther
  · rw [h, hBlames] at hOther
    cases hOther

/-- Where the mapped cells of a row go to different properties, cells of other columns change nothing, and
no order of the mapped ones changes the record, or that there is none. If there is none, each order fails
with the mapping of a cell, unless some cell overruns the calendar: then there is an order that ends the
run. -/
theorem readsAlike_iff (m : Mapping) (e : Entity) {r : Row} (hApart : (m.targets r.cells).Nodup) :
    (∀ s : Row, m.mappedCells s.cells = m.mappedCells r.cells → m.wrap e s = m.wrap e r) ∧
    (∀ s : Row, m.Reorders s r → ∀ record, m.wrap e s = .ok record ↔ m.wrap e r = .ok record) ∧
    ((∀ s : Row, m.Reorders s r → m.ReadsAlike e r s) ↔
      ∀ cell ∈ r.cells, ¬ m.CellOverruns e cell) := by
  refine ⟨?_, ?_, ?_, ?_⟩
  · intro s hSame
    rw [wrap, wrap, ← wrapCells_mappedCells, hSame, wrapCells_mappedCells]
  · intro s h record
    exact ⟨h.symm.wrap_eq_ok (h.nodup_iff.mpr hApart), h.wrap_eq_ok hApart⟩
  · intro hAlike cell hCell hEnd
    obtain ⟨s, hReorders, hEnded⟩ := exists_reordered_ended hCell hEnd
    exact not_readsAlike_of_ended hEnded (hAlike s hReorders)
  · intro hWithin s h
    exact h.readsAlike hApart hWithin

/-- Labels in another letter case and a property of another name, between cells that the record does not
know. Of two cells that do not fit, the one that comes first is blamed. -/
theorem readsAlike_iff_aliased :
    let e : Entity := ⟨"Product", [⟨"id", .integer .int64⟩, ⟨"name", .option .text⟩]⟩
    let t : Table := { name := "products", columns := [
      .ofTy "ID" (.integer .int64), { Column.ofTy "label" .text with mappedTo := "NAME" },
      .ofTy "note" .text] }
    let m := (t.mapping e.name e.propertyNames).1
    let seven : Value := .integer .int32 (some ⟨7, by decide⟩)
    let cup : Value := .text (some "cup")
    let wrong : Value := .boolean (some true)
    let record : Record e := ⟨(⟨7, by decide⟩, some "cup", ())⟩
    m.wrap e ⟨["id", "Label"], [seven, cup]⟩ = .ok record ∧
      m.wrap e ⟨["NOTE", "Label", "count", "id"], [cup, cup, .null, seven]⟩ = .ok record ∧
      m.wrap e ⟨["id", "NOTE", "Label"], [wrong, cup, wrong]⟩ =
        m.wrap e ⟨["id", "Label"], [wrong, wrong]⟩ ∧
      m.ReadsAlike e ⟨["id", "Label"], [wrong, wrong]⟩
        ⟨["Label", "NOTE", "id"], [wrong, cup, wrong]⟩ := by
  intro e t m seven cup wrong record
  have hRow : m.wrap e ⟨["id", "Label"], [seven, cup]⟩ = .ok record := rfl
  have hId : m.propertyOf? "id" = some "id" := by decide
  have hLabel : m.propertyOf? "Label" = some "name" := by decide
  have hNote : m.propertyOf? "NOTE" = none := by decide
  have hCount : m.propertyOf? "count" = none := by decide
  have hCells (v w : Value) : m.mappedCells (Row.cells ⟨["id", "Label"], [v, w]⟩) =
      [("id", v), ("Label", w)] := by
    simp [mappedCells, Row.cells, hId, hLabel]
  obtain ⟨-, hRecord, -⟩ :=
    readsAlike_iff m e (r := ⟨["id", "Label"], [seven, cup]⟩) (by decide)
  obtain ⟨hSame, -, hAlike⟩ :=
    readsAlike_iff m e (r := ⟨["id", "Label"], [wrong, wrong]⟩) (by decide)
  have hWithin : ∀ cell ∈ Row.cells ⟨["id", "Label"], [wrong, wrong]⟩, ¬ m.CellOverruns e cell := by
    intro cell hCell hOverruns
    obtain ⟨property, hProperty, p, hFound, hEnd⟩ := hOverruns
    rcases List.mem_cons.mp hCell with rfl | hCell
    · obtain rfl := Option.some.inj (hId.symm.trans hProperty)
      obtain rfl := Option.some.inj hFound
      cases hEnd
    · obtain rfl := List.mem_singleton.mp hCell
      obtain rfl := Option.some.inj (hLabel.symm.trans hProperty)
      obtain rfl := Option.some.inj hFound
      cases hEnd with
      | option h => cases h
  refine ⟨hRow, (hRecord _ ?_ record).mpr hRow, hSame _ ?_, hAlike.mpr hWithin _ ?_⟩
  · rw [Reorders, hCells]
    simpa [mappedCells, Row.cells, hId, hLabel, hNote, hCount] using
      List.Perm.swap ("id", seven) ("Label", cup) []
  · rw [hCells]
    simp [mappedCells, Row.cells, hId, hLabel, hNote]
  · rw [Reorders, hCells]
    simpa [mappedCells, Row.cells, hId, hLabel, hNote] using
      List.Perm.swap ("id", wrong) ("Label", wrong) []

/-- A row of one cell, in the first hour of the calendar where clocks are ahead of UTC. -/
theorem not_readsAlike_self :
    let z : Zoned := ⟨⟨⟨-9999, 1, 1, by decide⟩, ⟨0, 0, 0, 0, by decide⟩⟩, 3600, by decide⟩
    let e : Entity := ⟨"Log", [⟨"moment", .option .timestamp⟩]⟩
    let t : Table := { name := "log", columns := [.ofTy "moment" .timestamp] }
    ¬ (t.mapping e.name e.propertyNames).1.ReadsAlike e ⟨["moment"], [.zoned (some z)]⟩
      ⟨["moment"], [.zoned (some z)]⟩ := by
  intro z e t
  exact not_readsAlike_of_ended rfl

end Mapping

end SqlMapper
