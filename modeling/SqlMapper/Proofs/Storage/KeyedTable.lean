import Mathlib
import SqlMapper.Proofs.Result
import SqlMapper.Storage.KeyedTable

/-! A table of keys over any run of statements. A statement that fails leaves the table as it was, one
that inserts or deletes changes it by as many keys as it reports, and one that selects finds the keys
that are there, each once and in order. So the reports of a run account for all of the keys. -/
namespace SqlMapper.Storage.KeyedTable

variable {t t' : KeyedTable}

/-! ### Insertions -/

/-- Inserting a key only rearranges. -/
theorem perm_insertKey (n : Int) (keys : List Int) : (insertKey n keys).Perm (n :: keys) := by
  induction keys with
  | nil => exact .refl _
  | cons m keys ih =>
      rw [insertKey]
      split
      next => exact .refl _
      next => exact (ih.cons m).trans (.swap n m keys)

/-- A key that is added was not there. -/
theorem perm_of_add? {n : Int} (h : t.add? n = some t') : t'.keys.Perm (n :: t.keys) := by
  rw [add?] at h
  split at h
  next => simp at h
  next =>
    obtain rfl := Option.some.inj h
    exact perm_insertKey n t.keys

/-- Insertions that succeed add one key for each cell and tell the last one. -/
theorem insertAll_eq_ok {cells : List Cell} {last last' : Option Int}
    (h : t.insertAll last cells = .ok (t', last')) :
    ∃ ns, ns.length = cells.length ∧ t'.keys.Perm (ns ++ t.keys) ∧ last' = ns.getLast?.or last := by
  induction cells generalizing t last with
  | nil =>
      obtain ⟨rfl, rfl⟩ := Prod.mk.inj (Except.ok.inj h)
      exact ⟨[], rfl, .refl _, rfl⟩
  | cons cell cells ih =>
      rw [insertAll, Result.bind_eq_ok_iff] at h
      obtain ⟨n, -, hRest⟩ := h
      split at hRest
      next u hAdd =>
        obtain ⟨ns, hLength, hPerm, hLast⟩ := ih hRest
        refine ⟨n :: ns, by rw [List.length_cons, List.length_cons, hLength], ?_, ?_⟩
        · exact hPerm.trans (((perm_of_add? hAdd).append_left ns).trans List.perm_middle)
        · rw [hLast, List.getLast?_cons]
          cases ns.getLast? <;> rfl
      next => cases hRest

/-! ### Statements -/

/-- What a statement does to the keys of a table, and what it reports. -/
inductive Does : Statement → KeyedTable → Result Reply → KeyedTable → Prop
  | fail (s : Statement) (t : KeyedTable) (f : Failure) : Does s t (.error f) t
  | insert {t t' : KeyedTable} {ns : List Int} (capitals : Bool) (ids : List Value)
      (added : t'.keys.Perm (ns ++ t.keys)) :
      Does (.insert capitals ids) t
        (.ok [.affected ⟨.ofNat ns.length, if capitals then ns.getLast? else none⟩]) t'
  | delete {t t' : KeyedTable} {gone : List Int} (lower upper : Value)
      (removed : t.keys.Perm (gone ++ t'.keys)) :
      Does (.delete lower upper) t (.ok [.affected ⟨.ofNat gone.length, none⟩]) t'
  | select {t : KeyedTable} {found : List Int} (lower upper : Value)
      (there : found.Sublist t.keys) :
      Does (.select lower upper) t (.ok (found.map row)) t

/-- The keys are those between the bounds and those a deletion leaves. -/
theorem perm_between (t : KeyedTable) (lower upper : Cell) :
    t.keys.Perm (t.between lower upper ++ (t.removeBetween lower upper).keys) :=
  (List.filter_append_perm (Numeric.isBetween (.ofCell lower) (.ofCell upper)) t.keys).symm

/-- A statement whose values are storable does what it says. -/
theorem does_runCells {s : Statement} {cells : List Cell} {reply : Reply}
    (h : t.runCells s cells = .ok (reply, t')) : Does s t (.ok reply) t' := by
  rw [runCells.eq_def] at h
  split at h
  next cells capitals ids =>
    split at h
    next => cases h
    next =>
      split at h
      next => cases h
      next u last hInsert =>
        obtain ⟨ns, hLength, hPerm, hLast⟩ := insertAll_eq_ok hInsert
        obtain ⟨rfl, rfl⟩ := Prod.mk.inj (Except.ok.inj h)
        rw [hLast, Option.or_none, ← hLength]
        exact .insert capitals ids hPerm
  next lower upper low high =>
    obtain ⟨rfl, rfl⟩ := Prod.mk.inj (Except.ok.inj h)
    exact .delete lower upper (perm_between t low high)
  next lower upper low high =>
    obtain ⟨rfl, rfl⟩ := Prod.mk.inj (Except.ok.inj h)
    exact .select lower upper List.filter_sublist
  next => cases h

/-- Each statement does one of these, whatever is in the table. -/
theorem does_run (t : KeyedTable) (s : Statement) : Does s t (t.run s).1 (t.run s).2 := by
  rw [run]
  split
  next e _ => exact .fail s t _
  next cells _ =>
    split
    next e _ => exact .fail s t _
    next reply t' hRun => exact does_runCells hRun

/-- A selection finds keys of the table, each once and in ascending order. -/
theorem pairwise_of_select {lower upper : Value} {reply : Reply}
    (h : (t.run (.select lower upper)).1 = .ok reply) :
    ∃ found, reply = found.map row ∧ found ⊆ t.keys ∧ found.Pairwise (· < ·) := by
  have hDoes := does_run t (.select lower upper)
  rw [h] at hDoes
  generalize (t.run (.select lower upper)).2 = after at hDoes
  cases hDoes with
  | @select _ found _ _ there =>
      exact ⟨found, rfl, there.subset, t.ascending.sublist there⟩

theorem ofValues_pair {v w : Value} {cells : List Cell} (h : Cell.ofValues [v, w] = .ok cells) :
    ∃ low high, cells = [low, high] := by
  simp only [Cell.ofValues, Cell.mapAll, Result.bind_eq_ok_iff] at h
  obtain ⟨low, -, _, ⟨high, -, _, hNone, hLast⟩, hCells⟩ := h
  obtain rfl := Except.ok.inj hNone
  obtain rfl := Except.ok.inj hLast
  exact ⟨low, high, (Except.ok.inj hCells).symm⟩

/-- A deletion that succeeds removes the keys between its bounds. -/
theorem run_delete_eq_ok {lower upper : Value} {reply : Reply}
    (h : t.run (.delete lower upper) = (.ok reply, t')) :
    ∃ low high, Cell.ofValues [lower, upper] = .ok [low, high] ∧
      t' = t.removeBetween low.kept high.kept := by
  rw [run, Statement.values] at h
  cases hCells : Cell.ofValues [lower, upper] with
  | error e => simp [hCells] at h
  | ok cells =>
      obtain ⟨low, high, rfl⟩ := ofValues_pair hCells
      rw [hCells] at h
      exact ⟨low, high, rfl, (Prod.mk.inj h).2.symm⟩

/-- A selection answers with the keys between its bounds and changes nothing. -/
theorem run_select {lower upper : Value} {low high : Cell}
    (h : Cell.ofValues [lower, upper] = .ok [low, high]) :
    t.run (.select lower upper) = (.ok ((t.between low.kept high.kept).map row), t) := by
  rw [run, Statement.values, h]
  rfl

/-- What was deleted is not selected any more. -/
theorem select_of_delete {lower upper : Value} {reply : Reply}
    (h : t.run (.delete lower upper) = (.ok reply, t')) :
    t'.run (.select lower upper) = (.ok [], t') := by
  obtain ⟨low, high, hCells, rfl⟩ := run_delete_eq_ok h
  have hNone : (t.removeBetween low.kept high.kept).between low.kept high.kept = [] := by
    rw [between, removeBetween, List.filter_filter]
    simp
  rw [run_select hCells, hNone, List.map_nil]

/-! ### Runs of statements -/

/-- The replies to statements in order, and the table behind them. -/
def runAll (t : KeyedTable) : List Statement → List (Result Reply) × KeyedTable
  | [] => ([], t)
  | s :: rest =>
    let (reply, t) := t.run s
    let (replies, t) := t.runAll rest
    (reply :: replies, t)

/-- The count of rows that a reply reports. -/
def reported : Result Reply → UInt64
  | .ok [.affected a] => a.rows
  | _ => 0

def inserted : Statement → Result Reply → UInt64
  | .insert _ _, reply => reported reply
  | _, _ => 0

def deleted : Statement → Result Reply → UInt64
  | .delete _ _, reply => reported reply
  | _, _ => 0

/-- A statement changes the count of rows as it reports. -/
theorem Does.count {s : Statement} {reply : Result Reply} (h : Does s t reply t') :
    .ofNat t'.keys.length + deleted s reply = .ofNat t.keys.length + inserted s reply := by
  cases h with
  | fail => cases s <;> rfl
  | @insert _ _ ns capitals ids added =>
      change .ofNat _ + 0 = .ofNat _ + UInt64.ofNat ns.length
      rw [added.length_eq, List.length_append, Nat.add_comm, UInt64.ofNat_add, UInt64.add_zero]
  | @delete _ _ gone lower upper removed =>
      change .ofNat _ + UInt64.ofNat gone.length = .ofNat _ + 0
      rw [removed.length_eq, List.length_append, Nat.add_comm, UInt64.ofNat_add, UInt64.add_zero]
  | select => rfl

/-- The reports of a run account for all rows, in the arithmetic of counts. -/
theorem count_runAll (t : KeyedTable) (ss : List Statement) :
    .ofNat (t.runAll ss).2.keys.length + (List.zipWith deleted ss (t.runAll ss).1).sum =
      .ofNat t.keys.length + (List.zipWith inserted ss (t.runAll ss).1).sum := by
  induction ss generalizing t with
  | nil => rfl
  | cons s ss ih =>
      have hFirst := (does_run t s).count
      have hRest := ih (t.run s).2
      simp only [runAll, List.zipWith_cons_cons, List.sum_cons]
      grind

end SqlMapper.Storage.KeyedTable
