import SqlMapper.Exchange.Reply
import SqlMapper.Storage.Numeric

/-!
# A table of keys

The table `t` of a fresh database: its one column `id` is an integer primary key. Main statement:
however rows are inserted, the keys stay in ascending order without repetition
(`pairwise_insertKey`).
-/

namespace SqlMapper.Storage

/-- A table with an integer primary key as its only column. -/
structure KeyedTable where
  keys : List Int := []
  ascending : keys.Pairwise (· < ·) := by simp

namespace KeyedTable

def insertKey (n : Int) : List Int → List Int
  | [] => [n]
  | m :: keys => if n < m then n :: m :: keys else m :: insertKey n keys

theorem mem_insertKey {n m : Int} {keys : List Int} :
    m ∈ insertKey n keys ↔ m = n ∨ m ∈ keys := by
  induction keys with
  | nil => simp [insertKey]
  | cons k keys ih => by_cases h : n < k <;> simp [insertKey, h, ih, or_left_comm]

theorem pairwise_insertKey {n : Int} {keys : List Int} (h : keys.Pairwise (· < ·))
    (hn : n ∉ keys) : (insertKey n keys).Pairwise (· < ·) := by
  induction keys with
  | nil => simp [insertKey]
  | cons k keys ih =>
    obtain ⟨hk, hkeys⟩ := List.pairwise_cons.1 h
    have hnk : n ≠ k := fun e => hn (e ▸ List.mem_cons_self)
    by_cases hlt : n < k
    · rw [insertKey, if_pos hlt, List.pairwise_cons]
      refine ⟨fun m hm => ?_, h⟩
      rcases List.mem_cons.1 hm with rfl | hm
      · exact hlt
      · exact Int.lt_trans hlt (hk m hm)
    · rw [insertKey, if_neg hlt, List.pairwise_cons]
      refine ⟨fun m hm => ?_, ih hkeys fun hm => hn (List.mem_cons_of_mem k hm)⟩
      rcases mem_insertKey.1 hm with rfl | hm
      · omega
      · exact hk m hm

/-- The table with one more key; none when the key is there already. -/
def add? (t : KeyedTable) (n : Int) : Option KeyedTable :=
  if h : n ∈ t.keys then none
  else some ⟨insertKey n t.keys, pairwise_insertKey t.ascending h⟩

/-- The key of a row that names none: one after the greatest. -/
def nextKey (t : KeyedTable) : Int := t.keys.getLast?.elim 1 (· + 1)

/-- The key that a cell asks for. -/
def keyFor (t : KeyedTable) (cell : Cell) : Except Fault Int :=
  match Numeric.ofCell cell with
  | .missing => .ok t.nextKey
  | .integer n => .ok n.val
  | .real _ | .above => .error (.reply "datatype mismatch")

/-- Inserts rows in order and gives the last key. The first fault leaves no row behind. -/
def insertAll (t : KeyedTable) (last : Option Int) : List Cell →
    Except Fault (KeyedTable × Option Int)
  | [] => .ok (t, last)
  | cell :: cells => do
    let n ← t.keyFor cell
    match t.add? n with
    | some t => t.insertAll (some n) cells
    | none => throw (.reply "UNIQUE constraint failed: t.id")

def between (t : KeyedTable) (lower upper : Cell) : List Int :=
  t.keys.filter (Numeric.isBetween (.ofCell lower) (.ofCell upper))

/-- The table without the keys between two cells. -/
def removeBetween (t : KeyedTable) (lower upper : Cell) : KeyedTable where
  keys := t.keys.filter fun n => !Numeric.isBetween (.ofCell lower) (.ofCell upper) n
  ascending := t.ascending.filter _

/-- A statement on the database. -/
inductive Statement where
  /-- Inserts one row for each value. Only an insertion in capitals tells its last key. -/
  | insert (capitals : Bool) (ids : List Value)
  | delete (lower upper : Value)
  | select (lower upper : Value)
  /-- Deletes from a table that does not exist. -/
  | missing

namespace Statement

def values : Statement → List Value
  | insert _ ids => ids
  | delete lower upper => [lower, upper]
  | select lower upper => [lower, upper]
  | missing => []

end Statement

def row (n : Int) : Item := .row ⟨["Found"], [.integer .int64 (Integer.ofInt? .int64 n)]⟩

/-- A failure to understand a statement, with the words of the database. -/
def unprepared (sql words : String) : Failure :=
  .reported (.fault (.preparing sql)) [.fault (.reply words)]

/-- Runs a statement whose values have their storage forms. -/
def runCells (t : KeyedTable) (s : Statement) (cells : List Cell) : Result (Reply × KeyedTable) :=
  match s, cells with
  | .insert capitals _, cells =>
    if cells.isEmpty then
      .error (unprepared (if capitals then "INSERT INTO t (id) VALUES " else
        "insert into t (id) values ") "incomplete input")
    else
      match t.insertAll none cells with
      | .error e => .error (.fault e)
      | .ok (t, last) => .ok ([.affected ⟨.ofNat cells.length, if capitals then last else none⟩], t)
  | .delete _ _, [lower, upper] =>
    .ok ([.affected ⟨.ofNat (t.between lower upper).length, none⟩], t.removeBetween lower upper)
  | .select _ _, [lower, upper] => .ok ((t.between lower upper).map row, t)
  | _, _ => .error (unprepared "DELETE FROM missing" "no such table: missing")

/-- Runs a statement. A value without a storage form fails it before anything else; a failed
statement leaves the table as it was. -/
def run (t : KeyedTable) (s : Statement) : Result Reply × KeyedTable :=
  match Cell.ofValues s.values with
  | .error e => (.error (.fault e), t)
  | .ok cells =>
    match t.runCells s (cells.map Cell.kept) with
    | .error e => (.error e, t)
    | .ok (reply, t) => (.ok reply, t)

end KeyedTable

end SqlMapper.Storage
