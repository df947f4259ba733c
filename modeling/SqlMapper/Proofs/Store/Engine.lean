import Mathlib.Data.List.Nodup
import SqlMapper.Exchange.Statements
import SqlMapper.Proofs.Exchange.Executor
import SqlMapper.Proofs.Store.Command

/-! Databases that keep the rows of a table. What an exchange leaves behind is what the requests make
of the rows that it sends to such a database, one after another. -/
namespace SqlMapper

namespace Exchange

/-- Sends a modification and gives the count of rows. -/
def modified (site : Site) (request : Request) : Exchange UInt64 := do
  let affected ← execute site request
  return affected.rows

def counted (site : Site) (request : Request) : Exchange Nat := do
  match ← fetchFirst site request with
  | none => return 0
  | some row => ofResult (Query.total site row)

theorem executeAll_singleton (site : Site) (request : Request) :
    (do let affected ← executeAll site [request]; return affected.rows) = modified site request := by
  simp [executeAll, modified, Affected.add]

end Exchange

/-- The reply to a request and the rows after it, by the rows before it. -/
abbrev Engine := Request → List Cells → Reply × List Cells

/-- A reply to a statement on some rows: the count in one row, and otherwise anything but a failure. -/
def Store.Told (s : Store) (rows : List Cells) (reply : Reply) : Command → Prop
  | .count held => ∃ row n, reply = [.row row] ∧
    Ty.toInteger .uint64 (row.values.head?.getD .null) = .ok n ∧ n.val.toNat = s.total held rows
  | _ => ∀ f, .failure f ∉ reply

namespace Engine

variable (E : Engine)

/-- The rows after some requests. -/
def after (rows : List Cells) (requests : List Request) : List Cells :=
  requests.foldl (fun rows request => (E request rows).2) rows

/-- A wire to the engine, over which nothing was sent. -/
def wire (mode : Mode) (rows : List Cells) : Wire where
  mode
  answer requests :=
    match requests.getLast? with
    | some request => (E request (E.after rows requests.dropLast)).1
    | none => []

/-- The engine carries a statement out, wherever its meaning allows that. -/
def Executes (s : Store) (d : Dialect) (t : Table) (c : Command) : Prop :=
  ∀ rows rows', s.Unique t rows → s.run t rows c = some rows' →
    s.Told rows (E (c.request d t) rows).1 c ∧ (E (c.request d t) rows).2 = rows'

/-- The exchange succeeds and makes other rows of some rows. -/
def Leaves {α : Type} (x : Exchange α) (mode : Mode) (rows rows' : List Cells) : Prop :=
  ∃ a, (x.runOver (E.wire mode rows)).1 = .ok a ∧
    E.after rows (x.runOver (E.wire mode rows)).2.sent = rows'

/-! ### Statements known by their texts -/

/-- The engine of a store that knows some statements. -/
def ofStore (s : Store) (d : Dialect) (t : Table) (known : List Command) : Engine :=
  fun request rows =>
    match known.find? fun c => (c.request d t).sql == request.sql with
    | none => ([.failure "unknown statement"], rows)
    | some (.count held) =>
      let total := Integer.ofInt? .uint64 (s.total held rows)
      ([.row ⟨["total"], [.integer .uint64 total]⟩], rows)
    | some c => ([], (s.run t rows c).getD rows)

/-- It carries out what it can tell from the others by the text, as long as it is only asked to count
the rows with a key. -/
theorem executes_ofStore {s : Store} {d : Dialect} {t : Table} {known : List Command} {c : Command}
    (hTexts : (known.map fun c => (c.request d t).sql).Nodup) (hMem : c ∈ known)
    (hKey : ∀ held, c = .count held → held.columns = t.key) :
    (ofStore s d t known).Executes s d t c := by
  have hKnown : (known.find? fun c' => (c'.request d t).sql == (c.request d t).sql) = some c := by
    cases hFind : known.find? fun c' => (c'.request d t).sql == (c.request d t).sql with
    | none => exact absurd (beq_self_eq_true _) (List.find?_eq_none.mp hFind c hMem)
    | some c' =>
        have hSame : (c'.request d t).sql = (c.request d t).sql := by
          simpa using List.find?_some hFind
        rw [List.inj_on_of_nodup_map hTexts (List.mem_of_find?_eq_some hFind) hMem hSame]
  intro rows rows' hUnique hRun
  rw [ofStore, hKnown]
  cases c with
  | count held =>
      have hTotal := Store.total_le_one hUnique (hKey held rfl)
      have hHolds : IntegerKind.uint64.Holds (s.total held rows : Int) := by
        simp only [IntegerKind.Holds, IntegerKind.least, IntegerKind.greatest]
        omega
      have hFits : Integer.ofInt? .uint64 (s.total held rows) = some ⟨_, hHolds⟩ :=
        Integer.ofInt?_eq_some_iff.mpr rfl
      refine ⟨⟨_, ⟨_, hHolds⟩, rfl, ?_, rfl⟩, Option.some.inj hRun⟩
      rw [hFits, List.head?_cons, Option.getD_some, Ty.toInteger, hFits]
      rfl
  | insert | upsert | update =>
      refine ⟨fun f hFailed => absurd hFailed List.not_mem_nil, ?_⟩
      exact congrArg (Option.getD · rows) hRun

/-- The wire leads to the engine, which began with some rows and has others now. -/
structure Serves (first now : List Cells) (w : Wire) : Prop where
  answer : w.answer = (E.wire w.mode first).answer
  rows : E.after first w.sent = now

variable {E} {first now : List Cells} {w : Wire}

/-- A fresh wire serves the rows the store begins with. -/
theorem serves_wire (mode : Mode) (rows : List Cells) : E.Serves rows rows (E.wire mode rows) :=
  ⟨rfl, rfl⟩

/-- One request. -/
theorem Serves.ask (h : E.Serves first now w) (enough : Nat → Row → Bool) (request : Request) :
    (w.ask enough request).1 = (Wire.deliver w.mode enough (E request now).1).1 ∧
      E.Serves first (E request now).2 (w.ask enough request).2 := by
  have hAnswer : w.answer (w.sent ++ [request]) = (E request now).1 := by
    rw [h.answer, ← h.rows]
    simp [wire]
  refine ⟨by rw [Wire.ask, hAnswer], h.answer, ?_⟩
  change E.after first (w.sent ++ [request]) = _
  rw [after, List.foldl_concat, ← h.rows]
  rfl

/-- A command the store answers is reported as done, and the store goes on from there. -/
theorem Serves.modified (h : E.Serves first now w) (site : Site) {request : Request}
    (hTold : ∀ f, .failure f ∉ (E request now).1) :
    ∃ n w', (Exchange.modified site request).runOver w = (.ok n, w') ∧
      E.Serves first (E request now).2 w' := by
  obtain ⟨hDelivered, hServes⟩ := h.ask (fun _ _ => false) request
  have hNone : (w.ask (fun _ _ => false) request).1.failure = none := by
    rw [hDelivered, Option.eq_none_iff_forall_ne_some]
    exact fun f hFailed => hTold f (Wire.mem_of_deliver hFailed)
  rw [Exchange.modified, Exchange.runOver_bind, Exchange.execute, Exchange.runOver_mk]
  generalize w.ask (fun _ _ => false) request = asked at hNone hServes ⊢
  obtain ⟨delivery, w'⟩ := asked
  dsimp only at hNone ⊢
  rw [hNone]
  exact ⟨_, w', rfl, hServes⟩

/-- A statement that the engine carries out, other than a count. -/
theorem Serves.executed {s : Store} {d : Dialect} {t : Table} {c : Command} {rows' : List Cells}
    (h : E.Serves first now w) (site : Site) (hExecutes : E.Executes s d t c)
    (hModifies : ∀ held, c ≠ .count held) (hUnique : s.Unique t now)
    (hRun : s.run t now c = some rows') :
    ∃ n w', (Exchange.modified site (c.request d t)).runOver w = (.ok n, w') ∧
      E.Serves first rows' w' := by
  obtain ⟨hTold, rfl⟩ := hExecutes now rows' hUnique hRun
  cases c with
  | count held => exact absurd rfl (hModifies held)
  | insert | upsert | update => exact h.modified site hTold

/-- A count the store answers is reported, and the store goes on from there. -/
theorem Serves.counted (h : E.Serves first now w) (site : Site) {request : Request} {row : Row}
    {n : Integer .uint64} (hReply : (E request now).1 = [.row row])
    (hRead : Ty.toInteger .uint64 (row.values.head?.getD .null) = .ok n) :
    ∃ w', (Exchange.counted site request).runOver w = (.ok n.val.toNat, w') ∧
      E.Serves first (E request now).2 w' := by
  obtain ⟨hDelivered, hServes⟩ := h.ask (fun _ _ => true) request
  have hRow : (w.ask (fun _ _ => true) request).1 = { rows := [row] } := by
    rw [hDelivered, hReply]
    cases w.mode <;> rfl
  have hTotal : Query.total site row = .ok n.val.toNat := by rw [Query.total, hRead]
  rw [Exchange.counted, Exchange.runOver_bind, Exchange.fetchFirst, Exchange.runOver_bind,
    Exchange.fetch, Exchange.runOver_mk, Wire.fetch]
  generalize w.ask (fun _ _ => true) request = asked at hRow hServes ⊢
  obtain ⟨delivery, w'⟩ := asked
  obtain rfl : delivery = { rows := [row] } := hRow
  refine ⟨w', ?_, hServes⟩
  change (Exchange.ofResult (Query.total site row)).runOver w' = _
  rw [hTotal]
  rfl

end Engine

end SqlMapper
