import Mathlib.Data.List.Infix
import Mathlib.Data.UInt
import SqlMapper.Proofs.Exchange.Executor
import SqlMapper.Proofs.Record.Partition

/-! Batches over a wire. A batch sends its statements in order until one fails. The report of the
failure tells how many records were written before, and what is left of the batch can be inserted by
another one. -/
namespace SqlMapper

namespace Wire

theorem length_replies (w : Wire) (sent rs : List Request) :
    (w.replies sent rs).length = rs.length := by
  induction rs generalizing sent with
  | nil => rfl
  | cons r rs ih => exact congrArg (· + 1) (ih (sent ++ [r]))

/-- The wire behind a request whose reply was taken to its end. -/
abbrev after (w : Wire) (r : Request) : Wire := (w.ask (fun _ _ => false) r).2

theorem sent_after (w : Wire) (r : Request) : (w.after r).sent = w.sent ++ [r] := rfl

/-- What later requests are answered does not change when one more is counted as sent. -/
theorem replies_after (w : Wire) (r : Request) (sent rs : List Request) :
    (w.after r).replies sent rs = w.replies sent rs := by
  induction rs generalizing sent with
  | nil => rfl
  | cons next rs ih => exact congrArg (w.outcome (sent ++ [next]) :: ·) (ih (sent ++ [next]))

end Wire

namespace Repository

variable {e : Entity} {r : Repository e} {records : List (Record e)} {n k total : Nat}
  {size : Option Nat} {compiled : List (List Request)} {w : Wire} {effects : List Affected}
  {site : Site} {completed : UInt64} {listed : List (Nat × Request)}

/-! ### Runs of statements -/

/-- What a batch makes of the result of a statement. -/
def afterStatement (site : Site) (total : Nat) (completed : UInt64) (index : Nat)
    (later : List (Nat × Request)) : Result Affected → Wire → Result UInt64 × Wire
  | .error failure, w => (.error (failure.under (.batch ⟨completed, index, total⟩)), w)
  | .ok a, w => (runBatch site total (completed + a.rows) later).runOver w

theorem runOver_runBatch_cons (site : Site) (total : Nat) (completed : UInt64) (index : Nat)
    (request : Request) (later : List (Nat × Request)) (w : Wire) :
    (runBatch site total completed ((index, request) :: later)).runOver w =
      afterStatement site total completed index later
        ((Exchange.execute site request).runOver w).1
        ((Exchange.execute site request).runOver w).2 := by
  rw [runBatch, Exchange.runOver_mk]
  rcases (Exchange.execute site request).runOver w with ⟨_ | _, _⟩ <;> rfl

/-- A batch whose first request is answered goes on with the others. -/
theorem runOver_runBatch_ok {index : Nat} {request : Request} {later : List (Nat × Request)}
    {a : Affected} (hFirst : w.outcome (w.sent ++ [request]) = .ok a) :
    (runBatch site total completed ((index, request) :: later)).runOver w =
      (runBatch site total (completed + a.rows) later).runOver (w.after request) := by
  rw [runOver_runBatch_cons, Wire.runOver_execute, hFirst]
  rfl

/-- A batch whose first request fails ends there, with the rows written so far. -/
theorem runOver_runBatch_error {index : Nat} {request : Request} {later : List (Nat × Request)}
    {f : Failure} (hFirst : w.outcome (w.sent ++ [request]) = .error f) :
    (runBatch site total completed ((index, request) :: later)).runOver w =
      (.error ((Wire.executionFailure site request f).under (.batch ⟨completed, index, total⟩)),
        w.after request) := by
  rw [runOver_runBatch_cons, Wire.runOver_execute, hFirst]
  rfl

/-- A run whose statements all succeed. -/
theorem runBatch_eq_ok (h : w.replies w.sent (listed.map Prod.snd) = effects.map .ok) :
    ∃ u, (runBatch site total completed listed).runOver w =
        (.ok (completed + (effects.map Affected.rows).sum), u) ∧
      u.sent = w.sent ++ listed.map Prod.snd := by
  induction listed generalizing w completed effects with
  | nil =>
      obtain rfl : effects = [] := by simpa [Wire.replies] using h.symm
      refine ⟨w, ?_, (List.append_nil _).symm⟩
      rw [List.map_nil, List.sum_nil, add_zero]
      rfl
  | cons entry later ih =>
      obtain ⟨index, request⟩ := entry
      cases effects with
      | nil => simp [Wire.replies] at h
      | cons a effects =>
          rw [List.map_cons, List.map_cons, Wire.replies, List.cons.injEq] at h
          obtain ⟨hFirst, hLater⟩ := h
          rw [← Wire.replies_after w request, ← Wire.sent_after w request] at hLater
          obtain ⟨u, hRun, hSent⟩ := ih hLater
          refine ⟨u, ?_, ?_⟩
          · rw [runOver_runBatch_ok hFirst, hRun, List.map_cons, List.sum_cons, add_assoc]
          · rw [hSent, Wire.sent_after, List.append_assoc, List.map_cons, List.singleton_append]

/-- The first statement that fails ends the run. -/
theorem runBatch_eq_error {index : Nat} {request : Request} {f : Failure}
    (hRan : (w.replies w.sent (listed.map Prod.snd)).take k = effects.map .ok)
    (hFailed : (w.replies w.sent (listed.map Prod.snd))[k]? = some (.error f))
    (hListed : listed[k]? = some (index, request)) :
    ∃ u, (runBatch site total completed listed).runOver w =
        (.error ((Wire.executionFailure site request f).under
          (.batch ⟨completed + (effects.map Affected.rows).sum, index, total⟩)), u) ∧
      u.sent = w.sent ++ (listed.map Prod.snd).take (k + 1) := by
  induction listed generalizing w completed effects k with
  | nil => simp at hListed
  | cons entry later ih =>
      obtain ⟨first, opening⟩ := entry
      rw [List.map_cons, Wire.replies] at hRan hFailed
      cases k with
      | zero =>
          obtain ⟨rfl, rfl⟩ : first = index ∧ opening = request := by simpa using hListed
          obtain rfl : effects = [] := by simpa using hRan.symm
          have hFirst : w.outcome (w.sent ++ [opening]) = .error f := by simpa using hFailed
          refine ⟨w.after opening, ?_, rfl⟩
          rw [runOver_runBatch_error hFirst, List.map_nil, List.sum_nil, add_zero]
      | succ k =>
          cases effects with
          | nil => simp at hRan
          | cons a effects =>
              rw [List.take_succ_cons, List.map_cons, List.cons.injEq] at hRan
              rw [List.getElem?_cons_succ] at hFailed hListed
              obtain ⟨hFirst, hRan⟩ := hRan
              rw [← Wire.replies_after w opening, ← Wire.sent_after w opening] at hRan hFailed
              obtain ⟨u, hRun, hSent⟩ := ih hRan hFailed hListed
              refine ⟨u, ?_, ?_⟩
              · rw [runOver_runBatch_ok hFirst, hRun, List.map_cons, List.sum_cons, add_assoc]
              · rw [hSent, Wire.sent_after, List.append_assoc, List.map_cons, List.take_succ_cons,
                  List.singleton_append]

/-! ### Batches -/

/-- Numbering the chunks keeps their requests and the order of these. -/
theorem map_indexed (j : Nat) (compiled : List (List Request)) :
    (indexed j compiled).map Prod.snd = compiled.flatten := by
  induction compiled generalizing j with
  | nil => rfl
  | cons requests compiled ih =>
      rw [indexed, List.map_append, List.map_map, ih, List.flatten_cons]
      exact congrArg (· ++ compiled.flatten) (List.map_id requests)

/-- A statement stands under the index of the chunk that holds it. -/
theorem exists_chunk {j index : Nat} {request : Request}
    (h : (indexed j compiled)[k]? = some (index, request)) :
    ∃ before chunk later, compiled = before ++ chunk :: later ∧ index = j + before.length ∧
      before.flatten.length ≤ k ∧ k < before.flatten.length + chunk.length := by
  induction compiled generalizing j k with
  | nil => simp [indexed] at h
  | cons requests compiled ih =>
      by_cases hHere : k < requests.length
      · rw [indexed, List.getElem?_append_left (by simpa using hHere), List.getElem?_map] at h
        obtain ⟨_, -, hIndex⟩ := Option.map_eq_some_iff.mp h
        refine ⟨[], requests, compiled, rfl, (Prod.mk.inj hIndex).1.symm, ?_, ?_⟩
        · exact Nat.zero_le k
        · simpa using hHere
      · rw [indexed, List.getElem?_append_right (by simpa using hHere), List.length_map] at h
        obtain ⟨before, chunk, later, rfl, hIndex, hLow, hHigh⟩ := ih h
        refine ⟨requests :: before, chunk, later, rfl, ?_, ?_, ?_⟩
        · rw [hIndex, List.length_cons]
          omega
        · rw [List.flatten_cons, List.length_append]
          omega
        · rw [List.flatten_cons, List.length_append]
          omega

/-- A batch that compiles runs its statements in order. -/
theorem runOver_insertBatch (hn : 0 < n) (hSize : size.getD r.chunkSize = n)
    (h : r.compileChunks (chunks n records) = .ok compiled) (w : Wire) :
    (r.insertBatch records size).runOver w =
      (runBatch (r.site .insert) compiled.length 0 (indexed 0 compiled)).runOver w := by
  cases records with
  | nil =>
      obtain rfl := Except.ok.inj h
      rfl
  | cons record records =>
      rw [insertBatch, hSize, if_neg (by simp), if_neg hn.ne', h]
      rfl

/-- A batch all of whose statements succeed. -/
theorem insertBatch_eq_ok (hn : 0 < n) (hSize : size.getD r.chunkSize = n)
    (hCompiled : r.compileChunks (chunks n records) = .ok compiled)
    (hReplies : w.replies w.sent compiled.flatten = effects.map .ok) :
    ∃ u, (r.insertBatch records size).runOver w = (.ok (effects.map Affected.rows).sum, u) ∧
      u.sent = w.sent ++ compiled.flatten := by
  rw [← map_indexed 0] at hReplies
  obtain ⟨u, hRun, hSent⟩ := runBatch_eq_ok hReplies
  rw [map_indexed] at hSent
  refine ⟨u, ?_, hSent⟩
  rw [runOver_insertBatch hn hSize hCompiled, hRun, zero_add]

/-- The sum of counts that report the records of each statement. -/
theorem sum_reported (parts : List (List (Record e))) :
    (parts.map fun part => UInt64.ofNat part.length).sum = UInt64.ofNat parts.flatten.length := by
  induction parts with
  | nil => rfl
  | cons part parts ih =>
      rw [List.map_cons, List.sum_cons, ih, List.flatten_cons, List.length_append, UInt64.ofNat_add]

/-- The statements of a batch that runs to its end partition its records, whatever the size of the
chunks. The count is what the replies report: the count of the records if each reply reports those
of its statement. -/
theorem insertBatch_partition (hn : 0 < n) (hSize : size.getD r.chunkSize = n)
    (hCompiled : r.compileChunks (chunks n records) = .ok compiled)
    (hReplies : w.replies w.sent compiled.flatten = effects.map .ok) :
    ∃ u, (r.insertBatch records size).runOver w = (.ok (effects.map Affected.rows).sum, u) ∧
      u.sent = w.sent ++ compiled.flatten ∧
      r.Partitions n records (r.runs n records) compiled.flatten ∧
      (effects.map Affected.rows = (r.runs n records).map (fun run => UInt64.ofNat run.length) →
        (effects.map Affected.rows).sum = UInt64.ofNat records.length) := by
  obtain ⟨u, hRun, hSent⟩ := insertBatch_eq_ok hn hSize hCompiled hReplies
  refine ⟨u, hRun, hSent, partitions_runs hn hCompiled, ?_⟩
  intro hReported
  rw [hReported, sum_reported, flatten_runs hn]

/-- Three records in chunks of two: one statement of two rows, then one of one row. -/
theorem insertBatch_partition_remainder :
    let e : Entity := ⟨"Product", [⟨"id", .integer .int64⟩, ⟨"name", .option .text⟩]⟩
    let t : Table := { name := "products", columns := [
      (Column.ofTy "ID" (.integer .int64)).asKey,
      { Column.ofTy "label" .text with mappedTo := "NAME" },
      .ofTy "note" .text] }
    let r : Repository e := ⟨t, .generic, (t.mapping e.name e.propertyNames).1, 100⟩
    let product (id : Integer .int64) : Record e := ⟨(id, some "ink", ())⟩
    let records := [product ⟨1, by decide⟩, product ⟨2, by decide⟩, product ⟨3, by decide⟩]
    let w := Wire.scripted .blocking [[.affected ⟨2, none⟩], [.affected ⟨1, some 3⟩]]
    ∃ first second u, (r.insertBatch records (some 2)).runOver w = (.ok 3, u) ∧
      u.sent = [first, second] ∧
      r.Partitions 2 records (r.runs 2 records) [first, second] := by
  intro e t r product records w
  obtain ⟨first, second, hCompiled⟩ :
    ∃ first second, r.compileChunks (chunks 2 records) = .ok [[first], [second]] := ⟨_, _, rfl⟩
  have hReplies : w.replies w.sent [first, second] = [⟨2, none⟩, ⟨1, some 3⟩].map .ok := rfl
  obtain ⟨u, hRun, hSent, hPartitions, hCount⟩ :=
    insertBatch_partition (by decide) (Option.getD_some ..) hCompiled hReplies
  rw [hCount rfl] at hRun
  exact ⟨_, _, u, hRun, hSent, hPartitions⟩

/-- The requests insert some records, one run of them after another. -/
def Writes (r : Repository e) (records : List (Record e)) (requests : List Request) : Prop :=
  ∃ parts, List.Forall₂ r.Inserts parts requests ∧ parts.flatten = records

/-- What two runs of requests write, they write one after the other. -/
theorem Writes.append {front back : List (Record e)} {earlier later : List Request}
    (hFront : r.Writes front earlier) (hBack : r.Writes back later) :
    r.Writes (front ++ back) (earlier ++ later) := by
  obtain ⟨parts, hParts, rfl⟩ := hFront
  obtain ⟨parts', hParts', rfl⟩ := hBack
  exact ⟨parts ++ parts', List.rel_append hParts hParts', List.flatten_append⟩

/-- The records of the first requests are the first records. -/
theorem isPrefix_take_runs (hn : 0 < n) (records : List (Record e)) (k : Nat) :
    ((r.runs n records).take k).flatten <+: records := by
  have hFront := List.IsPrefix.flatten (List.take_prefix k (r.runs n records))
  rwa [flatten_runs hn] at hFront

/-- The first statements of a batch write as many of its records as they hold. -/
theorem writes_take (hn : 0 < n) (h : r.compileChunks (chunks n records) = .ok compiled) (k : Nat) :
    r.Writes (records.take ((r.runs n records).take k).flatten.length) (compiled.flatten.take k) := by
  refine ⟨(r.runs n records).take k, List.forall₂_take k (forall₂_inserts hn h), ?_⟩
  exact List.prefix_iff_eq_take.mp (isPrefix_take_runs hn records k)

/-- Whatever is left of a batch that compiles can be inserted by a batch of its own, in chunks of any
size. -/
theorem exists_rest {n' : Nat} {size' : Option Nat} (hn : 0 < n)
    (hCompiled : r.compileChunks (chunks n records) = .ok compiled) (hSome : records ≠ [])
    (hn' : 0 < n') (hSize' : size'.getD r.chunkSize = n') (m : Nat) :
    ∃ rest, r.Writes (records.drop m) rest ∧
      ∀ (w : Wire) (effects : List Affected), w.replies w.sent rest = effects.map .ok →
        ∃ u, (r.insertBatch (records.drop m) size').runOver w =
            (.ok (effects.map Affected.rows).sum, u) ∧
          u.sent = w.sent ++ rest := by
  have hChunks : ∀ c ∈ chunks n records, c ≠ [] := fun c hc => (of_mem_chunks hn records c hc).1
  have hFirst : chunks n records ≠ [] := by
    intro hNone
    rw [← flatten_chunks hn records, hNone] at hSome
    exact hSome rfl
  obtain ⟨columns, types, hFills⟩ := fills_of_compileChunks hChunks hFirst hCompiled
  have hRest := compileChunks_eq hFills fun c hc => (of_mem_chunks hn' (records.drop m) c hc).1
  refine ⟨_, ⟨_, forall₂_inserts hn' hRest, flatten_runs hn' _⟩, ?_⟩
  intro w effects hReplies
  exact insertBatch_eq_ok hn' hSize' hRest hReplies

/-- What a batch reports that fails at the statement `k`, counted from zero. -/
structure Accounts (r : Repository e) (n k : Nat) (records : List (Record e))
    (compiled : List (List Request)) (batch : BatchFailure) (m : Nat) : Prop where
  chunks_eq : batch.chunks = (chunks n records).length
  /-- The failed chunk holds the statement. -/
  failedChunk_eq : ∃ before chunk later, compiled = before ++ chunk :: later ∧
    batch.failedChunk = before.length ∧
    before.flatten.length ≤ k ∧ k < before.flatten.length + chunk.length
  completed_eq : batch.completed = UInt64.ofNat m
  le : m ≤ records.length
  /-- The statements before it wrote the first records, as many as the report tells. -/
  writes : r.Writes (records.take m) (compiled.flatten.take k)

/-- A batch whose statement fails reports what was written, if its earlier statements reported their
records. Nothing is sent after the failure. So a batch of the records that are left, in chunks of any
size, completes the first one. -/
theorem insertBatch_resumable {top : Layer} {beneath : List Layer} (hn : 0 < n)
    (hSize : size.getD r.chunkSize = n)
    (hCompiled : r.compileChunks (chunks n records) = .ok compiled)
    (hRan : (w.replies w.sent compiled.flatten).take k = effects.map .ok)
    (hReported : effects.map Affected.rows =
      ((r.runs n records).take k).map fun run => UInt64.ofNat run.length)
    (hFailed : (w.replies w.sent compiled.flatten)[k]? = some (.error (.reported top beneath))) :
    ∃ request batch u m, compiled.flatten[k]? = some request ∧
      (r.insertBatch records size).runOver w =
        (.error (.reported (.batch batch)
          (.execution (r.site .insert) request :: top :: beneath)), u) ∧
      u.sent = w.sent ++ compiled.flatten.take (k + 1) ∧
      r.Accounts n k records compiled batch m ∧
      ∀ size', 0 < size'.getD r.chunkSize →
        ∃ rest, r.Writes records (compiled.flatten.take k ++ rest) ∧
          ∀ (w' : Wire) (effects' : List Affected), w'.replies w'.sent rest = effects'.map .ok →
            ∃ u', (r.insertBatch (records.drop m) size').runOver w' =
                (.ok (effects'.map Affected.rows).sum, u') ∧
              u'.sent = w'.sent ++ rest := by
  have hk : k < compiled.flatten.length := by
    rw [← Wire.length_replies w w.sent]
    exact (List.getElem?_eq_some_iff.mp hFailed).1
  have hSome : records ≠ [] := by
    rintro rfl
    obtain rfl := Except.ok.inj hCompiled
    exact absurd hk (Nat.not_lt_zero k)
  rw [← map_indexed 0] at hRan hFailed hk
  rw [List.length_map] at hk
  obtain ⟨⟨index, request⟩, hListed⟩ : ∃ entry, (indexed 0 compiled)[k]? = some entry :=
    ⟨_, List.getElem?_eq_getElem hk⟩
  obtain ⟨u, hRun, hSent⟩ := runBatch_eq_error hRan hFailed hListed
  have hWrites := writes_take hn hCompiled k
  refine ⟨request, ⟨_, index, compiled.length⟩, u, ((r.runs n records).take k).flatten.length, ?_,
    (runOver_insertBatch hn hSize hCompiled w).trans hRun, ?_, ⟨?_, ?_, ?_, ?_, hWrites⟩, ?_⟩
  · rw [← map_indexed 0, List.getElem?_map, hListed]
    rfl
  · rw [hSent, map_indexed]
  · exact (forall₂_compileChunks hCompiled).length_eq.symm
  · obtain ⟨before, chunk, later, hChunk, hIndex, hHolds⟩ := exists_chunk hListed
    exact ⟨before, chunk, later, hChunk, by rw [hIndex, Nat.zero_add], hHolds⟩
  · rw [hReported, sum_reported, zero_add]
  · exact (isPrefix_take_runs hn records k).length_le
  · intro size' hn'
    obtain ⟨rest, hRest, hRuns⟩ := exists_rest hn hCompiled hSome hn' rfl
      ((r.runs n records).take k).flatten.length
    refine ⟨rest, ?_, hRuns⟩
    have hAll := hWrites.append hRest
    rwa [List.take_append_drop] at hAll

/-- A failure in the middle of a chunk, in a dialect that inserts one row at a time. One of two records
of the first chunk is written, so the report tells one. -/
theorem insertBatch_resumable_midChunk :
    let e : Entity := ⟨"Product", [⟨"id", .integer .int64⟩, ⟨"price", .decimal⟩]⟩
    let t : Table := { name := "products", columns := [
      (Column.ofTy "id" (.integer .int64)).asKey,
      .ofTy "price" .decimal,
      { Column.ofTy "list_price" .decimal with mappedTo := "price" }] }
    let r : Repository e :=
      ⟨t, { Dialect.generic with multiRow := false }, (t.mapping e.name e.propertyNames).1, 2⟩
    let product (id : Integer .int64) : Record e := ⟨(id, Decimal.zero, ())⟩
    let records := [product ⟨1, by decide⟩, product ⟨2, by decide⟩, product ⟨3, by decide⟩]
    let w := Wire.scripted .native [[.affected ⟨1, some 1⟩], [.failure (Failure.fault (.reply "full"))]]
    ∃ compiled request u m, r.compileChunks (chunks 2 records) = .ok compiled ∧
      (r.insertBatch records none).runOver w =
        (.error (.reported (.batch ⟨1, 0, 2⟩)
          [.execution (r.site .insert) request, .fault (.reply "full")]), u) ∧
      r.Accounts 2 1 records compiled ⟨1, 0, 2⟩ m := by
  intro e t r product records w
  obtain ⟨first, second, third, hCompiled⟩ : ∃ first second third,
    r.compileChunks (chunks 2 records) = .ok [[first, second], [third]] := ⟨_, _, _, rfl⟩
  have hRan : (w.replies w.sent [first, second, third]).take 1 = [⟨1, some 1⟩].map .ok := rfl
  obtain ⟨request, batch, u, m, -, hRun, -, hAccounts, -⟩ :=
    insertBatch_resumable (by decide) (Option.getD_none ..) hCompiled hRan rfl rfl
  have hError := Except.error.inj (congrArg Prod.fst hRun)
  obtain rfl : ⟨1, 0, 2⟩ = batch := Layer.batch.inj (Failure.reported.inj hError).1
  exact ⟨_, request, u, m, hCompiled, hRun, hAccounts⟩

end Repository

end SqlMapper
