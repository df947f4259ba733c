import SqlMapper.Proofs.Record.Insertion

/-! Batches cut into statements. The records of the statements, one after another, are the records of
the batch, whatever the size of the chunks. -/
namespace SqlMapper.Repository

/-! ### Chunks -/

section Chunks

variable {α : Type} {n : Nat}

/-- What holds of no chunks, and of one chunk more in front of those of the rest, holds of all. -/
theorem chunks_induction {motive : List α → List (List α) → Prop} (hn : 0 < n)
    (hNil : motive [] [])
    (hCons : ∀ xs later, xs ≠ [] → motive (xs.drop n) later → motive xs (xs.take n :: later))
    (xs : List α) : motive xs (chunks n xs) := by
  -- The fuel outlasts the list, since every chunk takes something of it.
  suffices h : ∀ fuel xs, xs.length ≤ fuel → motive xs (chunksFrom n fuel xs) from
    h xs.length xs (Nat.le_refl _)
  intro fuel
  induction fuel with
  | zero =>
      intro xs hFuel
      obtain rfl := List.eq_nil_of_length_eq_zero (Nat.le_zero.mp hFuel)
      exact hNil
  | succ fuel ih =>
      intro xs hFuel
      cases xs with
      | nil => exact hNil
      | cons x xs =>
          refine hCons (x :: xs) _ (List.cons_ne_nil x xs) (ih _ ?_)
          rw [List.length_drop]
          rw [List.length_cons] at hFuel ⊢
          omega

/-- Chunks are the list, cut. -/
theorem flatten_chunks (hn : 0 < n) (xs : List α) : (chunks n xs).flatten = xs := by
  refine chunks_induction (motive := fun xs cs => cs.flatten = xs) hn rfl ?_ xs
  intro xs later _ ih
  rw [List.flatten_cons, ih, List.take_append_drop]

/-- No chunk is empty and none is longer than asked. -/
theorem of_mem_chunks (hn : 0 < n) (xs : List α) : ∀ c ∈ chunks n xs, c ≠ [] ∧ c.length ≤ n := by
  refine chunks_induction (motive := fun _ cs => ∀ c ∈ cs, c ≠ [] ∧ c.length ≤ n) hn (by simp) ?_ xs
  intro xs later hSome ih
  rw [List.forall_mem_cons]
  have hTaken : xs.take n ≠ [] := by
    rw [ne_eq, List.take_eq_nil_iff, not_or]
    exact ⟨hn.ne', hSome⟩
  exact ⟨⟨hTaken, List.length_take_le n xs⟩, ih⟩

/-- The size goes into the length that often, rounded up. -/
theorem length_chunks (hn : 0 < n) (xs : List α) :
    (chunks n xs).length = (xs.length + n - 1) / n := by
  refine chunks_induction (motive := fun xs cs => cs.length = (xs.length + n - 1) / n) hn ?_ ?_ xs
  · rw [List.length_nil, List.length_nil, Nat.div_eq_of_lt (by omega)]
  · intro xs later hSome ih
    have hLength := List.length_pos_of_ne_nil hSome
    have hRest : (xs.length - n + n - 1) / n = (xs.length - 1) / n := by
      by_cases hFull : n ≤ xs.length
      · rw [Nat.sub_add_cancel hFull]
      · rw [Nat.div_eq_of_lt (by omega), Nat.div_eq_of_lt (by omega)]
    calc
      (xs.take n :: later).length = (xs.length - n + n - 1) / n + 1 := by
        rw [List.length_cons, ih, List.length_drop]
      _ = (xs.length - 1 + n) / n := by rw [hRest, Nat.add_div_right _ hn]
      _ = (xs.length + n - 1) / n := by rw [Nat.sub_add_comm hLength]

end Chunks

/-! ### Statements -/

variable {e : Entity} {r : Repository e} {n : Nat} {records : List (Record e)}
  {chunked : List (List (Record e))} {compiled : List (List Request)}

/-- The records of each statement of a batch. -/
def runs (r : Repository e) (n : Nat) (records : List (Record e)) : List (List (Record e)) :=
  (chunks n records).flatMap r.shares

/-- The shares of the statements are the records, cut. -/
theorem flatten_shares (records : List (Record e)) : (r.shares records).flatten = records := by
  rw [shares]
  split
  · exact List.flatten_singleton
  · rw [← List.flatMap_def, List.flatMap_singleton']

/-- The runs of a batch are the records, cut. -/
theorem flatten_runs (hn : 0 < n) (records : List (Record e)) :
    (r.runs n records).flatten = records := by
  have hShares : List.flatten ∘ r.shares = id := funext flatten_shares
  rw [runs, List.flatMap_def, List.flatten_flatten, List.map_map, hShares, List.map_id,
    flatten_chunks hn]

/-- One statement for each chunk, or one for each record. -/
theorem length_runs (hn : 0 < n) (records : List (Record e)) :
    (r.runs n records).length =
      if r.dialect.multiRow then (records.length + n - 1) / n else records.length := by
  cases hMulti : r.dialect.multiRow with
  | true => simp [runs, shares, hMulti, length_chunks hn]
  | false =>
      have hFlatten := congrArg List.length (flatten_chunks hn records)
      rw [List.length_flatten] at hFlatten
      simp [runs, shares, hMulti, List.length_flatMap, hFlatten]

/-- A run is a chunk at most, and one record where rows cannot be inserted together. -/
theorem length_of_mem_runs (hn : 0 < n) (records : List (Record e)) :
    ∀ run ∈ r.runs n records, if r.dialect.multiRow then run.length ≤ n else run.length = 1 := by
  intro run hRun
  obtain ⟨c, hc, hShare⟩ := List.mem_flatMap.mp hRun
  rw [shares] at hShare
  split at hShare
  next hMulti =>
    rw [if_pos hMulti, List.mem_singleton.mp hShare]
    exact (of_mem_chunks hn records c hc).2
  next hMulti =>
    obtain ⟨record, -, rfl⟩ := List.mem_map.mp hShare
    rw [if_neg hMulti, List.length_singleton]

/-- The request inserts some records: one row for each of them, in order, with the values of the
mapped columns in column order. -/
def Inserts (r : Repository e) (records : List (Record e)) (request : Request) : Prop :=
  ∃ columns types, r.Fills columns types ∧ request = r.statement columns types records ∧
    request.values = records.flatMap r.rowOf

/-- Chunks that compile all fill the same columns. -/
theorem fills_of_compileChunks (hSome : ∀ c ∈ chunked, c ≠ []) (hFirst : chunked ≠ [])
    (h : r.compileChunks chunked = .ok compiled) : ∃ columns types, r.Fills columns types := by
  obtain ⟨c, chunked, rfl⟩ := List.exists_cons_of_ne_nil hFirst
  rw [compileChunks, Result.bind_eq_ok_iff] at h
  obtain ⟨requests, hCompile, -⟩ := h
  exact fills_of_compile (hSome c (List.mem_cons_self ..)) hCompile

/-- Every chunk compiles to one statement for each of its shares. -/
theorem compileChunks_eq {columns : List Column} {types : List String}
    (hFills : r.Fills columns types) (hSome : ∀ c ∈ chunked, c ≠ []) :
    r.compileChunks chunked =
      .ok (chunked.map fun c => (r.shares c).map (r.statement columns types)) := by
  induction chunked with
  | nil => rfl
  | cons c chunked ih =>
      rw [List.forall_mem_cons] at hSome
      rw [compileChunks, compile_insertion hFills hSome.1, ih hSome.2]
      rfl

/-- The statements of a batch insert its records. -/
theorem forall₂_inserts (hn : 0 < n) (h : r.compileChunks (chunks n records) = .ok compiled) :
    List.Forall₂ r.Inserts (r.runs n records) compiled.flatten := by
  have hSome : ∀ c ∈ chunks n records, c ≠ [] := fun c hc => (of_mem_chunks hn records c hc).1
  by_cases hFirst : chunks n records = []
  · rw [hFirst] at h
    obtain rfl := Except.ok.inj h
    rw [runs, hFirst]
    exact .nil
  · obtain ⟨columns, types, hFills⟩ := fills_of_compileChunks hSome hFirst h
    rw [compileChunks_eq hFills hSome] at h
    obtain rfl := Except.ok.inj h
    rw [runs, ← List.flatMap_def, ← List.map_flatMap, List.forall₂_map_right_iff,
      List.forall₂_same]
    intro run _
    exact ⟨columns, types, hFills, rfl, values_statement hFills run⟩

/-- What a compiled chunk is. -/
theorem forall₂_compileChunks (h : r.compileChunks chunked = .ok compiled) :
    List.Forall₂ (fun c requests => (r.insertion c).compile = .ok requests) chunked compiled := by
  induction chunked generalizing compiled with
  | nil =>
      obtain rfl := Except.ok.inj h
      exact .nil
  | cons c chunked ih =>
      rw [compileChunks, Result.bind_eq_ok_iff] at h
      obtain ⟨requests, hCompile, h⟩ := h
      rw [Result.bind_eq_ok_iff] at h
      obtain ⟨later, hLater, h⟩ := h
      obtain rfl := Except.ok.inj h
      exact .cons hCompile (ih hLater)

/-- Runs of records, one for each of some requests, that make up a batch. -/
structure Partitions (r : Repository e) (n : Nat) (records : List (Record e))
    (parts : List (List (Record e))) (requests : List Request) : Prop where
  /-- The requests insert the runs. -/
  inserts : List.Forall₂ r.Inserts parts requests
  /-- No record is lost, repeated or moved. -/
  flatten : parts.flatten = records
  /-- Nor is a value that is bound. -/
  values : requests.flatMap Request.values = records.flatMap r.rowOf
  /-- A dialect with insertions of many rows sends one for each chunk, another one for each record. -/
  count : requests.length =
    if r.dialect.multiRow then (records.length + n - 1) / n else records.length
  size : ∀ part ∈ parts, if r.dialect.multiRow then part.length ≤ n else part.length = 1

/-- The values sent are those of the rows, in order. -/
theorem Inserts.flatMap_values {parts : List (List (Record e))} {requests : List Request}
    (h : List.Forall₂ r.Inserts parts requests) :
    requests.flatMap Request.values = parts.flatten.flatMap r.rowOf := by
  induction h with
  | nil => rfl
  | cons hFirst _ ih =>
      obtain ⟨_, _, _, _, hValues⟩ := hFirst
      rw [List.flatMap_cons, hValues, ih, List.flatten_cons, List.flatMap_append]

/-- The requests of a batch carry its records, run by run. -/
theorem partitions_runs (hn : 0 < n) (h : r.compileChunks (chunks n records) = .ok compiled) :
    r.Partitions n records (r.runs n records) compiled.flatten := by
  have hInserts := forall₂_inserts hn h
  have hFlatten := flatten_runs (r := r) hn records
  refine ⟨hInserts, hFlatten, ?_, ?_, length_of_mem_runs hn records⟩
  · rw [Inserts.flatMap_values hInserts, hFlatten]
  · rw [← hInserts.length_eq, length_runs hn]

end SqlMapper.Repository
