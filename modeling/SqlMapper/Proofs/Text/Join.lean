import SqlMapper.Text.Join

/-! Separated writing. A text grows by what the items append and by separators. A separator is put as soon
as another item follows an output, and not only when another output does, so behind the last output there
is one too many if the items that are left append nothing. -/
namespace SqlMapper.Text

universe u v

/-- The outputs that are not empty, with the separator between each two consecutive ones. -/
def joined (separator : String) (outputs : List String) : String :=
  separator.intercalate (outputs.filter (· ≠ ""))

/-- What another item finds behind the outputs: the separator, if there is one that is not empty. -/
def separatorAfter (separator : String) (outputs : List String) : String :=
  if outputs.any (· ≠ "") then separator else ""

/-- What stands behind the last output that is not empty: nothing if the last item wrote it, else the
separator that the item after it has found. -/
def leftOver (separator : String) (outputs : List String) : String :=
  if outputs.getLast?.any (· ≠ "") then "" else separatorAfter separator outputs

/-- What the items append, behind the outputs of earlier ones. Each is given the text as it finds it. -/
def outputsFrom {α : Type u} (append : String → α → String) (separator start : String)
    (earlier : List String) : List α → List String
  | [] => earlier
  | item :: items =>
    let found := start ++ joined separator earlier ++ separatorAfter separator earlier
    outputsFrom append separator start (earlier ++ [append found item]) items

def outputs {α : Type u} (append : String → α → String) (separator start : String) (items : List α) :
    List String :=
  outputsFrom append separator start [] items

variable {α : Type u} {ε : Type v} {separator start : String} {earlier : List String}

/-! ### Outputs -/

/-- Items that write the same wherever they stand write one output each. -/
theorem outputsFrom_eq_append (output : α → String) (earlier : List String) (items : List α) :
    outputsFrom (fun _ item => output item) separator start earlier items =
      earlier ++ items.map output := by
  induction items generalizing earlier with
  | nil => simp [outputsFrom]
  | cons item items ih => simp [outputsFrom, ih]

/-- Items that do not look at the text append what they would anywhere. -/
theorem outputs_eq_map (output : α → String) (separator start : String) (items : List α) :
    outputs (fun _ item => output item) separator start items = items.map output :=
  outputsFrom_eq_append output [] items

theorem separatorAfter_of_last (h : earlier.getLast?.any (· ≠ "") = true) :
    separatorAfter separator earlier = separator := by
  obtain ⟨output, hLast, hSome⟩ := (Option.any_eq_true ..).mp h
  exact if_pos (List.any_eq_true.mpr ⟨output, List.mem_of_getLast? hLast, hSome⟩)

/-- A further output is joined behind the separator of those before. -/
theorem joined_concat {output : String} (h : output ≠ "") :
    joined separator (earlier ++ [output]) =
      joined separator earlier ++ separatorAfter separator earlier ++ output := by
  have hKept : [output].filter (· ≠ "") = [output] := by simp [h]
  rw [joined, joined, separatorAfter, List.filter_append, hKept]
  by_cases hEarlier : earlier.filter (· ≠ "") = []
  · have hNone : earlier.any (· ≠ "") = false := by simpa using hEarlier
    rw [hEarlier, hNone]
    simp
  · have hSome : earlier.any (· ≠ "") = true := by simpa using hEarlier
    rw [String.intercalate_append_of_ne_nil hEarlier (List.cons_ne_nil output []),
      String.intercalate_singleton, hSome]
    rfl

/-- One more item appends its output to what it finds, whether it writes or not. -/
theorem joined_leftOver_concat (separator : String) (earlier : List String) (output : String) :
    joined separator (earlier ++ [output]) ++ leftOver separator (earlier ++ [output]) =
      joined separator earlier ++ separatorAfter separator earlier ++ output := by
  by_cases h : output = ""
  · subst h
    simp [joined, leftOver, separatorAfter]
  · have hNothing : leftOver separator (earlier ++ [output]) = "" := by simp [leftOver, h]
    rw [hNothing, joined_concat h, String.append_empty]

/-! ### Runs -/

/-- The text between two items: what is joined and what is left over. The size that is remembered tells
whether the last item wrote. -/
structure Between (separator start : String) (earlier : List String) (length : Nat) (out : String) :
    Prop where
  text : out = start ++ (joined separator earlier ++ leftOver separator earlier)
  wrote : length < out.utf8ByteSize ↔ earlier.getLast?.any (· ≠ "") = true

/-- Before the first item nothing is found. -/
theorem Between.first : Between separator start [] start.utf8ByteSize start := by
  constructor
  · simp [joined, leftOver, separatorAfter]
  · simp

variable {length : Nat} {out : String}

/-- The next item finds the separator, once something has been written. -/
theorem Between.found_eq (h : Between separator start earlier length out) :
    (if length < out.utf8ByteSize then out ++ separator else out) =
      start ++ joined separator earlier ++ separatorAfter separator earlier := by
  by_cases hWrote : earlier.getLast?.any (· ≠ "") = true
  · have hLeft : leftOver separator earlier = "" := if_pos hWrote
    rw [if_pos (h.wrote.mpr hWrote), separatorAfter_of_last hWrote, h.text, hLeft]
    simp [String.append_assoc]
  · have hLeft : leftOver separator earlier = separatorAfter separator earlier := if_neg hWrote
    rw [if_neg (mt h.wrote.mp hWrote), h.text, hLeft, String.append_assoc]

/-- One item leaves its output, and the separator for the next when it wrote something. -/
theorem Between.next {found : String} (output : String)
    (hFound : found = start ++ joined separator earlier ++ separatorAfter separator earlier) :
    Between separator start (earlier ++ [output]) found.utf8ByteSize (found ++ output) := by
  constructor
  · rw [hFound, joined_leftOver_concat]
    simp [String.append_assoc]
  · have hSize : 0 < output.utf8ByteSize ↔ output ≠ "" := by
      rw [Nat.pos_iff_ne_zero, ne_eq, String.utf8ByteSize_eq_zero_iff]
    rw [String.utf8ByteSize_append, Nat.lt_add_right_iff_pos, hSize]
    simp

variable {write append : String → α → String}

/-- Any items leave their outputs joined, and a separator behind only for the next. -/
theorem Between.run (hAppends : ∀ out item, write out item = out ++ append out item)
    (h : Between separator start earlier length out) (items : List α) :
    ∃ length', Between separator start (outputsFrom append separator start earlier items) length'
      (separatedFrom write separator length out items) := by
  -- Along the items that are left, `Between` tells what those before them have written.
  induction items generalizing earlier length out with
  | nil => exact ⟨length, h⟩
  | cons item items ih =>
      rw [separatedFrom, outputsFrom, hAppends, h.found_eq]
      exact ih (Between.next _ rfl)

/-- A run whose items may fail, and in which none does, writes what the others write. -/
theorem trySeparatedFrom_eq {tryWrite : String → α → String × Option ε}
    (hTry : ∀ out item, (tryWrite out item).2 = none → (tryWrite out item).1 = write out item)
    {items : List α} (h : (trySeparatedFrom tryWrite separator length out items).2 = none) :
    (trySeparatedFrom tryWrite separator length out items).1 =
      separatedFrom write separator length out items := by
  induction items generalizing length out with
  | nil => rfl
  | cons item items ih =>
      rw [trySeparatedFrom] at h ⊢
      rw [separatedFrom]
      split at h
      next written failure hWritten => cases h
      next written hWritten =>
        have hSame := hTry _ item (congrArg Prod.snd hWritten)
        rw [hWritten] at hSame
        rw [← hSame]
        exact ih h

/-- Items that all succeed are all written. -/
theorem trySeparatedFrom_of_none {tryWrite : String → α → String × Option ε} {items : List α}
    (h : ∀ item ∈ items, ∀ out, (tryWrite out item).2 = none) :
    (trySeparatedFrom tryWrite separator length out items).2 = none := by
  induction items generalizing length out with
  | nil => rfl
  | cons item items ih =>
      rw [List.forall_mem_cons] at h
      rw [trySeparatedFrom]
      split
      next written failure hWritten =>
        have hNone := h.1 (if length < out.utf8ByteSize then out ++ separator else out)
        rw [hWritten] at hNone
        cases hNone
      next => exact ih h.2

/-- Items that only append leave the text that they start with, their outputs with the separator between
each two that are not empty, and what is left over behind the last one. If no item fails, neither does
the run whose items may, and a run that does not fail leaves the same. -/
theorem separatedBy_eq_joined (hAppends : ∀ out item, write out item = out ++ append out item)
    (separator start : String) (items : List α) :
    separatedBy write separator start items =
      start ++ joined separator (outputs append separator start items) ++
        leftOver separator (outputs append separator start items) ∧
    ∀ tryWrite : String → α → String × Option ε,
      (∀ out item, (tryWrite out item).2 = none → (tryWrite out item).1 = write out item) →
      ((∀ item ∈ items, ∀ out, (tryWrite out item).2 = none) →
        (trySeparatedBy tryWrite separator start items).2 = none) ∧
      ((trySeparatedBy tryWrite separator start items).2 = none →
        (trySeparatedBy tryWrite separator start items).1 =
          separatedBy write separator start items) := by
  constructor
  · obtain ⟨_, hBetween⟩ := Between.first.run hAppends items
    rw [String.append_assoc]
    exact hBetween.text
  · intro tryWrite hTry
    exact ⟨trySeparatedFrom_of_none, trySeparatedFrom_eq hTry⟩

/-- Items that append nothing, before, between and behind two that do, with writers that refuse a mark
which is not among them. -/
theorem separatedBy_eq_joined_blank :
    let items := ["", "a", "", "", "b", ""]
    let tryWrite (out item : String) : String × Option String :=
      if item = "!" then (out, some "refused") else (out ++ item, none)
    separatedBy (· ++ ·) ", " "(" items = "(" ++ joined ", " items ++ ", " ∧
      joined ", " items = "a, b" ∧ trySeparatedBy tryWrite ", " "(" items = ("(a, b, ", none) := by
  intro items tryWrite
  have hTry (out item : String) (h : (tryWrite out item).2 = none) :
      (tryWrite out item).1 = out ++ item := by
    by_cases hMark : item = "!" <;> simp_all [tryWrite]
  obtain ⟨hText, hRun⟩ := separatedBy_eq_joined (fun _ _ => rfl) ", " "(" items
  obtain ⟨hEnds, hSame⟩ := hRun tryWrite hTry
  have hNone := hEnds (by simp [items, tryWrite])
  have hOutputs : outputs (fun _ item => item) ", " "(" items = items :=
    (outputs_eq_map id ", " "(" items).trans (List.map_id items)
  have hJoined : joined ", " items = "a, b" := by decide
  have hLeft : leftOver ", " items = ", " := by decide
  rw [hOutputs, hLeft] at hText
  refine ⟨hText, hJoined, Prod.ext ?_ hNone⟩
  rw [hSame hNone, hText, hJoined]
  decide

/-- An item that appends nothing does not take its separator back if nothing follows. -/
theorem separatedBy_dangling :
    separatedBy (· ++ ·) ", " "" ["a", ""] ≠
      "" ++ joined ", " (outputs (fun _ item => item) ", " "" ["a", ""]) := by
  decide

end SqlMapper.Text
