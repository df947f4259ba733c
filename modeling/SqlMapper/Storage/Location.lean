import SqlMapper.Failure

/-!
# Locations of databases

A location names a scheme and what stands behind it: the mark of a database that lives in memory
only, or the path of a file. Files are out of reach here, so that opening one fails.
-/

namespace SqlMapper.Storage

/-- Where a database lives. -/
inductive Location where
  | memory
  | file (path : String)
  deriving DecidableEq, Repr

namespace Location

/-- What every location begins with, in exactly this letter case. -/
def scheme : String := "sqlite://"

/-- What stands behind the scheme for a database in memory. -/
def memoryMark : String := ":memory:"

/-- The rest of a text behind its beginning. -/
def behind? : (beginning text : List Char) → Option (List Char)
  | [], cs => some cs
  | b :: bs, c :: cs => if b = c then behind? bs cs else none
  | _ :: _, [] => none

def read (url : String) : Except Fault Location :=
  match behind? scheme.toList url.toList with
  | none => .error (.url scheme)
  | some target =>
    if String.ofList target = memoryMark then .ok memory else .ok (file (String.ofList target))

def connect (url : String) : Result Unit :=
  match read url with
  | .error e => .error (.fault e)
  | .ok memory => .ok ()
  | .ok (file path) =>
    .error (.reported (.fault (.opening path))
      [.fault (.reply ("unable to open database file: " ++ path)),
        .fault (.reply "Error code 14: Unable to open the database file")])

/-- A rest is what stands behind the beginning, and nothing else. -/
theorem behind?_eq_some_iff (beginning text rest : List Char) :
    behind? beginning text = some rest ↔ text = beginning ++ rest := by
  induction beginning generalizing text with
  | nil => simp [behind?, eq_comm]
  | cons b bs ih =>
    cases text with
    | nil => simp [behind?]
    | cons c cs =>
      by_cases h : b = c
      · simp [behind?, h, ih]
      · simp [behind?, h, Ne.symm h]

/-- How a location is written. -/
def url : Location → String
  | memory => scheme ++ memoryMark
  | file path => scheme ++ path

/-- A text names the location that is written so. No file is named like the mark of the memory. -/
theorem read_eq_ok_iff {text : String} {l : Location} :
    read text = .ok l ↔ text = l.url ∧ l ≠ file memoryMark := by
  rw [read]
  cases hBehind : behind? scheme.toList text.toList with
  | none =>
    have hOther (target : String) : text ≠ scheme ++ target := by
      rintro rfl
      rw [String.toList_append, (behind?_eq_some_iff _ _ target.toList).mpr rfl] at hBehind
      cases hBehind
    simp only [reduceCtorEq, false_iff, not_and]
    rintro rfl
    cases l with
    | memory => exact absurd rfl (hOther memoryMark)
    | file path => exact absurd rfl (hOther path)
  | some target =>
    have hText : text = scheme ++ String.ofList target := by
      rw [← String.toList_inj, (behind?_eq_some_iff _ _ _).mp hBehind, String.toList_append,
        String.toList_ofList]
    have hSame (target' : String) : text = scheme ++ target' ↔ String.ofList target = target' := by
      rw [hText, String.append_right_inj]
    dsimp only
    split
    next hMemory =>
      cases l with
      | memory => simp [url, hText, hMemory]
      | file path => simp [url, hSame, hMemory, eq_comm]
    next hFile =>
      cases l with
      | memory => simp [url, hSame, hFile]
      | file path =>
        rw [Except.ok.injEq, file.injEq, url, hSame, ne_eq, file.injEq]
        exact ⟨fun h => ⟨h, h ▸ hFile⟩, And.left⟩

/-- Only the database in memory can be opened. -/
theorem connect_eq_ok_iff {text : String} : connect text = .ok () ↔ text = memory.url := by
  have hRead : connect text = .ok () ↔ read text = .ok memory := by
    rw [connect]
    cases read text with
    | error e => simp
    | ok l => cases l <;> simp
  rw [hRead, read_eq_ok_iff, and_iff_left (by simp)]

end Location

end SqlMapper.Storage
