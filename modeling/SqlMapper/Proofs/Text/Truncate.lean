import SqlMapper.Proofs.Text.Blank
import SqlMapper.Text.Truncate

/-! Shortened text. What is shown of a text is a beginning of whole characters, cut where a search for a
boundary between characters ends that goes backwards from the last byte that may be shown. -/
namespace SqlMapper.Text

/-- The last boundary between characters at or before a byte, sought backwards from there. None says that
the search runs off the front. -/
def boundaryBefore? (s : String) : Nat → Option Nat
  | 0 => if String.Pos.Raw.isValid s ⟨0⟩ then some 0 else none
  | n + 1 => if String.Pos.Raw.isValid s ⟨n + 1⟩ then some (n + 1) else boundaryBefore? s n

variable {s : String} {limit : Nat} {cs kept rest : List Char}

/-! ### Sizes -/

theorem utf8ByteSize_ofList_append (cs ds : List Char) :
    (String.ofList (cs ++ ds)).utf8ByteSize =
      (String.ofList cs).utf8ByteSize + (String.ofList ds).utf8ByteSize := by
  rw [String.ofList_append, String.utf8ByteSize_append]

theorem utf8ByteSize_ofList_cons (c : Char) (cs : List Char) :
    (String.ofList (c :: cs)).utf8ByteSize = c.utf8Size + (String.ofList cs).utf8ByteSize := by
  rw [← List.singleton_append, utf8ByteSize_ofList_append, ← String.singleton_eq_ofList,
    String.utf8ByteSize_singleton]

/-- Characters are cut behind the last of them that fits. -/
structure Cut (limit : Nat) (cs kept rest : List Char) : Prop where
  text : cs = kept ++ rest
  fits : (String.ofList kept).utf8ByteSize ≤ limit
  next : ∀ c ∈ rest.head?, limit < (String.ofList kept).utf8ByteSize + c.utf8Size

/-- What fits is a first part of the text. -/
theorem exists_cut (limit : Nat) (cs : List Char) : ∃ rest, Cut limit cs (fitting limit cs) rest := by
  induction cs generalizing limit with
  | nil => exact ⟨[], rfl, by simp [fitting], by simp⟩
  | cons c cs ih =>
      by_cases h : c.utf8Size ≤ limit
      · have hFitting : fitting limit (c :: cs) = c :: fitting (limit - c.utf8Size) cs := if_pos h
        obtain ⟨rest, hText, hFits, hNext⟩ := ih (limit - c.utf8Size)
        rw [hFitting]
        refine ⟨rest, by rw [List.cons_append, ← hText], ?_, ?_⟩
        · rw [utf8ByteSize_ofList_cons]
          omega
        · intro d hd
          have hBehind := hNext d hd
          rw [utf8ByteSize_ofList_cons]
          omega
      · have hFitting : fitting limit (c :: cs) = [] := if_neg h
        rw [hFitting]
        refine ⟨c :: cs, rfl, by simp, ?_⟩
        intro d hd
        obtain rfl := Option.some.inj hd
        simpa using h

example : fitting 4 ['a', 'b', '日', 'c'] = ['a', 'b'] := by decide

namespace Cut

/-- The bytes of a text are those kept and those cut. -/
theorem utf8ByteSize_eq (h : Cut limit s.toList kept rest) :
    s.utf8ByteSize = (String.ofList kept).utf8ByteSize + (String.ofList rest).utf8ByteSize := by
  rw [← utf8ByteSize_ofList_append, ← h.text, String.ofList_toList]

/-- Nothing is cut off, or the cut is at most three bytes before the limit and the text goes on behind. -/
theorem cases (h : Cut limit s.toList kept rest) :
    s.utf8ByteSize ≤ limit ∧ rest = [] ∨
      limit < s.utf8ByteSize ∧ rest ≠ [] ∧ limit ≤ (String.ofList kept).utf8ByteSize + 3 := by
  have hBytes := h.utf8ByteSize_eq
  have hFits := h.fits
  cases rest with
  | nil =>
      left
      exact ⟨by simpa [hBytes] using hFits, rfl⟩
  | cons c rest =>
      right
      have hBehind := h.next c rfl
      have hFour := c.utf8Size_le_four
      rw [utf8ByteSize_ofList_cons] at hBytes
      exact ⟨by omega, List.cons_ne_nil c rest, by omega⟩

/-! ### Boundaries -/

/-- A cut is between two characters. -/
theorem boundary (h : Cut limit s.toList kept rest) :
    String.Pos.Raw.IsValid s ⟨(String.ofList kept).utf8ByteSize⟩ := by
  refine String.Pos.Raw.isValid_iff_exists_append.mpr ⟨.ofList kept, .ofList rest, ?_, rfl⟩
  rw [← String.ofList_append, ← h.text, String.ofList_toList]

/-- The character behind the cut goes on beyond the limit, so there is no boundary in between. -/
theorem not_boundary (h : Cut limit s.toList kept rest) {k : Nat}
    (hBehind : (String.ofList kept).utf8ByteSize < k) (hLimit : k ≤ limit) :
    ¬ String.Pos.Raw.IsValid s ⟨k⟩ := by
  intro hValid
  obtain ⟨before, after, hText, hSize⟩ := String.Pos.Raw.isValid_iff_exists_append.mp hValid
  obtain rfl : k = before.utf8ByteSize := congrArg String.Pos.Raw.byteIdx hSize
  have hSame := h.text
  rw [hText, String.toList_append] at hSame
  rw [← String.ofList_toList (s := before)] at hBehind hLimit
  -- A text that ends behind the cut ends behind the next character, too.
  rcases List.append_eq_append_iff.mp hSame with ⟨more, hKept, -⟩ | ⟨more, hBefore, hRest⟩
  · rw [hKept, utf8ByteSize_ofList_append] at hBehind
    omega
  · rw [hBefore, utf8ByteSize_ofList_append] at hBehind hLimit
    cases more with
    | nil => simp at hBehind
    | cons c more =>
        have hNext := h.next c (by rw [hRest]; rfl)
        rw [utf8ByteSize_ofList_cons] at hLimit
        omega

end Cut

/-- The boundary searched for is the last one before the limit. -/
theorem boundaryBefore?_eq {m n : Nat} (hLe : n ≤ m) (hBoundary : String.Pos.Raw.IsValid s ⟨n⟩)
    (hNone : ∀ k, n < k → k ≤ m → ¬ String.Pos.Raw.IsValid s ⟨k⟩) : boundaryBefore? s m = some n := by
  induction m with
  | zero =>
      obtain rfl : n = 0 := by omega
      exact if_pos (String.Pos.Raw.isValid_eq_true_iff.mpr hBoundary)
  | succ m ih =>
      rw [boundaryBefore?]
      by_cases hHere : n = m + 1
      · subst hHere
        exact if_pos (String.Pos.Raw.isValid_eq_true_iff.mpr hBoundary)
      · rw [if_neg (mt String.Pos.Raw.isValid_eq_true_iff.mp (hNone _ (by omega) (Nat.le_refl _)))]
        exact ih (by omega) fun k hk hkm => hNone k hk (by omega)

/-- The search finds the cut. -/
theorem Cut.boundaryBefore?_eq (h : Cut limit s.toList kept rest) :
    boundaryBefore? s (min s.utf8ByteSize limit) = some (String.ofList kept).utf8ByteSize := by
  have hBytes := h.utf8ByteSize_eq
  have hFits := h.fits
  apply Text.boundaryBefore?_eq (by omega) h.boundary
  intro k hBehind hLimit
  exact h.not_boundary hBehind (by omega)

/-! ### What is shown -/

/-- Trailing blanks are dropped all at once. -/
theorem dropBlanksEnd_idem (cs : List Char) : dropBlanksEnd (dropBlanksEnd cs) = dropBlanksEnd cs := by
  apply dropBlanksEnd_eq_self
  intro c hc
  rw [dropBlanksEnd, List.getLast?_reverse, Option.mem_def] at hc
  have hFirst := List.head?_dropWhile_not isBlank cs.reverse
  rwa [hc] at hFirst

/-- The dots stand exactly where the text goes on behind the limit. -/
theorem truncate_of_cut (h : Cut shownBytes s.toList (fitting shownBytes s.toList) rest) :
    truncate s = .ofList (dropBlanksEnd (fitting shownBytes s.toList)) ++
      (if shownBytes < s.utf8ByteSize then "..." else "") := by
  have hLength := congrArg List.length h.text
  rw [List.length_append, String.length_toList] at hLength
  have hDots : (fitting shownBytes s.toList).length < s.length ↔ shownBytes < s.utf8ByteSize := by
    rcases h.cases with ⟨hShort, rfl⟩ | ⟨hLong, hRest, -⟩
    · simp only [List.length_nil] at hLength
      omega
    · have hSome := List.length_pos_iff.mpr hRest
      omega
  rw [truncate]
  simp only [hDots]

/-- A text is shown as a beginning of it without the blanks at the end, and three dots if it has more
than 497 bytes. The beginning goes up to the last boundary between characters within these bytes, at most
three before the end of them, and all that is shown has at most 500 bytes. -/
theorem truncate_eq (s : String) : ∃ shown blanks rest : String,
    s = shown ++ blanks ++ rest ∧
    boundaryBefore? s (min s.utf8ByteSize 497) = some (shown ++ blanks).utf8ByteSize ∧
    trimEnd shown = shown ∧ Blanks blanks.toList ∧
    truncate s = shown ++ (if 497 < s.utf8ByteSize then "..." else "") ∧
    (truncate s).utf8ByteSize ≤ 500 ∧
    (s.utf8ByteSize ≤ 497 ∧ rest = "" ∨
      497 < s.utf8ByteSize ∧ 494 ≤ (shown ++ blanks).utf8ByteSize) := by
  obtain ⟨rest, hCut⟩ := exists_cut shownBytes s.toList
  obtain ⟨blanks, hBlanks, hTrim⟩ := dropBlanksEnd_append_blanks (fitting shownBytes s.toList)
  have hShown := truncate_of_cut hCut
  have hLimit : shownBytes = 497 := rfl
  have hKept : String.ofList (dropBlanksEnd (fitting shownBytes s.toList)) ++ .ofList blanks =
      .ofList (fitting shownBytes s.toList) := by
    rw [← String.ofList_append, ← hTrim]
  have hFits := hCut.fits
  rw [← hKept, String.utf8ByteSize_append] at hFits
  refine ⟨.ofList (dropBlanksEnd (fitting shownBytes s.toList)), .ofList blanks, .ofList rest,
    ?_, ?_, ?_, ?_, hShown, ?_, ?_⟩
  · rw [hKept, ← String.ofList_append, ← hCut.text, String.ofList_toList]
  · rw [hKept]
    exact hCut.boundaryBefore?_eq
  · rw [trimEnd, String.toList_ofList, dropBlanksEnd_idem]
  · rw [String.toList_ofList]
    exact List.all_eq_true.mp hBlanks
  · rw [hShown, String.utf8ByteSize_append]
    have hDots : (if shownBytes < s.utf8ByteSize then "..." else "").utf8ByteSize ≤ 3 := by
      split <;> decide
    omega
  · rw [hKept]
    rcases hCut.cases with ⟨hShort, rfl⟩ | ⟨hLong, -, hNear⟩
    · exact .inl ⟨hShort, rfl⟩
    · exact .inr ⟨hLong, by omega⟩

end SqlMapper.Text
