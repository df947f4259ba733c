import SqlMapper.Text.Blank

/-! Texts that trimming leaves alone: those that begin and end with no blank. -/
namespace SqlMapper.Text

def Solid (cs : List Char) : Prop := ∀ c ∈ cs, isBlank c = false

variable {cs ds : List Char}

theorem solid_nil : Solid [] := by
  intro c hc
  simp at hc

theorem Solid.append (h : Solid cs) (hd : Solid ds) : Solid (cs ++ ds) := by
  intro c hc
  rcases List.mem_append.mp hc with hc | hc
  · exact h c hc
  · exact hd c hc

theorem Solid.cons {c : Char} (hc : isBlank c = false) (h : Solid cs) : Solid (c :: cs) := by
  intro d hd
  rcases List.mem_cons.mp hd with rfl | hd
  · exact hc
  · exact h d hd

theorem isBlank_of_isDigit {c : Char} (h : c.isDigit = true) : isBlank c = false := by
  simp only [Char.isDigit, Bool.and_eq_true, decide_eq_true_eq, UInt32.le_iff_toNat_le] at h
  obtain ⟨hLow, hHigh⟩ := h
  have hLow : 48 ≤ c.toNat := hLow
  have hHigh : c.toNat ≤ 57 := hHigh
  simp [isBlank]
  omega

theorem isAlpha_of_isDigit {c : Char} (h : c.isDigit = true) : c.isAlpha = false := by
  have hDigit : c.isDigit = (decide (48 ≤ c.val) && decide (c.val ≤ 57)) := rfl
  have hUpper : c.isUpper = decide (65 ≤ c.val ∧ c.val ≤ 90) := rfl
  have hLower : c.isLower = (decide (97 ≤ c.val) && decide (c.val ≤ 122)) := rfl
  have hAlpha : c.isAlpha = (c.isUpper || c.isLower) := rfl
  rw [hAlpha, hUpper, hLower]
  rw [hDigit] at h
  grind

theorem dropBlanksEnd_eq_self (h : ∀ c ∈ cs.getLast?, isBlank c = false) : dropBlanksEnd cs = cs := by
  rw [dropBlanksEnd]
  cases hLast : cs.reverse with
  | nil => simpa using hLast.symm
  | cons c rest =>
      have hBlank : isBlank c = false := h c (by rw [← List.head?_reverse, hLast]; rfl)
      rw [List.dropWhile_cons, hBlank, if_neg (by simp), ← hLast, List.reverse_reverse]

/-- A text that neither begins nor ends with a blank is trimmed to itself. -/
theorem trim_eq_self {s : String} (hFirst : ∀ c ∈ s.toList.head?, isBlank c = false)
    (hLast : ∀ c ∈ s.toList.getLast?, isBlank c = false) : trim s = s := by
  have hKept : s.toList.dropWhile isBlank = s.toList := by
    cases hList : s.toList with
    | nil => rfl
    | cons c rest =>
        have hBlank : isBlank c = false := hFirst c (by rw [hList]; rfl)
        rw [List.dropWhile_cons, hBlank, if_neg (by simp)]
  rw [trim, hKept, dropBlanksEnd_eq_self hLast, String.ofList_toList]

/-- A text without blanks is trimmed to itself. -/
theorem trim_of_solid {s : String} (h : Solid s.toList) : trim s = s :=
  trim_eq_self (fun c hc => h c (List.mem_of_mem_head? hc)) fun c hc => h c (List.mem_of_getLast? hc)

/-- Blanks inside of a text stay. -/
theorem trim_of_solid_ends {s : String} {first mid last : List Char}
    (hEq : s.toList = first ++ (mid ++ last)) (hFirst : Solid first) (hLast : Solid last)
    (hFirstSome : first ≠ []) (hLastSome : last ≠ []) : trim s = s := by
  apply trim_eq_self
  · rw [hEq, List.head?_append, List.head?_eq_some_head hFirstSome, Option.some_or]
    intro c hc
    obtain rfl := Option.some.inj hc
    exact hFirst _ (List.head_mem hFirstSome)
  · rw [hEq, ← List.append_assoc, List.getLast?_append, List.getLast?_eq_some_getLast hLastSome,
      Option.some_or]
    intro c hc
    obtain rfl := Option.some.inj hc
    exact hLast _ (List.getLast_mem hLastSome)

/-! ### What trimming takes away -/

def Blanks (cs : List Char) : Prop := ∀ c ∈ cs, isBlank c = true

instance (cs : List Char) : Decidable (Blanks cs) := List.decidableBAll _ cs

/-- Trimming loses nothing but blanks at both ends. -/
theorem exists_blanks (s : String) : ∃ before after, Blanks before ∧ Blanks after ∧
    s.toList = before ++ ((trim s).toList ++ after) := by
  obtain ⟨after, hAfter, hEnd⟩ := dropBlanksEnd_append_blanks (s.toList.dropWhile isBlank)
  refine ⟨s.toList.takeWhile isBlank, after, ?_, List.all_eq_true.mp hAfter, ?_⟩
  · exact List.all_eq_true.mp List.all_takeWhile
  · rw [trim, String.toList_ofList, ← hEnd, List.takeWhile_append_dropWhile]

/-- Blanks at both ends are taken away, up to the first character that is none. -/
theorem toList_trim {s : String} {before mid after : List Char}
    (hEq : s.toList = before ++ (mid ++ after)) (hBefore : Blanks before) (hAfter : Blanks after)
    (hMid : Solid mid) (hSome : mid ≠ []) : (trim s).toList = mid := by
  have hFirst : (mid ++ after).dropWhile isBlank = mid ++ after := by
    cases mid with
    | nil => exact absurd rfl hSome
    | cons c mid =>
        have hBlank : isBlank c = false := hMid c (List.mem_cons_self ..)
        rw [List.cons_append, List.dropWhile_cons, hBlank, if_neg (by simp)]
  have hLast : dropBlanksEnd (mid ++ after) = dropBlanksEnd mid := by
    have hReverse : ∀ c ∈ after.reverse, isBlank c = true :=
      fun c hc => hAfter c (List.mem_reverse.mp hc)
    rw [dropBlanksEnd, List.reverse_append, List.dropWhile_append_of_pos hReverse, dropBlanksEnd]
  rw [trim, String.toList_ofList, hEq, List.dropWhile_append_of_pos hBefore, hFirst, hLast]
  exact dropBlanksEnd_eq_self fun c hc => hMid c (List.mem_of_getLast? hc)

end SqlMapper.Text
