import Mathlib.Algebra.GroupWithZero.Nat
import SqlMapper.Proofs.Text.Blank
import SqlMapper.Proofs.Text.Hex
import SqlMapper.Value.Uuid

/-! Identifiers as text. The groups of the hyphenated form are the runs between its hyphens, and
their digits are those of the identifier. -/
namespace SqlMapper.Uuid

/-! ### Groups -/

variable {run : List Char} {runs : List (List Char)}

theorem groups_of_no_hyphen (h : '-' ∉ run) : groups run = [run] := by
  induction run with
  | nil => rfl
  | cons c run ih =>
      rw [List.mem_cons, not_or] at h
      rw [groups, ih h.2]
      exact if_neg (Ne.symm h.1)

theorem groups_ne_nil (cs : List Char) : groups cs ≠ [] := by
  cases cs with
  | nil => exact List.cons_ne_nil [] []
  | cons c cs =>
      rw [groups]
      split
      · exact List.cons_ne_nil [c] []
      · split <;> exact List.cons_ne_nil _ _

/-- A hyphen ends a group. -/
theorem groups_append_hyphen (h : '-' ∉ run) (rest : List Char) :
    groups (run ++ '-' :: rest) = run :: groups rest := by
  induction run with
  | nil =>
      obtain ⟨first, later, hRest⟩ := List.exists_cons_of_ne_nil (groups_ne_nil rest)
      rw [List.nil_append, groups, hRest]
      rfl
  | cons c run ih =>
      rw [List.mem_cons, not_or] at h
      rw [List.cons_append, groups, ih h.2]
      exact if_neg (Ne.symm h.1)

/-- The runs between the hyphens of joined runs are the runs. -/
theorem groups_hyphenated (hSome : runs ≠ []) (h : ∀ run ∈ runs, '-' ∉ run) :
    groups (hyphenated runs) = runs := by
  induction runs with
  | nil => exact absurd rfl hSome
  | cons run runs ih =>
      have hFirst := h run (List.mem_cons_self ..)
      cases runs with
      | nil => exact groups_of_no_hyphen hFirst
      | cons next later =>
          rw [hyphenated, groups_append_hyphen hFirst]
          · rw [ih (List.cons_ne_nil next later) fun r hr => h r (List.mem_cons_of_mem run hr)]
          · exact List.cons_ne_nil next later

/-- Cutting gives pieces of the lengths asked for. -/
theorem map_length_cut {lengths : List Nat} {cs : List Char} (h : lengths.sum = cs.length) :
    (cut lengths cs).map List.length = lengths := by
  induction lengths generalizing cs with
  | nil => rfl
  | cons n lengths ih =>
      rw [List.sum_cons] at h
      rw [cut, List.map_cons, ih (by rw [List.length_drop]; omega), List.length_take]
      congr 1
      omega

/-- Cutting loses nothing. -/
theorem flatten_cut {lengths : List Nat} {cs : List Char} (h : lengths.sum = cs.length) :
    (cut lengths cs).flatten = cs := by
  induction lengths generalizing cs with
  | nil => exact (List.eq_nil_of_length_eq_zero h.symm).symm
  | cons n lengths ih =>
      rw [List.sum_cons] at h
      rw [cut, List.flatten_cons, ih (by rw [List.length_drop]; omega), List.take_append_drop]

theorem mem_of_mem_cut {lengths : List Nat} {cs : List Char} (h : run ∈ cut lengths cs) :
    ∀ c ∈ run, c ∈ cs := by
  induction lengths generalizing cs with
  | nil => simp [cut] at h
  | cons n lengths ih =>
      intro c hc
      rcases List.mem_cons.mp h with rfl | hLater
      · exact List.mem_of_mem_take hc
      · exact List.mem_of_mem_drop (ih hLater c hc)

theorem mem_hyphenated {c : Char} (h : c ∈ hyphenated runs) : c = '-' ∨ ∃ run ∈ runs, c ∈ run := by
  induction runs with
  | nil => simp [hyphenated] at h
  | cons run runs ih =>
      cases runs with
      | nil => exact .inr ⟨run, List.mem_cons_self .., h⟩
      | cons next later =>
          rcases List.mem_append.mp h with hFirst | hLater
          · exact .inr ⟨run, List.mem_cons_self .., hFirst⟩
          · rcases List.mem_cons.mp hLater with hHyphen | hLater
            · exact .inl hHyphen
            · obtain hHyphen | ⟨r, hRun, hc⟩ := ih hLater
              · exact .inl hHyphen
              · exact .inr ⟨r, List.mem_cons_of_mem run hRun, hc⟩

/-- There is one hyphen fewer than there are groups. -/
theorem length_hyphenated (hSome : runs ≠ []) :
    (hyphenated runs).length + 1 = (runs.map List.length).sum + runs.length := by
  induction runs with
  | nil => exact absurd rfl hSome
  | cons run runs ih =>
      cases runs with
      | nil => simp [hyphenated]
      | cons next later =>
          have hLater := ih (List.cons_ne_nil next later)
          rw [hyphenated, List.map_cons, List.sum_cons, List.length_cons, List.length_append]
          · rw [List.length_cons]
            omega
          · exact List.cons_ne_nil next later

/-! ### Whole texts -/

variable (u : Uuid)

def digitGroups : List (List Char) := cut groupLengths (Text.hexDigits 32 u.value)

theorem toList_text : u.text.toList = hyphenated u.digitGroups := String.toList_ofList

theorem map_length_digitGroups : u.digitGroups.map List.length = groupLengths :=
  map_length_cut (by rw [Text.length_hexDigits]; rfl)

/-- The groups together are the digits of the number. -/
theorem flatten_digitGroups : u.digitGroups.flatten = Text.hexDigits 32 u.value :=
  flatten_cut (by rw [Text.length_hexDigits]; rfl)

/-- The text of a UUID has 36 letters. -/
theorem length_text : u.text.toList.length = 36 := by
  have hLengths := u.map_length_digitGroups
  have hRuns : u.digitGroups.length = 5 := by rw [← List.length_map List.length, hLengths]; rfl
  have hLength := length_hyphenated (List.ne_nil_of_length_pos (l := u.digitGroups) (by omega))
  rw [hLengths, hRuns] at hLength
  rw [toList_text]
  exact Nat.succ.inj hLength

/-- The text consists of hyphens and digits in lower case. -/
theorem mem_text {c : Char} (h : c ∈ u.text.toList) : c = '-' ∨ ∃ m < 16, c = Text.hexDigit m := by
  rw [toList_text] at h
  obtain hHyphen | ⟨run, hRun, hc⟩ := mem_hyphenated h
  · exact .inl hHyphen
  · exact .inr (Text.exists_of_mem_hexDigits (mem_of_mem_cut hRun c hc))

/-- What holds of the hyphen and of every digit holds throughout the text. -/
theorem forall_mem_text {p : Char → Prop} (hHyphen : p '-')
    (hDigit : ∀ m : Fin 16, p (Text.hexDigit m.val)) : ∀ c ∈ u.text.toList, p c := by
  intro c hc
  obtain rfl | ⟨m, hm, rfl⟩ := u.mem_text hc
  · exact hHyphen
  · exact hDigit ⟨m, hm⟩

theorem not_hyphen_of_mem_digitGroups : ∀ run ∈ u.digitGroups, '-' ∉ run := by
  intro run hRun hHyphen
  obtain ⟨m, hm, hEq⟩ := Text.exists_of_mem_hexDigits (mem_of_mem_cut hRun _ hHyphen)
  have hAll : ∀ m : Fin 16, '-' ≠ Text.hexDigit m.val := by decide
  exact hAll ⟨m, hm⟩ hEq

/-- The hyphenated form has neither braces nor the mark of a name around it. -/
theorem bare_text : bare u.text.toList = u.text.toList := by
  have hBrace := u.forall_mem_text (p := (· ≠ '\x7b')) (by decide) (by decide)
  have hMark := u.forall_mem_text (p := (·.toLower ≠ 'u')) (by decide) (by decide)
  rw [bare, if_neg, if_neg]
  · rintro ⟨-, hUrn⟩
    have hMem : 'u' ∈ (u.text.toList.take urnMark.length).map Char.toLower := by
      rw [hUrn]
      decide
    obtain ⟨c, hc, hLower⟩ := List.mem_map.mp hMem
    exact hMark c (List.mem_of_mem_take hc) hLower
  · rintro ⟨-, hFirst, -⟩
    exact hBrace _ (List.mem_of_mem_head? hFirst) rfl

/-- The groups of the text are read as the UUID. -/
theorem ofGroups?_text : ofGroups? u.text.toList = some u := by
  have hSome : u.digitGroups ≠ [] := by simp [digitGroups, cut, groupLengths]
  have hRead : Text.readHex? (Text.hexDigits 32 u.value) = some u.value :=
    Text.readHex?_hexDigits u.value_lt
  have hUuid : ofNat? u.value = some u := dif_pos u.value_lt
  rw [ofGroups?, toList_text, groups_hyphenated hSome u.not_hyphen_of_mem_digitGroups,
    if_pos u.map_length_digitGroups, flatten_digitGroups, ofDigits?, if_pos (Text.length_hexDigits ..), hRead]
  exact hUuid

/-- The text of a UUID is read back. -/
theorem read_text : read u.text = .ok u := by
  have hLength : ¬ u.text.toList.length = 32 := by rw [length_text]; decide
  have hDigits : ofDigits? u.text.toList = none := if_neg hLength
  rw [read, bare_text, hDigits, Option.orElse_none, ofGroups?_text]
  rfl

/-- The text of a UUID holds no blank. -/
theorem solid_text : Text.Solid u.text.toList :=
  u.forall_mem_text (p := (Text.isBlank · = false)) (by decide) (by decide)

end SqlMapper.Uuid
