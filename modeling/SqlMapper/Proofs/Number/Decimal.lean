import Mathlib.Data.List.TakeWhile
import SqlMapper.Number.Decimal
import SqlMapper.Proofs.Number.Numeral

/-! Decimals as text. The digits that are written are read one by one, first those of the whole part
and then those behind the point; coefficient and scale come back as they were. -/
namespace SqlMapper.Decimal

open Numeral (Digits padded)

/-! ### Reading digits -/

namespace Progress

variable {s : Progress} {ds rest : List Char}

/-- What has been read once the digits are read, too. -/
def after (s : Progress) (ds : List Char) : Progress where
  negative := s.negative
  pointSeen := s.pointSeen
  digitSeen := s.digitSeen || !ds.isEmpty
  coefficient := Nat.ofDigitChars 10 ds s.coefficient
  scale := if s.pointSeen then s.scale + ds.length else s.scale

theorem after_nil (s : Progress) : s.after [] = s := by
  cases s
  simp [after]

/-- Digits are taken in one at a time. -/
theorem after_after (s : Progress) (c : Char) (ds : List Char) :
    (s.after [c]).after ds = s.after (c :: ds) := by
  cases hPoint : s.pointSeen <;>
    simp [after, hPoint, Nat.ofDigitChars_cons, Nat.add_comm, Nat.add_left_comm]

/-- One more digit is read where the number has room for it. Behind the last place that a number can
have the text has to end. -/
theorem scan_digit {c : Char} (h : c.isDigit = true)
    (hFits : (s.after [c]).coefficient < coefficientLimit)
    (hPlaces : s.pointSeen = true → scaleLimit ≤ (s.after [c]).scale → rest = []) :
    s.scan (c :: rest) = (s.after [c]).scan rest := by
  have hDigit := Numeral.digit?_of_isDigit h
  have hRoom : ¬ coefficientLimit ≤ 10 * s.coefficient + (c.toNat - '0'.toNat) := Nat.not_le.mpr hFits
  have hAfter : s.after [c] = { s with
      digitSeen := true
      coefficient := 10 * s.coefficient + (c.toNat - '0'.toNat)
      scale := if s.pointSeen then s.scale + 1 else s.scale } := by
    simp [after, Nat.ofDigitChars_cons]
  have hScan : s.scan (c :: rest) = if s.pointSeen ∧ scaleLimit ≤ (s.after [c]).scale then
      (s.after [c]).round rest else (s.after [c]).scan rest := by
    rw [hAfter, scan, hDigit]
    dsimp only
    rw [if_neg hRoom]
  rw [hScan]
  split
  next hLast =>
    obtain rfl := hPlaces hLast.1 hLast.2
    rfl
  next => rfl

/-- Digits that fit are scanned into the coefficient. -/
theorem scan_digits (h : Digits ds) (hFits : (s.after ds).coefficient < coefficientLimit)
    (hPlaces : s.pointSeen = true → rest = [] ∧ (s.after ds).scale ≤ scaleLimit) :
    s.scan (ds ++ rest) = (s.after ds).scan rest := by
  induction ds generalizing s with
  | nil => rw [after_nil, List.nil_append]
  | cons c ds ih =>
      rw [← after_after] at hFits hPlaces ⊢
      -- The coefficient only grows, so it has room on the way if it has room in the end.
      have hFirst : (s.after [c]).coefficient < coefficientLimit :=
        Nat.lt_of_le_of_lt (Numeral.le_ofDigitChars ds _) hFits
      rw [List.cons_append, scan_digit (h c (List.mem_cons_self ..)) hFirst]
      · exact ih (fun d hd => h d (List.mem_cons_of_mem c hd)) hFits hPlaces
      · intro hPoint hFull
        obtain ⟨hEnd, hScale⟩ := hPlaces hPoint
        cases ds with
        | nil => exact hEnd
        | cons d ds =>
            simp only [after, hPoint, if_pos, List.length_cons, List.length_nil] at hFull hScale
            omega

/-- The first point is scanned and only remembered. -/
theorem scan_point (hPoint : s.pointSeen = false) :
    s.scan ('.' :: rest) = { s with pointSeen := true }.scan rest := by
  rw [scan]
  simp [Numeral.digit?, hPoint]

end Progress

/-! ### Whole texts -/

variable (d : Decimal)

/-- What is read of the text of a decimal. A zero loses its sign. -/
def asRead : Decimal := { d with negative := d.negative && d.coefficient != 0 }

/-- What a text is read as equals the decimal it was written from. -/
theorem same_asRead : d.same d.asRead = true := by
  cases hZero : d.coefficient <;> simp [same, asRead, hZero]

def whole : List Char :=
  let digits := (padded (d.scale + 1) d.coefficient).toList
  digits.take (digits.length - d.scale)

def places : List Char :=
  let digits := (padded (d.scale + 1) d.coefficient).toList
  digits.drop (digits.length - d.scale)

/-- The digits before and behind the point are the padded coefficient. -/
theorem whole_append_places : d.whole ++ d.places = (padded (d.scale + 1) d.coefficient).toList :=
  List.take_append_drop ..

/-- There are as many places as the scale says. -/
theorem length_places : d.places.length = d.scale := by
  have hLength := Numeral.le_length_padded (d.scale + 1) d.coefficient
  rw [places, List.length_drop]
  omega

theorem whole_ne_nil : d.whole ≠ [] := by
  have hLength := Numeral.le_length_padded (d.scale + 1) d.coefficient
  apply List.ne_nil_of_length_pos
  rw [whole, List.length_take]
  omega

theorem digits_whole : Digits d.whole := (Numeral.digits_padded _ _).take _

theorem digits_places : Digits d.places := (Numeral.digits_padded _ _).drop _

def unsignedText : List Char := d.whole ++ if d.places.isEmpty then [] else '.' :: d.places

theorem toList_text : d.text.toList = (if d.negative then ['-'] else []) ++ d.unsignedText := by
  rw [text, String.toList_ofList, List.append_assoc]
  rfl

/-- Read one after the other the digits give the coefficient. -/
theorem ofDigitChars_places :
    Nat.ofDigitChars 10 d.places (Nat.ofDigitChars 10 d.whole 0) = d.coefficient := by
  rw [← Nat.ofDigitChars_append, whole_append_places, Numeral.ofDigitChars_padded]

/-- At the end of the text the progress becomes the decimal. -/
theorem finish_asRead (pointSeen : Bool) :
    Progress.finish ⟨d.negative, pointSeen, true, d.coefficient, d.scale⟩ = .ok d.asRead := by
  have hParts : ofParts? (d.negative && d.coefficient != 0) d.coefficient d.scale = some d.asRead :=
    dif_pos ⟨d.coefficient_lt, d.scale_le⟩
  rw [Progress.finish]
  simp [hParts]

/-- The text without its sign is scanned into the decimal. -/
theorem scan_unsignedText :
    Progress.scan ⟨d.negative, false, false, 0, 0⟩ d.unsignedText = .ok d.asRead := by
  have hValue := d.ofDigitChars_places
  have hSome : d.whole.isEmpty = false := by simpa using d.whole_ne_nil
  have hLimit := d.coefficient_lt
  have hWhole : Progress.after ⟨d.negative, false, false, 0, 0⟩ d.whole =
      ⟨d.negative, false, true, Nat.ofDigitChars 10 d.whole 0, 0⟩ := by
    simp [Progress.after, hSome]
  have hFits : Nat.ofDigitChars 10 d.whole 0 < coefficientLimit := by
    have hLater := Numeral.le_ofDigitChars d.places (Nat.ofDigitChars 10 d.whole 0)
    omega
  rw [unsignedText, Progress.scan_digits d.digits_whole (by rwa [hWhole]) (by simp), hWhole]
  split
  next hNone =>
    have hPlaces : d.places = [] := List.isEmpty_iff.mp hNone
    have hScale : d.scale = 0 := by rw [← d.length_places, hPlaces, List.length_nil]
    rw [hPlaces, Nat.ofDigitChars_nil] at hValue
    have hFinish := d.finish_asRead false
    rwa [hScale, ← hValue] at hFinish
  next =>
    have hPlaces : Progress.after ⟨d.negative, true, true, Nat.ofDigitChars 10 d.whole 0, 0⟩ d.places =
        ⟨d.negative, true, true, d.coefficient, d.scale⟩ := by
      simp [Progress.after, hValue, d.length_places]
    have hFinish := d.finish_asRead true
    rw [Progress.scan_point rfl, ← List.append_nil d.places,
      Progress.scan_digits d.digits_places (by rwa [hPlaces]), hPlaces]
    · exact hFinish
    · rw [hPlaces]
      exact fun _ => ⟨rfl, d.scale_le⟩

theorem readPlain_digit {c : Char} (h : c.isDigit = true) (cs : List Char) :
    readPlain (c :: cs) = Progress.scan ⟨false, false, false, 0, 0⟩ (c :: cs) := by
  rw [readPlain]
  case x => exact List.cons_ne_nil c cs
  case x_1 =>
    rintro rest hMinus
    obtain rfl := (List.cons.inj hMinus).1
    exact absurd h (by decide)
  case x_2 =>
    rintro rest hPlus
    obtain rfl := (List.cons.inj hPlus).1
    exact absurd h (by decide)

/-- The text of a decimal is read as one without an exponent. -/
theorem readPlain_text : readPlain d.text.toList = .ok d.asRead := by
  have hScan := d.scan_unsignedText
  rw [toList_text]
  cases hSign : d.negative with
  | true =>
      rw [hSign] at hScan
      exact hScan
  | false =>
      obtain ⟨c, cs, hWhole⟩ := List.exists_cons_of_ne_nil d.whole_ne_nil
      have hDigit : c.isDigit = true := d.digits_whole c (by rw [hWhole]; exact List.mem_cons_self ..)
      rw [hSign, unsignedText, hWhole] at hScan
      rw [unsignedText, hWhole]
      exact (readPlain_digit hDigit _).trans hScan

/-- The text consists of digits, a sign and a point. -/
theorem mem_text : ∀ c ∈ d.text.toList, c.isDigit = true ∨ c = '-' ∨ c = '.' := by
  intro c hc
  rw [toList_text, unsignedText] at hc
  rcases List.mem_append.mp hc with hSign | hc
  · split at hSign
    · exact .inr (.inl (List.mem_singleton.mp hSign))
    · simp at hSign
  · rcases List.mem_append.mp hc with hWhole | hPlaces
    · exact .inl (d.digits_whole c hWhole)
    · split at hPlaces
      · simp at hPlaces
      · rcases List.mem_cons.mp hPlaces with hPoint | hPlaces
        · exact .inr (.inr hPoint)
        · exact .inl (d.digits_places c hPlaces)

/-- The text of a decimal holds no exponent mark. -/
theorem ne_mark_of_mem_text : ∀ c ∈ d.text.toList, c ≠ 'e' ∧ c ≠ 'E' := by
  intro c hc
  constructor <;>
    · rintro rfl
      exact absurd (d.mem_text _ hc) (by decide)

/-- The text of a decimal is read back. -/
theorem read_text : read d.text = .ok d.asRead := by
  have hMark : d.text.toList.dropWhile (fun c => !(c == 'e' || c == 'E')) = [] := by
    simpa [List.dropWhile_eq_nil_iff] using d.ne_mark_of_mem_text
  rw [read]
  dsimp only
  rw [hMark]
  exact d.readPlain_text

/-- The text of a decimal holds no blank. -/
theorem solid_text : Text.Solid d.text.toList := by
  intro c hc
  rcases d.mem_text c hc with hDigit | rfl | rfl
  · exact Text.isBlank_of_isDigit hDigit
  · rfl
  · rfl

end SqlMapper.Decimal
