import SqlMapper.Proofs.Number.Integer
import SqlMapper.Value.Coercion

/-! Integers from cells. An integer of any kind and the text of one become the same number of the wanted
kind, or an error that tells on which side the number leaves it. -/
namespace SqlMapper

/-- Between blanks the text denotes the number. -/
def Numeral.Shown (k : IntegerKind) (s : String) (n : Int) : Prop :=
  ∃ before numeral after, s.toList = before ++ (numeral ++ after) ∧
    Text.Blanks before ∧ Text.Blanks after ∧ Numeral.Denotes k numeral n

theorem Numeral.denotes_trim_iff {k : IntegerKind} {s : String} {n : Int} :
    Denotes k (Text.trim s).toList n ↔ Shown k s n := by
  constructor
  · intro h
    obtain ⟨before, after, hBefore, hAfter, hEq⟩ := Text.exists_blanks s
    exact ⟨before, _, after, hEq, hBefore, hAfter, h⟩
  · rintro ⟨before, numeral, after, hEq, hBefore, hAfter, h⟩
    rwa [Text.toList_trim hEq hBefore hAfter h.solid h.ne_nil]

namespace Value

/-- The cell stands for the number where an integer of the kind is asked for. -/
def Shows (k : IntegerKind) (n : Int) : Value → Prop
  | .integer _ (some m) => m.val = n
  | .text (some s) => Numeral.Shown k s n
  | _ => False

/-- The error tells why the cell is no integer of the kind: the number is beyond the kind, the text
denotes such a number or none, or the cell is neither an integer nor a text. -/
def BlamedBy (k : IntegerKind) (e : CoercionError) : Value → Prop
  | .integer _ (some m) => ¬ k.Holds m.val ∧ e = .outOfRange m.val k
  | .text (some s) => ∃ fault, e = .unreadable s (.integer k) (some (.integer fault)) ∧
      ∀ n, Numeral.Shown k s n → ¬ k.Holds n ∧ fault = Numeral.beyondOf n
  | v => e = .mismatch v (.integer k)

end Value

namespace Ty

variable {k l : IntegerKind}

/-- An integer of another kind is read as the same integer. -/
theorem toInteger_integer_eq_ok_iff {m : Integer l} {x : Integer k} :
    toInteger k (.integer l (some m)) = .ok x ↔ m.val = x.val := by
  rw [toInteger]
  cases hInt : Integer.ofInt? k m.val with
  | none =>
      have hBeyond := Integer.ofInt?_eq_none_iff.mp hInt
      constructor
      · intro h
        cases h
      · intro h
        exact absurd x.holds (h ▸ hBeyond)
  | some y =>
      have hVal := Integer.ofInt?_eq_some_iff.mp hInt
      constructor
      · intro h
        obtain rfl := Except.ok.inj h
        exact hVal.symm
      · intro h
        rw [h, Integer.ofInt?_val] at hInt
        rw [← Option.some.inj hInt]
        rfl

/-- A text is read as the integer it shows. -/
theorem toInteger_text_eq_ok_iff {s : String} {x : Integer k} :
    toInteger k (.text (some s)) = .ok x ↔ Numeral.Shown k s x.val := by
  rw [← Numeral.denotes_trim_iff, ← Numeral.read_eq_ok_iff, toInteger, parse]
  cases Numeral.read k (Text.trim s) with
  | ok y => simp
  | error fault => simp

/-- A value that is refused is blamed. -/
theorem blamedBy_of_toInteger {v : Value} {e : CoercionError} (h : toInteger k v = .error e) :
    v.BlamedBy k e := by
  unfold toInteger at h
  split at h
  next l m =>
    cases hInt : Integer.ofInt? k m.val with
    | none =>
        rw [hInt] at h
        exact ⟨Integer.ofInt?_eq_none_iff.mp hInt, (Except.error.inj h).symm⟩
    | some x =>
        rw [hInt] at h
        cases h
  next s =>
    rw [parse] at h
    cases hRead : Numeral.read k (Text.trim s) with
    | ok x =>
        rw [hRead] at h
        cases h
    | error fault =>
        rw [hRead] at h
        refine ⟨fault, (Except.error.inj h).symm, fun n hShown => ?_⟩
        rw [Numeral.read_of_denotes (Numeral.denotes_trim_iff.mpr hShown)] at hRead
        cases hInt : Integer.ofInt? k n with
        | none =>
            rw [hInt] at hRead
            exact ⟨Integer.ofInt?_eq_none_iff.mp hInt, (Except.error.inj hRead).symm⟩
        | some x =>
            rw [hInt] at hRead
            cases hRead
  next hInteger hText =>
    obtain rfl := Except.error.inj h
    unfold Value.BlamedBy
    split
    next m => exact absurd rfl (hInteger _ m)
    next s => exact absurd rfl (hText s)
    next => rfl

/-- A cell becomes the integer of the kind for which it stands, and no other one. A cell that stands for
none that the kind holds is refused with the reason. -/
theorem integer_exact (k : IntegerKind) (v : Value) :
    (∀ x : Integer k, (integer k).ofValue v = .ok x ↔ v.Shows k x.val) ∧
    ∀ e, (integer k).ofValue v = .error e → v.BlamedBy k e := by
  refine ⟨fun x => ?_, fun e => blamedBy_of_toInteger⟩
  change toInteger k v = .ok x ↔ _
  unfold Value.Shows
  split
  next m => exact toInteger_integer_eq_ok_iff
  next s => exact toInteger_text_eq_ok_iff
  next hInteger hText =>
    constructor
    · intro h
      unfold toInteger at h
      split at h
      next m => exact absurd rfl (hInteger _ m)
      next s => exact absurd rfl (hText s)
      next => cases h
    · exact False.elim

/-- The greatest number of a byte behind a sign and a zero, between two kinds of blanks; a number that is
one more; and a zero with a sign that bytes do not have. -/
theorem integer_exact_byte :
    let shown : Value := .text (some "\u2003+0255\n")
    let beyond : Value := .integer .int16 (some ⟨256, by decide⟩)
    let negative : Value := .text (some "-0")
    (shown.Shows .uint8 255 ∧
      (integer .uint8).ofValue shown = .ok (⟨255, by decide⟩ : Integer .uint8)) ∧
    (∃ e, (integer .uint8).ofValue beyond = .error e ∧ beyond.BlamedBy .uint8 e) ∧
    ∃ e, (integer .uint8).ofValue negative = .error e ∧ negative.BlamedBy .uint8 e := by
  intro shown beyond negative
  have hDenotes : Numeral.Denotes .uint8 "+0255".toList (Nat.ofDigitChars 10 "0255".toList 0) :=
    .plus (by decide) (by decide)
  have hShown : shown.Shows .uint8 255 :=
    ⟨"\u2003".toList, "+0255".toList, "\n".toList, by decide, by decide, by decide, hDenotes⟩
  have hBeyond : (integer .uint8).ofValue beyond = .error _ := rfl
  have hNegative : (integer .uint8).ofValue negative = .error _ := rfl
  exact ⟨⟨hShown, (integer_exact .uint8 shown).1 ⟨255, by decide⟩ |>.mpr hShown⟩,
    ⟨_, hBeyond, (integer_exact .uint8 beyond).2 _ hBeyond⟩,
    ⟨_, hNegative, (integer_exact .uint8 negative).2 _ hNegative⟩⟩

end Ty

end SqlMapper
