import Mathlib.Data.List.Forall2
import SqlMapper.Text.Utf8

/-! Text as bytes. Every character is encoded as a sequence that is read as that character, so
bytes that encode a text are read as the text. -/
namespace SqlMapper.Text

def ByteRange.Has (range : ByteRange) (byte : UInt8) : Prop :=
  range.low ≤ byte.toNat ∧ byte.toNat ≤ range.high

/-- The number that bytes continue. Each contributes its lowest six bits. -/
def continued (bits : Nat) (tail : List UInt8) : Nat :=
  tail.foldl (fun v b => v * 64 + b.toNat % 64) bits

variable {byte : UInt8} {bits : Nat} {ranges : List ByteRange} {tail : List UInt8}

/-- Bytes in the awaited ranges end the sequence. -/
theorem decodeFrom_tail (h : List.Forall₂ ByteRange.Has ranges tail) (hSome : ranges ≠ [])
    (index start value : Nat) (rest : List UInt8) :
    ∃ index', decodeFrom index start ranges value (tail ++ rest) =
      (decodeFrom index' start [] 0 rest).map (Char.ofNat (continued value tail) :: ·) := by
  induction h generalizing index value with
  | nil => exact absurd rfl hSome
  | @cons range byte ranges tail first later ih =>
      obtain ⟨hLow, hHigh⟩ := first
      cases ranges with
      | nil =>
          cases later
          refine ⟨index + 1, ?_⟩
          rw [List.singleton_append, decodeFrom, if_pos ⟨hLow, hHigh⟩]
          rfl
      | cons next more =>
          obtain ⟨index', hRead⟩ := ih (List.cons_ne_nil next more) (index + 1)
            (value * 64 + byte.toNat % 64)
          refine ⟨index', ?_⟩
          rw [List.cons_append, decodeFrom, if_pos ⟨hLow, hHigh⟩]
          exact hRead

/-- A lead byte and its continuations are decoded as one character. -/
theorem decodeFrom_sequence (hLead : lead? byte.toNat = some ⟨bits, ranges⟩)
    (h : List.Forall₂ ByteRange.Has ranges tail) (index start : Nat) (rest : List UInt8) :
    ∃ index' start', decodeFrom index start [] 0 (byte :: tail ++ rest) =
      (decodeFrom index' start' [] 0 rest).map (Char.ofNat (continued bits tail) :: ·) := by
  cases h with
  | nil =>
      refine ⟨index + 1, index, ?_⟩
      rw [List.singleton_append, decodeFrom, hLead]
      rfl
  | @cons range next ranges tail first later =>
      obtain ⟨index', hRead⟩ := decodeFrom_tail (.cons first later) (List.cons_ne_nil range ranges)
        (index + 1) index bits rest
      refine ⟨index', index, ?_⟩
      rw [List.cons_append, decodeFrom, hLead]
      exact hRead

/-! ### Characters -/

/-- The byte of a number that fits into one. -/
theorem toNat_ofNat_byte {n : Nat} (h : n < 256) : (UInt8.ofNat n).toNat = n :=
  UInt8.toNat_ofNat_of_lt' h

theorem has_tail {range : ByteRange} {n : Nat} (hLow : range.low ≤ n % 64 + 128)
    (hHigh : n % 64 + 128 ≤ range.high) : range.Has (UInt8.ofNat (n % 64 + 128)) := by
  rw [ByteRange.Has, toNat_ofNat_byte (by omega)]
  exact ⟨hLow, hHigh⟩

theorem continuation_has (n : Nat) : continuation.Has (UInt8.ofNat (n % 64 + 128)) := by
  apply has_tail <;> simp only [continuation] <;> omega

theorem continued_cons (bits n : Nat) (tail : List UInt8) :
    continued bits (UInt8.ofNat (n % 64 + 128) :: tail) = continued (bits * 64 + n % 64) tail := by
  have hBits : (n % 64 + 128) % 64 = n % 64 := by omega
  rw [continued, List.foldl_cons, toNat_ofNat_byte (by omega), hBits]
  rfl

/-- The number of a character is no surrogate and at most the last code point. -/
theorem toNat_isValid (c : Char) :
    c.toNat < 0xD800 ∨ 0xDFFF < c.toNat ∧ c.toNat < 0x110000 :=
  c.valid

/-- Two leads of three bytes narrow the second one: to no shorter form, and to no surrogate. -/
theorem lead?_three {n : Nat} (hLow : 2047 < n) (hHigh : n ≤ 65535)
    (hValid : n < 0xD800 ∨ 0xDFFF < n) : ∃ range : ByteRange,
      lead? (n / 4096 % 16 + 224) = some ⟨n / 4096, [range, continuation]⟩ ∧
        range.Has (UInt8.ofNat (n / 64 % 64 + 128)) := by
  by_cases hFirst : n / 4096 = 0
  · rw [hFirst]
    refine ⟨⟨0xA0, 0xBF⟩, rfl, ?_⟩
    apply has_tail <;> dsimp only <;> omega
  by_cases hSurrogates : n / 4096 = 13
  · rw [hSurrogates]
    refine ⟨⟨0x80, 0x9F⟩, rfl, ?_⟩
    apply has_tail <;> dsimp only <;> omega
  · refine ⟨continuation, ?_, continuation_has (n / 64)⟩
    have hBits : (n / 4096 % 16 + 224) % 16 = n / 4096 := by omega
    rw [lead?, if_neg (by omega), if_neg (by omega), if_neg (by omega), if_neg (by omega),
      if_neg (by omega), if_pos (by omega), hBits]

/-- Two leads of four bytes narrow the second one: to no shorter form, and to the code points. -/
theorem lead?_four {n : Nat} (hLow : 65535 < n) (hHigh : n < 0x110000) : ∃ range : ByteRange,
      lead? (n / 262144 % 8 + 240) = some ⟨n / 262144, [range, continuation, continuation]⟩ ∧
        range.Has (UInt8.ofNat (n / 4096 % 64 + 128)) := by
  by_cases hFirst : n / 262144 = 0
  · rw [hFirst]
    refine ⟨⟨0x90, 0xBF⟩, rfl, ?_⟩
    apply has_tail <;> dsimp only <;> omega
  by_cases hLast : n / 262144 = 4
  · rw [hLast]
    refine ⟨⟨0x80, 0x8F⟩, rfl, ?_⟩
    apply has_tail <;> dsimp only <;> omega
  · refine ⟨continuation, ?_, continuation_has (n / 4096)⟩
    have hBits : (n / 262144 % 8 + 240) % 8 = n / 262144 := by omega
    rw [lead?, if_neg (by omega), if_neg (by omega), if_neg (by omega), if_neg (by omega),
      if_neg (by omega), if_neg (by omega), if_neg (by omega), if_pos (by omega), hBits]

/-- The bytes of a character are a sequence that stands for it. -/
theorem exists_lead (c : Char) : ∃ byte tail bits ranges,
    String.utf8EncodeChar c = byte :: tail ∧ lead? byte.toNat = some ⟨bits, ranges⟩ ∧
      List.Forall₂ ByteRange.Has ranges tail ∧ continued bits tail = c.toNat := by
  have hValid := toNat_isValid c
  have hVal : c.val.toNat = c.toNat := rfl
  rw [String.utf8EncodeChar, hVal]
  generalize c.toNat = n at hValid
  split
  next =>
    refine ⟨_, _, n, [], rfl, ?_, .nil, rfl⟩
    rw [toNat_ofNat_byte (by omega), lead?, if_pos (by omega)]
  next =>
    split
    next =>
      refine ⟨_, _, n / 64, [continuation], rfl, ?_, .cons (continuation_has n) .nil, ?_⟩
      · have hBits : (n / 64 % 32 + 192) % 32 = n / 64 := by omega
        rw [toNat_ofNat_byte (by omega), lead?, if_neg (by omega), if_neg (by omega),
          if_pos (by omega), hBits]
      · rw [continued_cons, continued, List.foldl_nil]
        omega
    next hTwo =>
      split
      next hThree =>
        obtain ⟨range, hLead, hSecond⟩ := lead?_three (by omega) hThree (by omega)
        refine ⟨_, _, n / 4096, [range, continuation], rfl, ?_,
          .cons hSecond (.cons (continuation_has n) .nil), ?_⟩
        · rw [toNat_ofNat_byte (by omega), hLead]
        · rw [continued_cons, continued_cons, continued, List.foldl_nil]
          omega
      next hFour =>
        obtain ⟨range, hLead, hSecond⟩ := lead?_four (n := n) (by omega) (by omega)
        refine ⟨_, _, n / 262144, [range, continuation, continuation], rfl, ?_,
          .cons hSecond (.cons (continuation_has (n / 64)) (.cons (continuation_has n) .nil)), ?_⟩
        · rw [toNat_ofNat_byte (by omega), hLead]
        · rw [continued_cons, continued_cons, continued_cons, continued, List.foldl_nil]
          omega

/-! ### Texts -/

/-- A text is encoded character by character. -/
theorem encodeUtf8_eq (s : String) : encodeUtf8 s = s.toList.flatMap String.utf8EncodeChar := by
  rw [encodeUtf8, String.toUTF8, ← String.utf8Encode_toList, List.utf8Encode, List.data_toByteArray]

/-- What was encoded is decoded. -/
theorem decodeFrom_encoded (cs : List Char) (index start : Nat) :
    decodeFrom index start [] 0 (cs.flatMap String.utf8EncodeChar) = .ok cs := by
  induction cs generalizing index start with
  | nil => rfl
  | cons c cs ih =>
      obtain ⟨byte, tail, bits, ranges, hEncoded, hLead, hTail, hValue⟩ := exists_lead c
      obtain ⟨index', start', hRead⟩ := decodeFrom_sequence hLead hTail index start
        (cs.flatMap String.utf8EncodeChar)
      rw [List.flatMap_cons, hEncoded, hRead, ih, hValue, Char.ofNat_toNat]
      rfl

/-- Bytes that encode a text are read as the text. -/
theorem decodeUtf8_encodeUtf8 (s : String) : decodeUtf8 (encodeUtf8 s) = .ok s := by
  rw [decodeUtf8, encodeUtf8_eq, decodeFrom_encoded]
  exact congrArg Except.ok String.ofList_toList

end SqlMapper.Text
