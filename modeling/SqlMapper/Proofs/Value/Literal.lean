import SqlMapper.Proofs.Calendar.Text
import SqlMapper.Proofs.Lexis.Literal
import SqlMapper.Proofs.Number.Decimal
import SqlMapper.Proofs.Value.Uuid

/-! Values as literals. Integers, decimals and floating point numbers each have their own way to be
written; all of them are digits with a sign, a point and an exponent where these belong. All other
literals are words or stand between quotes. So the text of a value, or of a comment, is one literal
whatever follows it, and nothing in it ends the clause in which it stands. -/
namespace SqlMapper

open Numeral (Digits digits_toDigits digits_zeros)

/-! ### Letters of numbers -/

namespace NumberPart

variable {ds ps cs : List Char} {part : NumberPart}

theorem next_of_isDigit {c : Char} (h : c.isDigit = true) : part.next c = some part.digits := by
  simp [next, h]

/-- Digits leave the reader of a number inside of the digits. -/
theorem foldlM_digits (part : NumberPart) (h : Digits ds) (hSome : ds ≠ []) :
    ds.foldlM next part = some part.digits := by
  induction ds generalizing part with
  | nil => exact absurd rfl hSome
  | cons c ds ih =>
      obtain ⟨hFirst, hRest⟩ := List.forall_mem_cons.mp h
      rw [List.foldlM_cons, next_of_isDigit hFirst]
      cases ds with
      | nil => rfl
      | cons c' ds =>
          have hSame : part.digits.digits = part.digits := by cases part <;> rfl
          exact (ih part.digits hRest (List.cons_ne_nil c' ds)).trans (by rw [hSame])

/-- Behind a sign the text is a number. -/
def Unsigned (cs : List Char) : Prop :=
  ∃ part, cs.foldlM next .sign = some part ∧ part.isComplete = true

/-- The text with its sign, if it has one. -/
def signed (negative : Bool) (cs : List Char) : List Char := if negative then '-' :: cs else cs

/-- With its sign or without one, the text is a number. -/
theorem Unsigned.spells (h : Unsigned cs) (d : Dialect) (negative : Bool) :
    d.Spells (signed negative cs) (.number (String.ofList (signed negative cs))) := by
  obtain ⟨part, hLetters, hComplete⟩ := h
  refine d.spells_number ?_ hComplete
  cases negative with
  | true => exact hLetters
  | false =>
      cases cs with
      | nil =>
          obtain rfl : NumberPart.sign = part := Option.some.inj hLetters
          cases hComplete
      | cons c cs =>
          rw [List.foldlM_cons, Option.bind_eq_bind, Option.bind_eq_some_iff] at hLetters
          obtain ⟨first, hFirst, hRest⟩ := hLetters
          obtain ⟨hDigit, rfl⟩ : c.isDigit = true ∧ NumberPart.whole = first := by
            simpa [next, digits] using hFirst
          rw [signed, if_neg (by decide), List.foldlM_cons, next_of_isDigit hDigit]
          exact hRest

/-- Digits are a number without a sign. -/
theorem unsigned_digits (h : Digits ds) (hSome : ds ≠ []) : Unsigned ds :=
  ⟨.whole, foldlM_digits .sign h hSome, rfl⟩

/-- Digits on both sides of a point are a number. -/
theorem foldlM_pointed (h : Digits ds) (hSome : ds ≠ []) (hPlaces : Digits ps) (hPlace : ps ≠ []) :
    (ds ++ '.' :: ps).foldlM next .sign = some .places := by
  rw [List.foldlM_append, foldlM_digits .sign h hSome]
  exact foldlM_digits .point hPlaces hPlace

/-- The letters of an integer. -/
theorem toList_toString (n : Int) :
    (toString n).toList = signed (n < 0) (Nat.toDigits 10 n.natAbs) := by
  cases n with
  | ofNat n =>
      have hText : toString (Int.ofNat n) = n.repr := rfl
      rw [hText, Nat.toList_repr, signed, if_neg (by simp)]
      rfl
  | negSucc n =>
      have hText : toString (Int.negSucc n) = "-" ++ (n + 1).repr := rfl
      rw [hText, String.toList_append, Nat.toList_repr, signed,
        if_pos (decide_eq_true (Int.negSucc_lt_zero n))]
      rfl

/-- An exponent ends a number. -/
theorem foldlM_exponent (hPart : part = .whole ∨ part = .places) (n : Int) :
    ('e' :: (toString n).toList).foldlM next part = some .exponent := by
  have hMark : part.next 'e' = some .mark := by rcases hPart with rfl | rfl <;> rfl
  rw [List.foldlM_cons, hMark, toList_toString, signed]
  split
  · exact foldlM_digits .markSign (digits_toDigits _) Nat.toDigits_ne_nil
  · exact foldlM_digits .mark (digits_toDigits _) Nat.toDigits_ne_nil

end NumberPart

/-! ### Numbers -/

open NumberPart (Unsigned signed unsigned_digits foldlM_digits foldlM_pointed foldlM_exponent
  toList_toString)

/-- Every layout of digits is a number. -/
theorem FloatStyle.unsigned_layout (style : FloatStyle) {ds : List Char} (h : Digits ds)
    (hSome : ds ≠ []) (exponent : Int) : Unsigned (style.layout ds exponent) := by
  have hLength : 0 < ds.length := List.length_pos_iff.mpr hSome
  have hTakeSome {n : Nat} (hn : 0 < n) : ds.take n ≠ [] := by
    rw [ne_eq, List.take_eq_nil_iff]
    simp [hn.ne', hSome]
  have hDropSome {n : Nat} (hn : n < ds.length) : ds.drop n ≠ [] := by
    rw [ne_eq, List.drop_eq_nil_iff]
    omega
  rw [layout]
  split
  next =>
    split
    next =>
      exact ⟨.places, foldlM_pointed (h.append (digits_zeros _))
        (List.append_ne_nil_of_left_ne_nil hSome _) (digits_zeros 1) (by simp), rfl⟩
    next hNegative =>
      split
      next hPoint =>
        have hInside : (ds.length + exponent).toNat < ds.length := by omega
        exact ⟨.places, foldlM_pointed (h.take _) (hTakeSome (by omega)) (h.drop _)
          (hDropSome hInside), rfl⟩
      next =>
        exact ⟨.places, foldlM_pointed (digits_zeros 1) (by simp) ((digits_zeros _).append h)
          (List.append_ne_nil_of_right_ne_nil _ hSome), rfl⟩
  next =>
    refine ⟨.exponent, ?_, rfl⟩
    split
    next hShort =>
      rw [List.append_nil, List.foldlM_append, foldlM_digits .sign (h.take 1) (hTakeSome Nat.one_pos)]
      exact foldlM_exponent (.inl rfl) _
    next hLong =>
      rw [List.foldlM_append, foldlM_pointed (h.take 1) (hTakeSome Nat.one_pos) (h.drop 1)
        (hDropSome (by omega))]
      exact foldlM_exponent (.inr rfl) _

/-- A finite float is written as a number behind at most a sign. -/
theorem Binary.exists_signed {p : Precision} (style : FloatStyle) {x : Binary p}
    (hFinite : x.isFinite = true) : ∃ negative letters, Unsigned letters ∧
      (x.text style).toList = signed negative letters := by
  cases hValue : x.value with
  | nan => simp [isFinite, hValue] at hFinite
  | infinite negative => simp [isFinite, hValue] at hFinite
  | finite negative significand exponent =>
      cases significand with
      | zero =>
          refine ⟨negative, "0.0".toList, ⟨.places, rfl, rfl⟩, ?_⟩
          simp only [text, hValue, String.toList_ofList, signed]
      | succ significand =>
          let s := shortest style.tie p (significand + 1) exponent
          refine ⟨negative, _, style.unsigned_layout (digits_toDigits s.digits) Nat.toDigits_ne_nil
            s.exponent, ?_⟩
          simp only [text, hValue, String.toList_ofList, signed]
          rfl

namespace Decimal

/-- A decimal is written as a number. -/
theorem unsigned_unsignedText (v : Decimal) : Unsigned v.unsignedText := by
  rw [unsignedText]
  cases hPlaces : v.places with
  | nil =>
      rw [List.isEmpty_nil, if_pos rfl, List.append_nil]
      exact unsigned_digits v.digits_whole v.whole_ne_nil
  | cons c cs =>
      have hDigits : Digits (c :: cs) := hPlaces ▸ v.digits_places
      exact ⟨.places, foldlM_pointed v.digits_whole v.whole_ne_nil hDigits (List.cons_ne_nil c cs),
        rfl⟩

theorem toList_text_signed (v : Decimal) : v.text.toList = signed v.negative v.unsignedText := by
  rw [toList_text, signed]
  cases v.negative <;> rfl

end Decimal

/-! ### Values -/

/-- The literal that a value is written as, if the text is its own. -/
def Value.asLiteral (v : Value) (text : String) : Literal :=
  match v with
  | .boolean (some b) => .boolean b
  | .integer _ (some _) | .float _ (some _) | .decimal (some _) _ _ => .number text
  | .text (some s) => .string s
  | .blob (some bytes) => .blob bytes
  | .date (some x) => .string x.text
  | .time (some x) => .string x.text
  | .timestamp (some x) => .string x.text
  | .zoned (some x) => .string (x.rfc3339.toOption.getD "")
  | .uuid (some x) => .string x.text
  | _ => .null

namespace Dialect

variable (d : Dialect)

/-- A text that is a number with its sign is a literal of itself. -/
theorem spells_signed {text : String} {negative : Bool} {letters : List Char}
    (h : Unsigned letters) (hText : text.toList = signed negative letters) :
    d.Spells text.toList (.number text) := by
  have hNumber := h.spells d negative
  rw [← hText, String.ofList_toList] at hNumber
  exact hNumber

theorem spells_null : d.Spells "NULL".toList .null := ⟨.word _, rfl, rfl⟩

theorem spells_boolean (b : Bool) :
    d.Spells (if b then "TRUE" else "FALSE").toList (.boolean b) := by
  cases b
  · exact ⟨.word _, rfl, rfl⟩
  · exact ⟨.word _, rfl, rfl⟩

/-- Identifiers have no character that needs another form between quotes. -/
theorem spells_uuid (u : Uuid) : d.Spells ("'" ++ u.text ++ "'").toList (.string u.text) := by
  have hPlain : ∀ c ∈ u.text.toList, c ≠ '\'' ∧ c ≠ '\\' :=
    u.forall_mem_text (by decide) (by decide)
  rw [← stringLiteral_of_plain hPlain]
  exact spells_stringLiteral d u.text

/-- A value that has a literal is written as one. -/
theorem spells_literal {v : Value} {text : String} (h : d.literal v = .ok text) :
    d.Spells text.toList (v.asLiteral text) := by
  unfold literal at h
  split at h
  next b =>
    obtain rfl := Except.ok.inj h
    exact d.spells_boolean b
  next k n =>
    obtain rfl := Except.ok.inj h
    exact d.spells_signed (unsigned_digits (digits_toDigits _) Nat.toDigits_ne_nil)
      (toList_toString n.val)
  next p x =>
    split at h
    next hFinite =>
      obtain rfl := Except.ok.inj h
      obtain ⟨negative, letters, hUnsigned, hText⟩ := x.exists_signed (.literal p) hFinite
      exact d.spells_signed hUnsigned hText
    next => cases h
  next x precision scale =>
    obtain rfl := Except.ok.inj h
    exact d.spells_signed x.unsigned_unsignedText x.toList_text_signed
  next s =>
    obtain rfl := Except.ok.inj h
    exact d.spells_stringLiteral s
  next bytes =>
    obtain rfl := Except.ok.inj h
    exact d.spells_blobLiteral bytes
  next x =>
    obtain rfl := Except.ok.inj h
    exact d.spells_stringLiteral x.text
  next x =>
    obtain rfl := Except.ok.inj h
    exact d.spells_stringLiteral x.text
  next x =>
    obtain rfl := Except.ok.inj h
    exact d.spells_stringLiteral x.text
  next x =>
    cases hText : x.rfc3339 with
    | error e =>
        rw [hText] at h
        cases h
    | ok s =>
        rw [hText] at h
        obtain rfl := Except.ok.inj h
        rw [Value.asLiteral, hText]
        exact d.spells_stringLiteral s
  next x =>
    obtain rfl := Except.ok.inj h
    exact d.spells_uuid x
  next => cases h
  next hBoolean hInteger hFloat hDecimal hString hBlob hDate hTime hTimestamp hZoned hUuid _ =>
    obtain rfl := Except.ok.inj h
    have hMissing : v.asLiteral "NULL" = .null := by
      unfold Value.asLiteral
      split
      next => exact absurd rfl (hBoolean _)
      next => exact absurd rfl (hInteger _ _)
      next => exact absurd rfl (hFloat _ _)
      next => exact absurd rfl (hDecimal _ _ _)
      next => exact absurd rfl (hString _)
      next => exact absurd rfl (hBlob _)
      next => exact absurd rfl (hDate _)
      next => exact absurd rfl (hTime _)
      next => exact absurd rfl (hTimestamp _)
      next => exact absurd rfl (hZoned _)
      next => exact absurd rfl (hUuid _)
      next => rfl
    rw [hMissing]
    exact d.spells_null

/-- The text of every value that has a literal, and of every comment, is one literal. In front of
anything that begins with no quote, digit, letter or point, it is read to its end and no further, and
what is read is the value: the same string, the same bytes. -/
theorem readLiteral_literal {rest : List Char} (hRest : ∀ c ∈ rest.head?, EndsLiteral c) :
    (∀ v text, d.literal v = .ok text →
      d.readLiteral (text.toList ++ rest) = some (v.asLiteral text, rest)) ∧
    ∀ comment, d.readLiteral ((d.stringLiteral comment).toList ++ rest) =
      some (.string comment, rest) :=
  ⟨fun _ _ h => (d.spells_literal h).readLiteral hRest,
    fun comment => (d.spells_stringLiteral comment).readLiteral hRest⟩

/-- Quotes and backslashes at both ends of a string, and a decimal, in front of another column. -/
theorem readLiteral_literal_hostile :
    let s := "\\'; DROP TABLE t -- '\\"
    let written := "'\\\\''; DROP TABLE t -- ''\\\\'"
    let price : Decimal := ⟨true, 50, 2, by decide, by decide⟩
    let rest := ", b TEXT".toList
    (∀ c ∈ rest.head?, EndsLiteral c) ∧
      (mysql.literal (.text (some s)) = .ok written ∧
        mysql.readLiteral (written.toList ++ rest) = some (.string s, rest)) ∧
      (mysql.literal (.decimal (some price) 0 0) = .ok "-0.50" ∧
        mysql.readLiteral ("-0.50".toList ++ rest) = some (.number "-0.50", rest)) ∧
      mysql.readLiteral ((mysql.stringLiteral s).toList ++ rest) = some (.string s, rest) := by
  intro s written price rest
  have hRest : ∀ c ∈ rest.head?, EndsLiteral c := by
    intro c hc
    obtain rfl : ',' = c := by simpa [rest] using hc
    exact ⟨by decide, by decide, by decide, by decide⟩
  have hWritten : mysql.stringLiteral s = written := by decide +kernel
  have hPrice : price.text = "-0.50" := by decide +kernel
  have hString : mysql.literal (.text (some s)) = .ok written := congrArg Except.ok hWritten
  have hNumber : mysql.literal (.decimal (some price) 0 0) = .ok "-0.50" := congrArg Except.ok hPrice
  obtain ⟨hValues, hComments⟩ := readLiteral_literal mysql hRest
  exact ⟨hRest, ⟨hString, hValues _ _ hString⟩, ⟨hNumber, hValues _ _ hNumber⟩, hComments s⟩

end Dialect

end SqlMapper
