import SqlMapper.Proofs.Lexis.Token
import SqlMapper.Proofs.Text.Blank
import SqlMapper.Proofs.Text.Hex
import SqlMapper.Sql.Literal

/-! Literals, as a database reads them at the place of a value. What begins a literal goes on for as
long as characters belong to it. The string literals are those of the scanner of statements; numbers
have a sign of their own here, and words and bytes are read besides. -/
namespace SqlMapper

/-- What stands at the place of a value. -/
inductive Literal where
  | null
  | boolean (b : Bool)
  /-- The letters of a number. -/
  | number (s : String)
  | blob (bytes : List UInt8)
  | string (s : String)
  deriving DecidableEq, Repr

/-! ### Numbers -/

/-- The part of a number that the last character belongs to. -/
inductive NumberPart where
  | nothing
  | sign
  | whole
  | point
  | places
  /-- The letter in front of the exponent. -/
  | mark
  | markSign
  | exponent
  deriving DecidableEq, Repr

namespace NumberPart

/-- The part that a digit behind the character belongs to. -/
def digits : NumberPart → NumberPart
  | nothing | sign | whole => whole
  | point | places => places
  | mark | markSign | exponent => exponent

/-- The part that the next character belongs to, if the number goes on with it. -/
def next (part : NumberPart) (c : Char) : Option NumberPart :=
  if c.isDigit then some part.digits
  else
    match part with
    | nothing => if c = '-' then some sign else none
    | whole => if c = '.' then some point else if c = 'e' ∨ c = 'E' then some mark else none
    | places => if c = 'e' ∨ c = 'E' then some mark else none
    | mark => if c = '-' ∨ c = '+' then some markSign else none
    | _ => none

/-- The number may end here. -/
def isComplete : NumberPart → Bool
  | whole | places | exponent => true
  | _ => false

end NumberPart

/-! ### Literals that are open -/

/-- A literal whose end has not been seen. -/
inductive Opened where
  | nothing
  | number (part : NumberPart) (letters : List Char)
  | word (letters : List Char)
  /-- Inside the quotes around the digits of bytes. -/
  | blob (digits : List Char)
  /-- Behind the digits of bytes and their quotes. -/
  | sealed (digits : List Char)
  | string (p : Partial)
  deriving DecidableEq, Repr

namespace Opened

/-- The literal with one more character, if that belongs to it. -/
def extend (d : Dialect) : Opened → Char → Option Opened
  | nothing, c =>
    if c = '\'' then some (string (.string []))
    else if c.isAlpha then some (word [c])
    else (NumberPart.nothing.next c).map (number · [c])
  | number part ls, c => (part.next c).map (number · (ls ++ [c]))
  | word ls, c =>
    if c.isAlpha then some (word (ls ++ [c]))
    else if c = '\'' ∧ ls = ['X'] then some (blob [])
    else none
  | blob ds, c =>
    if c = '\'' then some (sealed ds)
    else if (Text.hexValue? c).isSome then some (blob (ds ++ [c]))
    else none
  | sealed _, _ => none
  | string p, c => (p.extend d c).map string

/-- The bytes that pairs of digits denote. -/
def bytes? : List Char → Option (List UInt8)
  | [] => some []
  | [_] => none
  | high :: low :: digits => do
    let n ← Text.readHex? [high, low]
    let bytes ← bytes? digits
    return UInt8.ofNat n :: bytes

/-- The words that are literals, in any letter case. -/
def word? (letters : List Char) : Option Literal :=
  if Text.sameName "NULL" (String.ofList letters) then some .null
  else if Text.sameName "TRUE" (String.ofList letters) then some (.boolean true)
  else if Text.sameName "FALSE" (String.ofList letters) then some (.boolean false)
  else none

/-- What the literal is when nothing more belongs to it. -/
def finish : Opened → Option Literal
  | number part ls => if part.isComplete then some (.number (String.ofList ls)) else none
  | word ls => word? ls
  | sealed ds => (bytes? ds).map .blob
  | string (.ended ls) => some (.string (String.ofList ls))
  | _ => none

end Opened

namespace Dialect

/-- The literal that a text begins with, and the characters behind it. -/
def readLiteral (d : Dialect) (text : List Char) : Option (Literal × List Char) :=
  let (opened, rest) := longest (Opened.extend d) .nothing text
  opened.finish.map (·, rest)

/-- All characters of the text belong to one literal. -/
def Spells (d : Dialect) (text : List Char) (l : Literal) : Prop :=
  ∃ opened, text.foldlM (Opened.extend d) .nothing = some opened ∧ opened.finish = some l

end Dialect

/-- The character belongs to no literal that could end in front of it. -/
def EndsLiteral (c : Char) : Prop := c ≠ '\'' ∧ c.isDigit = false ∧ c.isAlpha = false ∧ c ≠ '.'

variable {d : Dialect}

theorem NumberPart.next_of_ends {part : NumberPart} (hComplete : part.isComplete = true) {c : Char}
    (hc : EndsLiteral c) : part.next c = none := by
  obtain ⟨-, hDigit, hAlpha, hPoint⟩ := hc
  have hMark : ¬(c = 'e' ∨ c = 'E') := by
    rintro (rfl | rfl) <;> cases hAlpha
  cases part with
  | whole | places | exponent => simp [next, hDigit, hPoint, hMark]
  | nothing | sign | point | mark | markSign => cases hComplete

namespace Opened

/-- A literal that may end does so in front of anything that is no quote, digit, letter or point. -/
theorem extend_of_ends {opened : Opened} {l : Literal} (hFinish : opened.finish = some l) {c : Char}
    (hc : EndsLiteral c) : opened.extend d c = none := by
  obtain ⟨hQuote, -, hAlpha, -⟩ := id hc
  cases opened with
  | nothing | blob => cases hFinish
  | number part ls =>
      have hComplete := (Option.ite_none_right_eq_some.mp hFinish).1
      simp [extend, NumberPart.next_of_ends hComplete hc]
  | word ls => simp [extend, hQuote, hAlpha]
  | sealed ds => rfl
  | string p =>
      cases p with
      | ended ls => simp [extend, Partial.extend, hQuote]
      | _ => cases hFinish

end Opened

namespace Dialect

/-- A literal is read from its letters, and what is left are the characters behind them. -/
theorem Spells.readLiteral {text : List Char} {l : Literal} (h : d.Spells text l)
    {rest : List Char} (hRest : ∀ c ∈ rest.head?, EndsLiteral c) :
    d.readLiteral (text ++ rest) = some (l, rest) := by
  obtain ⟨opened, hAll, hFinish⟩ := h
  rw [Dialect.readLiteral, longest_append hAll fun c hc => Opened.extend_of_ends hFinish (hRest c hc)]
  simp [hFinish]

/-! ### Strings -/

/-- Inside the quotes a character is read back from its form. -/
theorem extendAll_literalChar (c : Char) (ls : List Char) :
    Partial.extendAll d (.string ls) (d.literalChar c) = some (.string (ls ++ [c])) := by
  by_cases hQuote : c = '\''
  · simp [literalChar, hQuote, Partial.extendAll_cons, Partial.extend]
  · by_cases hEscape : c = '\\' ∧ d.backslashEscapes = true
    · simp [literalChar, hEscape, Partial.extendAll_cons, Partial.extend]
    · simp [literalChar, hQuote, hEscape, Partial.extendAll_cons, Partial.extend]

/-- The letters of a text stay inside of its quotes, whatever they are. -/
theorem extendAll_literalChars (cs ls : List Char) :
    Partial.extendAll d (.string ls) (cs.flatMap d.literalChar) = some (.string (ls ++ cs)) := by
  induction cs generalizing ls with
  | nil => simp
  | cons c cs ih =>
      rw [List.flatMap_cons, Partial.extendAll_append, extendAll_literalChar, Option.bind_some, ih,
        List.append_assoc, List.singleton_append]

theorem foldlM_string (p : Partial) (cs : List Char) :
    cs.foldlM (Opened.extend d) (.string p) = (p.extendAll d cs).map .string := by
  induction cs generalizing p with
  | nil => rfl
  | cons c cs ih =>
      rw [List.foldlM_cons, Partial.extendAll_cons, Opened.extend]
      cases p.extend d c with
      | none => rfl
      | some q => exact ih q

/-- A text between quotes is a string literal of the text, whatever characters it has. -/
theorem spells_stringLiteral (d : Dialect) (s : String) :
    d.Spells (d.stringLiteral s).toList (.string s) := by
  refine ⟨.string (.ended s.toList), ?_, by simp [Opened.finish]⟩
  have hOpen : Opened.extend d .nothing '\'' = some (.string (.string [])) := rfl
  have hClosed : Partial.extendAll d (.string []) (s.toList.flatMap d.literalChar ++ ['\'']) =
      some (.ended s.toList) := by
    rw [Partial.extendAll_append, extendAll_literalChars]
    rfl
  rw [stringLiteral, String.toList_ofList, List.cons_append, List.foldlM_cons, hOpen]
  exact (foldlM_string _ _).trans (by rw [hClosed]; rfl)

/-- A text without quotes and backslashes is its own form between quotes. -/
theorem stringLiteral_of_plain {s : String} (h : ∀ c ∈ s.toList, c ≠ '\'' ∧ c ≠ '\\') :
    d.stringLiteral s = "'" ++ s ++ "'" := by
  have hSame : s.toList.flatMap d.literalChar = s.toList := by
    have hOne : ∀ c ∈ s.toList, d.literalChar c = [c] := fun c hc => by
      simp [literalChar, h c hc]
    rw [List.flatMap_def, List.map_congr_left hOne, ← List.flatMap_def, List.flatMap_singleton']
  apply String.toList_injective
  simp [stringLiteral, hSame]

/-! ### Bytes -/

/-- A digit in upper case denotes its value. -/
theorem hexValue?_toUpper {n : Nat} (h : n < 16) :
    Text.hexValue? (Text.hexDigit n).toUpper = some n ∧ (Text.hexDigit n).toUpper ≠ '\'' := by
  have hAll : ∀ n : Fin 16, Text.hexValue? (Text.hexDigit n.val).toUpper = some n.val ∧
      (Text.hexDigit n.val).toUpper ≠ '\'' := by decide
  exact hAll ⟨n, h⟩

/-- The bytes are those that their digits denote. -/
theorem bytes?_hexBytes (bytes : List UInt8) :
    Opened.bytes? ((Text.hexBytes bytes).map Char.toUpper) = some bytes := by
  induction bytes with
  | nil => rfl
  | cons b bytes ih =>
      obtain ⟨hHigh, -⟩ := hexValue?_toUpper (Nat.mod_lt (b.toNat / 16) (by decide : 0 < 16))
      obtain ⟨hLow, -⟩ := hexValue?_toUpper (Nat.mod_lt b.toNat (by decide : 0 < 16))
      have hDigits : (Text.hexBytes (b :: bytes)).map Char.toUpper =
          (Text.hexDigit (b.toNat / 16 % 16)).toUpper :: (Text.hexDigit (b.toNat % 16)).toUpper ::
            (Text.hexBytes bytes).map Char.toUpper := by
        simp [Text.hexBytes, Text.hexDigits]
      have hByte : 16 * (b.toNat / 16 % 16) + b.toNat % 16 = b.toNat := by
        have hLess := b.toNat_lt
        omega
      rw [hDigits, Opened.bytes?, ih]
      simp [Text.readHex?, hHigh, hLow, hByte]

theorem foldlM_blob {cs : List Char}
    (h : ∀ c ∈ cs, (Text.hexValue? c).isSome = true ∧ c ≠ '\'') (ds : List Char) :
    cs.foldlM (Opened.extend d) (.blob ds) = some (.blob (ds ++ cs)) := by
  induction cs generalizing ds with
  | nil => simp
  | cons c cs ih =>
      obtain ⟨hDigit, hQuote⟩ := h c (List.mem_cons_self ..)
      have hStep : Opened.extend d (.blob ds) c = some (.blob (ds ++ [c])) := by
        simp [Opened.extend, hQuote, hDigit]
      rw [List.foldlM_cons, hStep]
      simpa using ih (fun c hc => h c (List.mem_cons_of_mem _ hc)) (ds ++ [c])

/-- The literal of bytes is read as these bytes. -/
theorem spells_blobLiteral (d : Dialect) (bytes : List UInt8) :
    d.Spells (blobLiteral bytes).toList (.blob bytes) := by
  have hDigits : ∀ c ∈ (Text.hexBytes bytes).map Char.toUpper,
      (Text.hexValue? c).isSome = true ∧ c ≠ '\'' := by
    intro c hc
    obtain ⟨digit, hDigit, rfl⟩ := List.mem_map.mp hc
    obtain ⟨b, -, hPair⟩ := List.mem_flatMap.mp hDigit
    obtain ⟨n, hn, rfl⟩ := Text.exists_of_mem_hexDigits hPair
    obtain ⟨hValue, hQuote⟩ := hexValue?_toUpper hn
    exact ⟨by rw [hValue]; rfl, hQuote⟩
  have hText : (blobLiteral bytes).toList =
      ['X', '\''] ++ ((Text.hexBytes bytes).map Char.toUpper ++ ['\'']) := by
    simp [blobLiteral, Text.upperCase]
  have hOpen : ['X', '\''].foldlM (Opened.extend d) .nothing = some (.blob []) := rfl
  refine ⟨.sealed ((Text.hexBytes bytes).map Char.toUpper), ?_, ?_⟩
  · rw [hText, List.foldlM_append, hOpen, Option.bind_eq_bind, Option.bind_some,
      List.foldlM_append, foldlM_blob hDigits]
    rfl
  · rw [Opened.finish, bytes?_hexBytes]
    rfl

/-! ### Numbers -/

/-- A number that is open goes on as its part does. -/
theorem foldlM_number (part : NumberPart) (ls cs : List Char) :
    cs.foldlM (Opened.extend d) (.number part ls) =
      (cs.foldlM NumberPart.next part).map (Opened.number · (ls ++ cs)) := by
  induction cs generalizing part ls with
  | nil => simp
  | cons c cs ih =>
      rw [List.foldlM_cons, List.foldlM_cons, Opened.extend]
      cases part.next c with
      | none => rfl
      | some other => simpa using ih other (ls ++ [c])

/-- Letters that make a number are the literal of it. -/
theorem spells_number (d : Dialect) {letters : List Char} {part : NumberPart}
    (hLetters : letters.foldlM NumberPart.next .nothing = some part)
    (hComplete : part.isComplete = true) :
    d.Spells letters (.number (String.ofList letters)) := by
  refine ⟨.number part letters, ?_, by rw [Opened.finish, if_pos hComplete]⟩
  cases letters with
  | nil =>
      obtain rfl : NumberPart.nothing = part := Option.some.inj hLetters
      cases hComplete
  | cons c cs =>
      rw [List.foldlM_cons, Option.bind_eq_bind, Option.bind_eq_some_iff] at hLetters
      obtain ⟨first, hFirst, hRest⟩ := hLetters
      have hOther : c ≠ '\'' ∧ c.isAlpha = false := by
        by_cases hDigit : c.isDigit = true
        · refine ⟨?_, Text.isAlpha_of_isDigit hDigit⟩
          rintro rfl
          cases hDigit
        · rw [NumberPart.next, if_neg hDigit] at hFirst
          obtain rfl : c = '-' := (Option.ite_none_right_eq_some.mp hFirst).1
          decide
      have hStep : Opened.extend d .nothing c = some (.number first [c]) := by
        simp [Opened.extend, hOther, hFirst]
      rw [List.foldlM_cons, hStep]
      exact (foldlM_number first [c] cs).trans (by rw [hRest]; rfl)

end Dialect

end SqlMapper
