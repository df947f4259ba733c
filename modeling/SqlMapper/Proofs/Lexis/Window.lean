import SqlMapper.Proofs.Lexis.Piece
import SqlMapper.Proofs.Text.Blank

/-! Window clauses as a database reads them. The clause begins at the word `LIMIT`, which is a word
only where no name and no literal is meant; its numbers are taken in the order of the dialect. -/
namespace SqlMapper

/-- The counts of skipped rows and of rows returned at most that a clause asks for. -/
def WindowStyle.read : WindowStyle → List (Token Slot) → Option (Nat × Nat)
  | _, [.word "LIMIT", .number n] => some (0, n)
  | .limitOffset, [.word "LIMIT", .number n, .word "OFFSET", .number offset] => some (offset, n)
  | .offsetLimit, [.word "LIMIT", .number offset, .mark ",", .number n] => some (offset, n)
  | _, _ => none

namespace Dialect

/-- The tokens of a statement before its window clause. -/
def body (d : Dialect) (sql : String) : List (Token Slot) :=
  (d.tokens sql).takeWhile (· != .word "LIMIT")

/-- The tokens of the window clause of a statement. -/
def windowTokens (d : Dialect) (sql : String) : List (Token Slot) :=
  (d.tokens sql).dropWhile (· != .word "LIMIT")

/-- The order of the counts that a database reads: MySQL has the rows to skip in front. -/
def windowSyntax (d : Dialect) : WindowStyle :=
  if d.name = "mysql" then .offsetLimit else .limitOffset

/-- The rows that a statement returns of the result it would have without its window clause; none if
the clause cannot be read. -/
def shown {α : Type} (d : Dialect) (sql : String) (rows : List α) : Option (List α) :=
  match d.windowTokens sql with
  | [] => some rows
  | clause => (d.windowSyntax.read clause).map fun (offset, n) => (rows.drop offset).take n

end Dialect

namespace Partial

variable {d : Dialect}

theorem start_of_isDigit (hQuote : d.quote ∈ nameQuotes) {c : Char} (hc : c.isDigit = true) :
    start d c = number (grown 0 c) := by
  have hOther : c ∉ ['"', '\x60', '\'', '_'] := by
    simp only [List.mem_cons, List.not_mem_nil, or_false]
    rintro (rfl | rfl | rfl | rfl) <;> revert hc <;> decide
  have hLetter : Dialect.isNameStart c = false := by
    have hLine : c ≠ '_' := by
      rintro rfl
      exact hOther (by decide)
    simp [Dialect.isNameStart, Text.isAlpha_of_isDigit hc, hLine]
  have hOwn : c ≠ d.quote := by
    rintro rfl
    exact hOther (List.mem_append_left ['\'', '_'] hQuote)
  have hString : c ≠ '\'' := by
    rintro rfl
    exact hOther (by decide)
  simp [start, hOwn, hString, hLetter, hc]

/-- The digits of a number are one token. -/
theorem scan_number (hQuote : d.quote ∈ nameQuotes) (n : Nat) :
    scan d .blank (toString n).toList = [.number n] ∧
      after d .blank (toString n).toList = number n := by
  have hText : (toString n).toList = Nat.toDigits 10 n := by simp
  have hDigits : ∀ c ∈ Nat.toDigits 10 n, c.isDigit = true := fun c hc =>
    Nat.isDigit_of_mem_toDigits (by decide) (by decide) hc
  have hValue := Nat.ofDigitChars_ten_toDigits (n := n)
  rw [hText]
  cases hCons : Nat.toDigits 10 n with
  | nil => exact absurd hCons Nat.toDigits_ne_nil
  | cons c cs =>
      rw [hCons, List.forall_mem_cons] at hDigits
      have hStart := start_of_isDigit hQuote hDigits.1
      have hOpen : (extend d .blank c).getD (start d c) = number (grown 0 c) := hStart
      obtain ⟨hScan, hAfter⟩ := scan_after_of_extendAll
        (extendAll_digits (d := d) (p := number) (fun _ _ hc => if_pos hc) hDigits.2 (grown 0 c))
      have hWhole : Nat.ofDigitChars 10 cs (grown 0 c) = n := by
        rw [← hValue, hCons]
        rfl
      rw [scan_blank_cons, hStart, hScan, after, hOpen, hAfter, hWhole]
      exact ⟨rfl, rfl⟩

end Partial

namespace Dialect

variable {d : Dialect}

open Partial

def windowClause (d : Dialect) (offset n : Nat) : List (Token Slot) :=
  .word "LIMIT" :: match d.window with
    | .limitOffset => .number n :: if 0 < offset then [.word "OFFSET", .number offset] else []
    | .offsetLimit => (if 0 < offset then [.number offset, .mark ","] else []) ++ [.number n]

/-- Each dialect writes windows in its own syntax. -/
theorem windowSyntax_eq : ∀ d ∈ provided, d.windowSyntax = d.window := by decide

/-- The tokens of a window are read back as its bounds. -/
theorem read_windowClause (hd : d ∈ provided) (offset n : Nat) :
    d.windowSyntax.read (d.windowClause offset n) = some (offset, n) := by
  rw [windowSyntax_eq d hd, windowClause]
  rcases Nat.eq_zero_or_pos offset with rfl | hOffset
  · cases d.window <;> rfl
  · rw [if_pos hOffset, if_pos hOffset]
    cases d.window <;> rfl

/-- A number, behind which the text goes on with a separator. -/
theorem scan_number_append (hQuote : d.quote ∈ nameQuotes) (n : Nat) {cs : List Char}
    (hCut : ∀ c ∈ cs.head?, c ∈ separators) :
    scan d .blank ((toString n).toList ++ cs) = .number n :: scan d .blank cs := by
  obtain ⟨hScan, hAfter⟩ := scan_number hQuote n
  rw [scan_append, hScan]
  · rfl
  · intro c hc
    rw [hAfter]
    exact extend_separator hQuote rfl (hCut c hc)

/-- A fixed text that ends with a separator. -/
theorem scan_text_append (hQuote : d.quote ∈ nameQuotes) {s : String}
    (hClear : (Piece.text s).isClear = true) (hCloses : (Piece.text s).closes = true)
    (cs : List Char) : scan d .blank (s.toList ++ cs) = d.tokens s ++ scan d .blank cs :=
  scan_append _ _ _ fun c _ => Piece.extend_after_of_closes hQuote hClear hCloses 0 c

/-- The text of a window has these tokens. -/
theorem tokens_windowText (hd : d ∈ provided) (offset n : Nat) :
    d.tokens (d.windowText offset n) = d.windowClause offset n := by
  have hQuote := quote_mem_of_provided hd
  have hWords : ∀ d ∈ provided, d.tokens "LIMIT " = [.word "LIMIT"] ∧
      d.tokens " OFFSET " = [.word "OFFSET"] ∧ d.tokens ", " = [.mark ","] := by decide +kernel
  obtain ⟨hLimit, hOffset, hComma⟩ := hWords d hd
  have hLast (m : Nat) : scan d .blank (toString m).toList = [.number m] := (scan_number hQuote m).1
  rw [tokens, windowText, windowClause]
  cases d.window with
  | limitOffset =>
      dsimp only
      rw [String.toList_append, String.toList_append, List.append_assoc,
        scan_text_append hQuote rfl rfl, hLimit]
      split
      next =>
        rw [String.toList_append, scan_number_append hQuote n (by simp [separators]),
          scan_text_append hQuote rfl rfl, hOffset, hLast]
        rfl
      next =>
        rw [String.toList_empty, List.append_nil, hLast]
        rfl
  | offsetLimit =>
      dsimp only
      rw [String.toList_append, String.toList_append, List.append_assoc,
        scan_text_append hQuote rfl rfl, hLimit]
      split
      next =>
        rw [String.toList_append, List.append_assoc,
          scan_number_append hQuote offset (by simp [separators]),
          scan_text_append hQuote rfl rfl, hComma, hLast]
        rfl
      next =>
        rw [String.toList_empty, List.nil_append, hLast]
        rfl

end Dialect

end SqlMapper
