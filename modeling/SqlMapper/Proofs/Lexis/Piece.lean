import Mathlib.Data.List.Chain
import SqlMapper.Proofs.Lexis.Token

/-! The tokens of a statement are those of its pieces, one after another. No name, whatever its
letters are, changes how the text around it is cut. All that is asked of a statement is that a
separator stands between any two pieces that could run together. -/
namespace SqlMapper

/-- The characters that end any token but an open quote, and begin none that could go on. -/
def separators : List Char := [' ', '\n', '(', ')', ',', '.']

/-- The quotes around names. -/
def nameQuotes : List Char := ['"', '\x60']

/-- Each dialect that comes with the library quotes names with one of these quotes. -/
theorem quote_mem_of_provided {d : Dialect} (hd : d ∈ Dialect.provided) :
    d.quote ∈ nameQuotes := by
  simp only [Dialect.provided, List.mem_cons, List.not_mem_nil, or_false] at hd
  rcases hd with rfl | rfl | rfl <;> decide

namespace Partial

variable {d : Dialect}

/-- The token is not an open quote. -/
def isOutside : Partial → Bool
  | quoted _ | string _ | escaped _ => false
  | _ => true

/-- Outside of quotes a separator ends what is being read. -/
theorem extend_separator (hQuote : d.quote ∈ nameQuotes) {p : Partial}
    (hOutside : p.isOutside = true) {c : Char} (hc : c ∈ separators) :
    p.extend d c = none := by
  have hNe : c ≠ d.quote := by
    rintro rfl
    revert hQuote hc
    simp only [nameQuotes, separators, List.mem_cons, List.not_mem_nil, or_false]
    rintro (h | h) <;> simp [h]
  simp only [separators, List.mem_cons, List.not_mem_nil, or_false] at hc
  cases p with
  | quoted | string | escaped => simp [isOutside] at hOutside
  | blank | question | pair => rfl
  | closed ls => simp [extend, hNe]
  | word | ended | number | dollar | mark =>
      rcases hc with rfl | rfl | rfl | rfl | rfl | rfl <;> simp [extend] <;> decide

/-- Nothing goes on behind a separator. -/
theorem extend_start_separator (hQuote : d.quote ∈ nameQuotes) {c : Char} (hc : c ∈ separators)
    (next : Char) : (start d c).extend d next = none := by
  simp only [separators, List.mem_cons, List.not_mem_nil, or_false] at hc
  simp only [nameQuotes, List.mem_cons, List.not_mem_nil, or_false] at hQuote
  have hStart : start d c = blank ∨ (start d c = mark c ∧ c ∉ pairs) := by
    rcases hc with rfl | rfl | rfl | rfl | rfl | rfl <;> rcases hQuote with h | h <;>
      simp [start, h] <;> decide
  rcases hStart with h | ⟨h, hPairs⟩
  · rw [h]
    rfl
  · rw [h]
    simp [extend, hPairs]

theorem isOutside_start {c : Char} (hName : c ≠ d.quote) (hString : c ≠ '\'') :
    (start d c).isOutside = true := by
  simp only [start, hName, hString, if_false]
  repeat' split
  all_goals rfl

theorem isOutside_extend {p q : Partial} (hOutside : p.isOutside = true) {c : Char}
    (hName : c ≠ d.quote) (hString : c ≠ '\'') (h : p.extend d c = some q) :
    q.isOutside = true := by
  cases p with
  | quoted | string | escaped => simp [isOutside] at hOutside
  | blank | question | pair => simp [extend] at h
  | closed => exact absurd (Option.ite_none_right_eq_some.mp h).1 hName
  | ended => exact absurd (Option.ite_none_right_eq_some.mp h).1 hString
  | word | number | dollar | mark =>
      obtain ⟨-, hq⟩ := Option.ite_none_right_eq_some.mp h
      cases hq
      rfl

/-- Characters that are no quotes never open one. -/
theorem isOutside_after {p : Partial} (hOutside : p.isOutside = true) {cs : List Char}
    (hcs : ∀ c ∈ cs, c ≠ d.quote ∧ c ≠ '\'') : (after d p cs).isOutside = true := by
  induction cs generalizing p with
  | nil => exact hOutside
  | cons c cs ih =>
      obtain ⟨hName, hString⟩ := hcs c (List.mem_cons_self ..)
      refine ih ?_ fun c hc => hcs c (List.mem_cons_of_mem _ hc)
      cases hExtend : p.extend d c with
      | none => exact isOutside_start hName hString
      | some q => exact isOutside_extend hOutside hName hString hExtend

/-! ### Names -/

/-- Letters, digits and underscores go on with a word. -/
theorem extendAll_word {cs : List Char} (hcs : ∀ c ∈ cs, Dialect.isNamePart c = true)
    (ls : List Char) : extendAll d (word ls) cs = some (word (ls ++ cs)) := by
  induction cs generalizing ls with
  | nil => simp
  | cons c cs ih =>
      have hc := hcs c (List.mem_cons_self ..)
      rw [extendAll_cons, extend, if_pos hc, Option.bind_some,
        ih (fun c hc => hcs c (List.mem_cons_of_mem _ hc)), List.append_assoc]
      rfl

/-- A token that digits go on counts them up. -/
theorem extendAll_digits {p : Nat → Partial}
    (hDigit : ∀ n c, c.isDigit = true → (p n).extend d c = some (p (grown n c))) {cs : List Char}
    (hcs : ∀ c ∈ cs, c.isDigit = true) (n : Nat) :
    extendAll d (p n) cs = some (p (Nat.ofDigitChars 10 cs n)) := by
  induction cs generalizing n with
  | nil => rfl
  | cons c cs ih =>
      rw [List.forall_mem_cons] at hcs
      rw [extendAll_cons, hDigit n c hcs.1, Option.bind_some, ih hcs.2]
      rfl

/-- Inside of a quoted name its quote is doubled, so it does not end there. -/
theorem extendAll_doubled (cs ls : List Char) :
    extendAll d (quoted ls) (Text.replaceChars d.quote [d.quote, d.quote] cs) =
      some (quoted (ls ++ cs)) := by
  induction cs generalizing ls with
  | nil => simp
  | cons c cs ih =>
      have hCons : Text.replaceChars d.quote [d.quote, d.quote] (c :: cs) =
          (if c = d.quote then [d.quote, d.quote] else [c]) ++
            Text.replaceChars d.quote [d.quote, d.quote] cs := rfl
      have hOne : extendAll d (quoted ls) (if c = d.quote then [d.quote, d.quote] else [c]) =
          some (quoted (ls ++ [c])) := by
        by_cases h : c = d.quote
        · simp [h, extendAll_cons, extend]
        · simp [h, extendAll_cons, extend]
      rw [hCons, extendAll_append, hOne, Option.bind_some, ih, List.append_assoc]
      rfl

end Partial

namespace Dialect

open Partial

variable {d : Dialect}

theorem start_of_isNameStart (hQuote : d.quote ∈ nameQuotes) {c : Char}
    (hc : isNameStart c = true) : start d c = .word [c] := by
  have hName : c ≠ d.quote := by
    rintro rfl
    revert hc
    simp only [nameQuotes, List.mem_cons, List.not_mem_nil, or_false] at hQuote
    rcases hQuote with h | h <;> rw [h] <;> decide
  have hString : c ≠ '\'' := by
    rintro rfl
    revert hc
    decide
  simp [start, hName, hString, hc]

/-- The letters of a name belong to one token: a word that is not reserved, or a name behind its
closing quote. -/
theorem extendAll_identifier (hQuote : d.quote ∈ nameQuotes) (name : String) :
    ∃ c cs p, (d.identifier name).toList = c :: cs ∧ extendAll d (start d c) cs = some p ∧
      (p = .word name.toList ∧ d.isReserved name = false ∨ p = .closed name.toList) := by
  unfold identifier
  by_cases hBare : d.isBare name = true
  · rw [if_pos hBare]
    simp only [isBare, isPlain, Bool.and_eq_true, Bool.not_eq_true'] at hBare
    obtain ⟨⟨-, hReserved⟩, hPlain⟩ := hBare
    cases hName : name.toList with
    | nil => simp [hName] at hPlain
    | cons c cs =>
        simp only [hName, Bool.and_eq_true, List.all_eq_true] at hPlain
        refine ⟨c, cs, _, rfl, ?_, .inl ⟨rfl, hReserved⟩⟩
        rw [start_of_isNameStart hQuote hPlain.1]
        exact extendAll_word hPlain.2 [c]
  · rw [if_neg hBare, Text.doubled, String.toList_ofList]
    refine ⟨d.quote, Text.replaceChars d.quote [d.quote, d.quote] name.toList ++ [d.quote], _, rfl,
      ?_, .inr rfl⟩
    have hStart : start d d.quote = .quoted [] := by simp [start]
    rw [hStart, extendAll_append, extendAll_doubled]
    simp [extendAll_cons, extend]

/-- The letters of a name are one token, which is the name itself. -/
theorem scan_identifier (hQuote : d.quote ∈ nameQuotes) (name : String) :
    scan d .blank (d.identifier name).toList = [.name name] ∧
      (after d .blank (d.identifier name).toList).isOutside = true := by
  obtain ⟨c, cs, p, hText, hAll, hToken⟩ := extendAll_identifier hQuote name
  obtain ⟨hScan, hAfter⟩ := scan_after_of_extendAll hAll
  have hOpen : (extend d .blank c).getD (start d c) = start d c := rfl
  rw [hText, scan_blank_cons, hScan, after, hOpen, hAfter]
  rcases hToken with ⟨rfl, hReserved⟩ | rfl
  · simp [flush, hReserved, isOutside]
  · simp [flush, isOutside]

/-- The slot that a placeholder of the dialect shows. -/
def slot (d : Dialect) (position : Nat) : Slot := if d.numbered then some position else none

/-- A placeholder is one token, which shows its position exactly in dialects that number them. -/
theorem scan_placeholder (hQuote : d.quote ∈ nameQuotes) (position : Nat) :
    scan d .blank (d.placeholder position).toList = [.operand (d.slot position)] ∧
      (after d .blank (d.placeholder position).toList).isOutside = true := by
  simp only [nameQuotes, List.mem_cons, List.not_mem_nil, or_false] at hQuote
  cases hNumbered : d.numbered with
  | false =>
      have hStart : start d '?' = .question := by
        rcases hQuote with h | h <;> simp [start, h] <;> decide
      have hAfter : (extend d .blank '?').getD (start d '?') = .question := hStart
      have hText : (d.placeholder position).toList = ['?'] := by simp [placeholder, hNumbered]
      rw [hText, scan_blank_cons, hStart, after, hAfter]
      simp [flush, slot, hNumbered, isOutside]
  | true =>
      have hStart : start d '$' = .dollar 0 := by
        rcases hQuote with h | h <;> simp [start, h] <;> decide
      have hOpen : (extend d .blank '$').getD (start d '$') = .dollar 0 := hStart
      have hText : (d.placeholder position).toList = '$' :: Nat.toDigits 10 position := by
        simp [placeholder, hNumbered]
      have hAll : ∀ c ∈ Nat.toDigits 10 position, c.isDigit = true := fun c hc =>
        Nat.isDigit_of_mem_toDigits (by decide) (by decide) hc
      have hDigits := extendAll_digits (d := d) (p := dollar) (fun _ _ hc => if_pos hc) hAll 0
      rw [Nat.ofDigitChars_ten_toDigits] at hDigits
      obtain ⟨hScan, hAfter⟩ := scan_after_of_extendAll hDigits
      rw [hText, scan_blank_cons, hStart, hScan, after, hOpen, hAfter]
      simp [flush, slot, hNumbered, isOutside]

end Dialect

/-! ### Statements -/

namespace Piece

/-- Characters that have a meaning of their own to the scanner: quotes and placeholders. -/
def reserved : List Char := ['"', '\x60', '\'', '$', '?']

/-- A fixed text holds no reserved character. -/
def isClear : Piece → Bool
  | .text s => s.toList.all (· ∉ reserved)
  | _ => true

def opens : Piece → Bool
  | .text s => s.toList.head?.any (· ∈ separators)
  | _ => false

def closes : Piece → Bool
  | .text s => s.toList.getLast?.any (· ∈ separators)
  | _ => false

/-- The letters of a piece; a bound value has the given position. -/
def letters (d : Dialect) (position : Nat) : Piece → String
  | .text s => s
  | .name s => d.identifier s
  | .bind _ _ => d.placeholder position

/-- The tokens of a piece; a bound value has the given position. -/
def tokens (d : Dialect) (position : Nat) : Piece → List (Token Slot)
  | .text s => d.tokens s
  | .name s => [.name s]
  | .bind _ _ => [.operand (d.slot position)]

/-- The position of the next bound value. -/
def next (position : Nat) : Piece → Nat
  | .bind _ _ => position + 1
  | _ => position

variable {d : Dialect}

theorem ne_quote_of_isClear (hQuote : d.quote ∈ nameQuotes) {s : String}
    (hClear : (Piece.text s).isClear = true) : ∀ c ∈ s.toList, c ≠ d.quote ∧ c ≠ '\'' := by
  intro c hc
  have hNot : c ∉ reserved := by simpa [isClear] using List.all_eq_true.mp hClear c hc
  have hMem : d.quote ∈ reserved := by
    simp only [nameQuotes, List.mem_cons, List.not_mem_nil, or_false] at hQuote
    rcases hQuote with h | h <;> rw [h] <;> decide
  exact ⟨fun h => hNot (h ▸ hMem), fun h => hNot (h ▸ by decide)⟩

/-- The letters of a piece alone have its tokens and leave no quote open. -/
theorem scan_letters (hQuote : d.quote ∈ nameQuotes) {p : Piece} (hClear : p.isClear = true)
    (position : Nat) :
    Partial.scan d .blank (p.letters d position).toList = p.tokens d position ∧
      (Partial.after d .blank (p.letters d position).toList).isOutside = true := by
  cases p with
  | text s => exact ⟨rfl, Partial.isOutside_after rfl (ne_quote_of_isClear hQuote hClear)⟩
  | name s => exact Dialect.scan_identifier hQuote s
  | bind v t => exact Dialect.scan_placeholder hQuote position

/-- Behind a piece that ends with a separator the text may be cut anywhere. -/
theorem extend_after_of_closes (hQuote : d.quote ∈ nameQuotes) {p : Piece}
    (hClear : p.isClear = true) (hCloses : p.closes = true) (position : Nat) (c : Char) :
    (Partial.after d .blank (p.letters d position).toList).extend d c = none := by
  cases p with
  | name s => simp [closes] at hCloses
  | bind v t => simp [closes] at hCloses
  | text s =>
      simp only [closes, Option.any_eq_true, decide_eq_true_eq] at hCloses
      obtain ⟨last, hLast, hSeparator⟩ := hCloses
      obtain ⟨front, hFront⟩ := List.getLast?_eq_some_iff.mp hLast
      have hOutside : (Partial.after d .blank front).isOutside = true :=
        Partial.isOutside_after rfl fun c hc =>
          ne_quote_of_isClear hQuote hClear c (by simp [hFront, hc])
      have hNone := Partial.extend_separator hQuote hOutside hSeparator
      have hAfter : Partial.after d .blank s.toList = Partial.start d last := by
        rw [hFront, Partial.after_append]
        simp [Partial.after, hNone]
      rw [letters, hAfter]
      exact Partial.extend_start_separator hQuote hSeparator c

end Piece

namespace Sql

/-- No two pieces run together, and no fixed text opens a quote or writes a placeholder. -/
structure Spaced (sql : Sql) : Prop where
  clear : ∀ p ∈ sql, p.isClear = true
  apart : sql.IsChain fun p q => p.closes = true ∨ q.opens = true

/-- The tokens of the pieces; the first bound value has the given position. -/
def tokens (d : Dialect) (position : Nat) : Sql → List (Token Slot)
  | [] => []
  | p :: sql => p.tokens d position ++ tokens d (p.next position) sql

/-- Each token is read in one of the pieces. -/
theorem exists_piece_of_mem_tokens {d : Dialect} {sql : Sql} {position : Nat} {t : Token Slot}
    (h : t ∈ sql.tokens d position) : ∃ p ∈ sql, ∃ position', t ∈ p.tokens d position' := by
  induction sql generalizing position with
  | nil => cases h
  | cons p sql ih =>
      rcases List.mem_append.mp h with hFirst | hRest
      · exact ⟨p, List.mem_cons_self .., position, hFirst⟩
      · obtain ⟨q, hq, position', ht⟩ := ih hRest
        exact ⟨q, List.mem_cons_of_mem _ hq, position', ht⟩

theorem letters_cons (d : Dialect) (position : Nat) (p : Piece) (sql : Sql) :
    d.letters position (p :: sql) = p.letters d position :: d.letters (p.next position) sql := by
  cases p <;> rfl

/-- The first letter of a statement whose first piece begins with a separator. -/
theorem head_mem_separators {d : Dialect} {position : Nat} {p : Piece} {sql : Sql}
    (hOpens : p.opens = true) {c : Char}
    (hc : c ∈ ((d.letters position (p :: sql)).flatMap String.toList).head?) :
    c ∈ separators := by
  cases p with
  | name s => simp [Piece.opens] at hOpens
  | bind v t => simp [Piece.opens] at hOpens
  | text s =>
      cases hs : s.toList with
      | nil => simp [Piece.opens, hs] at hOpens
      | cons first rest =>
          simp only [Piece.opens, hs, List.head?_cons, Option.any_some, decide_eq_true_eq] at hOpens
          simp only [letters_cons, Piece.letters, List.flatMap_cons, hs, List.cons_append,
            List.head?_cons, Option.mem_some_iff] at hc
          exact hc ▸ hOpens

/-- What the scanner reads in the text of a statement are the tokens of its pieces. -/
theorem tokens_letters {d : Dialect} (hQuote : d.quote ∈ nameQuotes) {sql : Sql}
    (hSpaced : sql.Spaced) (position : Nat) :
    d.tokens (String.join (d.letters position sql)) = sql.tokens d position := by
  rw [Dialect.tokens, String.toList_join]
  induction sql generalizing position with
  | nil => rfl
  | cons p sql ih =>
      have hClear := hSpaced.clear p (List.mem_cons_self ..)
      have hRest : Spaced sql :=
        ⟨fun q hq => hSpaced.clear q (List.mem_cons_of_mem _ hq), hSpaced.apart.tail⟩
      obtain ⟨hScan, hOutside⟩ := Piece.scan_letters hQuote hClear position
      rw [letters_cons, List.flatMap_cons, Partial.scan_append, hScan, ih hRest]
      · rfl
      -- The text may be cut behind `p`: a separator is its last letter, or the next one.
      · intro c hc
        cases sql with
        | nil => simp [Dialect.letters] at hc
        | cons q sql =>
            rcases hSpaced.apart.rel_head? rfl with hCloses | hOpens
            · exact Piece.extend_after_of_closes hQuote hClear hCloses position c
            · exact Partial.extend_separator hQuote hOutside (head_mem_separators hOpens hc)

namespace Spaced

theorem nil : Spaced [] := ⟨by simp, .nil⟩

theorem single {p : Piece} (hClear : p.isClear = true) : Spaced [p] :=
  ⟨by simp [hClear], .singleton p⟩

/-- Parts that need no blank between them can stand next to each other. -/
theorem append {a b : Sql} (ha : a.Spaced) (hb : b.Spaced)
    (hEdge : ∀ p ∈ a.getLast?, ∀ q ∈ b.head?, p.closes = true ∨ q.opens = true) :
    Spaced (a ++ b) :=
  ⟨fun p hp => (List.mem_append.mp hp).elim (ha.clear p) (hb.clear p),
    ha.apart.append hb.apart hEdge⟩

/-- What begins with an opening can stand behind everything. -/
theorem append_opening {a b : Sql} (ha : a.Spaced) (hb : b.Spaced)
    (hOpens : ∀ q ∈ b.head?, q.opens = true) : Spaced (a ++ b) :=
  ha.append hb fun _ _ q hq => .inr (hOpens q hq)

/-- A text that ends with a separator may stand before anything. -/
theorem text_cons {s : String} {sql : Sql} (hClear : (Piece.text s).isClear = true)
    (hCloses : (Piece.text s).closes = true) (h : sql.Spaced) : Spaced (.text s :: sql) :=
  (single hClear).append h fun p hp _ _ => by
    obtain rfl : p = .text s := by simpa [eq_comm] using hp
    exact .inl hCloses

end Spaced

/-- The text can stand between any two pieces. -/
def separates (s : String) : Bool :=
  (Piece.text s).isClear && (Piece.text s).opens && (Piece.text s).closes

namespace Spaced

variable {s : String}

/-- A separating text may stand between any two parts. -/
theorem linked {a b : Sql} (hs : separates s = true) (ha : a.Spaced) (hb : b.Spaced) :
    Spaced (a ++ .text s :: b) := by
  simp only [separates, Bool.and_eq_true] at hs
  obtain ⟨⟨hClear, hOpens⟩, hCloses⟩ := hs
  exact ha.append_opening (text_cons hClear hCloses hb) (by simp [hOpens])

theorem enclosed {sql : Sql} (h : sql.Spaced) : Spaced (Sql.enclosed sql) :=
  text_cons rfl rfl (linked rfl h nil)

/-- Parts with a separator between them need no blanks of their own. -/
theorem joined (hs : separates s = true) {parts : List Sql} (hParts : ∀ a ∈ parts, Spaced a) :
    Spaced (Sql.joined s parts) := by
  induction parts with
  | nil => exact nil
  | cons a parts ih =>
      have ha := hParts a (List.mem_cons_self ..)
      have hRest := ih fun b hb => hParts b (List.mem_cons_of_mem _ hb)
      cases parts with
      | nil => exact ha
      | cons b parts => exact linked hs ha hRest

end Spaced

end Sql

end SqlMapper
