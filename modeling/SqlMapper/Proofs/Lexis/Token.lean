import SqlMapper.Sql.Dialect
import SqlMapper.Text.Blank

/-! How a database cuts the text of a statement into tokens, by longest match from left to right.
The scanner knows nothing of pieces: it sees characters only, and a quoted name may contain any of
them. Comments are not treated, since nothing here writes any. -/
namespace SqlMapper

/-- What a statement is read as. Operands are whatever stands for bound values: their
placeholders in a text that is sent, the values themselves once these are put in. -/
inductive Token (ν : Type) where
  /-- A reserved word, in upper case. -/
  | word (s : String)
  /-- A name, without its quotes. -/
  | name (s : String)
  /-- A number without sign or point. -/
  | number (n : Nat)
  /-- What a string literal holds. -/
  | string (s : String)
  /-- An operator or a punctuation mark. -/
  | mark (s : String)
  | operand (v : ν)
  deriving DecidableEq, Repr

/-- A placeholder, with its position if it has one. -/
abbrev Slot := Option Nat

/-- A token whose end has not been seen. -/
inductive Partial where
  | blank
  | word (letters : List Char)
  /-- Inside the quotes of a name. -/
  | quoted (letters : List Char)
  /-- Behind a quote, which ends the name unless a second one follows. -/
  | closed (letters : List Char)
  /-- Inside the quotes of a string literal. -/
  | string (letters : List Char)
  /-- Behind a backslash that escapes the next character. -/
  | escaped (letters : List Char)
  /-- Behind a quote, which ends the literal unless a second one follows. -/
  | ended (letters : List Char)
  | number (n : Nat)
  | question
  | dollar (n : Nat)
  | mark (c : Char)
  /-- A mark together with the `=` behind it. -/
  | pair (c : Char)
  deriving DecidableEq, Repr

namespace Partial

def grown (n : Nat) (c : Char) : Nat := 10 * n + (c.toNat - '0'.toNat)

/-- The marks that form one operator with an `=` behind them. -/
def pairs : List Char := ['!', '<', '>']

def start (d : Dialect) (c : Char) : Partial :=
  if c = d.quote then quoted []
  else if c = '\'' then string []
  else if Dialect.isNameStart c then word [c]
  else if c.isDigit then number (grown 0 c)
  else if c = '$' then dollar 0
  else if c = '?' then question
  else if Text.isBlank c then blank
  else mark c

/-- The token with one more character, if that belongs to it. -/
def extend (d : Dialect) : Partial → Char → Option Partial
  | word ls, c => if Dialect.isNamePart c then some (word (ls ++ [c])) else none
  | quoted ls, c => some (if c = d.quote then closed ls else quoted (ls ++ [c]))
  | closed ls, c => if c = d.quote then some (quoted (ls ++ [c])) else none
  | string ls, c =>
    some (if c = '\'' then ended ls
      else if c = '\\' ∧ d.backslashEscapes then escaped ls
      else string (ls ++ [c]))
  | escaped ls, c => some (string (ls ++ [c]))
  | ended ls, c => if c = '\'' then some (string (ls ++ [c])) else none
  | number n, c => if c.isDigit then some (number (grown n c)) else none
  | dollar n, c => if c.isDigit then some (dollar (grown n c)) else none
  | mark c', c => if c = '=' ∧ c' ∈ pairs then some (pair c') else none
  | blank, _ | question, _ | pair _, _ => none

/-- What the token is when nothing more belongs to it. A quote that was never closed is left over
as a mark. -/
def flush (d : Dialect) : Partial → List (Token Slot)
  | blank => []
  | word ls =>
    let s := String.ofList ls
    [if d.isReserved s then .word (Text.upperCase s) else .name s]
  | quoted _ => [.mark (String.singleton d.quote)]
  | closed ls => [.name (String.ofList ls)]
  | string _ | escaped _ => [.mark "'"]
  | ended ls => [.string (String.ofList ls)]
  | number n => [.number n]
  | question => [.operand none]
  | dollar n => [.operand (some n)]
  | mark c => [.mark (String.singleton c)]
  | pair c => [.mark (String.ofList [c, '='])]

/-- The tokens of characters that follow a begun token. -/
def scan (d : Dialect) (p : Partial) : List Char → List (Token Slot)
  | [] => p.flush d
  | c :: cs =>
    match p.extend d c with
    | some q => scan d q cs
    | none => p.flush d ++ scan d (start d c) cs

/-- The token that is open behind some characters. -/
def after (d : Dialect) (p : Partial) : List Char → Partial
  | [] => p
  | c :: cs => after d ((p.extend d c).getD (start d c)) cs

/-- The token with several more characters, if all belong to it. -/
def extendAll (d : Dialect) (p : Partial) (cs : List Char) : Option Partial :=
  cs.foldlM (fun q c => q.extend d c) p

end Partial

namespace Dialect

def tokens (d : Dialect) (s : String) : List (Token Slot) := Partial.scan d .blank s.toList

/-- The dialects that statements are written for. -/
def provided : List Dialect := [generic, sqlite, mysql]

end Dialect

example : Dialect.generic.tokens "\"a \"\"?\" >= $12 AND b" =
    [.name "a \"?", .mark ">=", .operand (some 12), .word "AND", .name "b"] := by decide

namespace Partial

variable {d : Dialect}

@[simp] theorem scan_nil (p : Partial) : scan d p [] = p.flush d := rfl

theorem scan_cons (p : Partial) (c : Char) (cs : List Char) :
    scan d p (c :: cs) = match p.extend d c with
      | some q => scan d q cs
      | none => p.flush d ++ scan d (start d c) cs := rfl

/-- Nothing is open at the start of a text. -/
@[simp] theorem scan_blank_cons (c : Char) (cs : List Char) :
    scan d .blank (c :: cs) = scan d (start d c) cs := rfl

@[simp] theorem after_nil (p : Partial) : after d p [] = p := rfl

@[simp] theorem after_append (p : Partial) (xs ys : List Char) :
    after d p (xs ++ ys) = after d (after d p xs) ys := by
  induction xs generalizing p with
  | nil => rfl
  | cons c cs ih => exact ih _

/-- Where the open token cannot go on, the text may be cut. -/
theorem scan_append (p : Partial) (xs ys : List Char)
    (hCut : ∀ c ∈ ys.head?, (after d p xs).extend d c = none) :
    scan d p (xs ++ ys) = scan d p xs ++ scan d .blank ys := by
  induction xs generalizing p with
  | nil =>
      cases ys with
      | nil => simp [flush]
      | cons c cs =>
          have hNone : p.extend d c = none := hCut c rfl
          rw [List.nil_append, scan_cons, hNone, scan_nil, scan_blank_cons]
  | cons c cs ih =>
      simp only [List.cons_append, scan_cons]
      cases hExtend : p.extend d c with
      | some q => exact ih q (by simpa [after, hExtend] using hCut)
      | none =>
          have hRest := ih (start d c) (by simpa [after, hExtend] using hCut)
          simp [hRest]

@[simp] theorem extendAll_nil (p : Partial) : extendAll d p [] = some p := rfl

theorem extendAll_cons (p : Partial) (c : Char) (cs : List Char) :
    extendAll d p (c :: cs) = (p.extend d c).bind fun q => extendAll d q cs := by
  simp [extendAll]

theorem extendAll_append (p : Partial) (xs ys : List Char) :
    extendAll d p (xs ++ ys) = (extendAll d p xs).bind fun q => extendAll d q ys := by
  simp [extendAll]

/-- Characters of one token neither end it nor begin another. -/
theorem scan_after_of_extendAll {p q : Partial} {cs : List Char}
    (h : extendAll d p cs = some q) : scan d p cs = q.flush d ∧ after d p cs = q := by
  induction cs generalizing p with
  | nil =>
      obtain rfl : p = q := by simpa using h
      exact ⟨rfl, rfl⟩
  | cons c cs ih =>
      rw [extendAll_cons] at h
      obtain ⟨r, hExtend, hRest⟩ := Option.bind_eq_some_iff.mp h
      simpa [scan_cons, after, hExtend] using ih hRest

end Partial

/-! ### The first token -/

/-- What was begun, with as many characters as belong to it, and the characters behind. -/
def longest {σ : Type} (extend : σ → Char → Option σ) (begun : σ) : List Char → σ × List Char
  | [] => (begun, [])
  | c :: cs =>
    match extend begun c with
    | some more => longest extend more cs
    | none => (begun, c :: cs)

/-- Characters that all belong to what was begun, in front of one that does not. -/
theorem longest_append {σ : Type} {extend : σ → Char → Option σ} {begun whole : σ}
    {text rest : List Char} (hAll : text.foldlM extend begun = some whole)
    (hStop : ∀ c ∈ rest.head?, extend whole c = none) :
    longest extend begun (text ++ rest) = (whole, rest) := by
  induction text generalizing begun with
  | nil =>
      obtain rfl : begun = whole := by simpa using hAll
      cases rest with
      | nil => rfl
      | cons c cs =>
          have hNone : extend begun c = none := hStop c rfl
          simp [longest, hNone]
  | cons c cs ih =>
      rw [List.foldlM_cons] at hAll
      obtain ⟨more, hMore, hRest⟩ := Option.bind_eq_some_iff.mp hAll
      simpa [longest, hMore] using ih hRest

/-- What is read at the beginning of a text, and the characters behind it. -/
def Dialect.first (d : Dialect) : List Char → List (Token Slot) × List Char
  | [] => ([], [])
  | c :: cs =>
    let (p, rest) := longest (Partial.extend d) (Partial.start d c) cs
    (p.flush d, rest)

/-- The scanner reads the first token and then the tokens of what is left. -/
theorem Dialect.scan_eq_first (d : Dialect) (text : List Char) :
    Partial.scan d .blank text = (d.first text).1 ++ Partial.scan d .blank (d.first text).2 := by
  have hBegun (p : Partial) (cs : List Char) :
      Partial.scan d p cs = (longest (Partial.extend d) p cs).1.flush d ++
        Partial.scan d .blank (longest (Partial.extend d) p cs).2 := by
    induction cs generalizing p with
    | nil => simp [longest, Partial.flush]
    | cons c cs ih =>
        rw [Partial.scan_cons, longest]
        cases hExtend : p.extend d c with
        | some q => exact ih q
        | none => rfl
  cases text with
  | nil => rfl
  | cons c cs => exact hBegun _ cs

end SqlMapper
