import Mathlib
import SqlMapper.Proofs.Lexis.Piece

/-! A name in a text. Whatever characters it has, its letters are one token, which is the name and
ends where the letters end. A name stands without quotes only if no word of the dialect's list is the
same but for letter case: the list is searched by halves, for the name in upper case, and that finds
what it should because the lists are sorted and in upper case. -/
namespace SqlMapper

/-! ### Searching by halves -/

namespace Reserved

/-- The search finds exactly the words that a sorted list has. -/
theorem halved_iff {words : List String} (hSorted : words.Pairwise (· < ·)) {halvings : Nat}
    (hLength : words.length ≤ 2 ^ halvings) (w : String) :
    halved halvings words w = true ↔ w ∈ words := by
  induction halvings generalizing words with
  | zero =>
      match words, hLength with
      | [], _ => simp [halved]
      | [word], _ =>
          rw [halved, List.head?_cons, beq_iff_eq, Option.some_inj, List.mem_singleton]
          exact eq_comm
  | succ halvings ih =>
      rw [Nat.pow_succ] at hLength
      rw [halved]
      cases hUpper : words.drop (words.length / 2) with
      | nil =>
          rw [List.drop_eq_nil_iff] at hUpper
          obtain rfl : words = [] := List.length_eq_zero_iff.mp (by omega)
          simp
      | cons middle above =>
          have hParts : words.take (words.length / 2) ++ middle :: above = words := by
            rw [← hUpper, List.take_append_drop]
          have hCut := hSorted
          rw [← hParts, List.pairwise_append] at hCut
          obtain ⟨-, hUpperSorted, hBelow⟩ := hCut
          dsimp only
          split
          next hLess =>
            -- The lower part takes the middle along where the list has an odd length.
            have hLower := hSorted.sublist
              (List.take_sublist (words.length - words.length / 2) words)
            rw [ih hLower (by rw [List.length_take]; omega)]
            refine ⟨List.mem_of_mem_take, fun hMem => ?_⟩
            rw [← hParts, List.mem_append] at hMem
            rcases hMem with hMem | hMem
            · exact (List.take_sublist_take_left (by omega)).subset hMem
            · have hAbove : ∀ word ∈ middle :: above, middle ≤ word := by
                simpa using fun word hWord => le_of_lt (List.rel_of_pairwise_cons hUpperSorted hWord)
              exact absurd hLess (not_lt.mpr (hAbove w hMem))
          next hLess =>
            have hUpperLength := congrArg List.length hUpper
            rw [List.length_drop] at hUpperLength
            rw [ih hUpperSorted (by omega)]
            refine ⟨fun hMem => hParts ▸ List.mem_append_right _ hMem, fun hMem => ?_⟩
            rw [← hParts, List.mem_append] at hMem
            rcases hMem with hMem | hMem
            · exact absurd (hBelow w hMem middle (List.mem_cons_self ..)) hLess
            · exact hMem

/-- Halving a sorted list finds exactly its words. -/
theorem found_iff {words : List String} (hSorted : words.Pairwise (· < ·)) (w : String) :
    found words w = true ↔ w ∈ words :=
  halved_iff hSorted Nat.lt_log2_self.le w

end Reserved

/-! ### Letter case and quotes -/

namespace Text

/-- Upper case forgets that letters were put in lower case. -/
theorem upperCase_lowerCase (s : String) : upperCase (lowerCase s) = upperCase s := by
  simp [upperCase, lowerCase, Function.comp_def]

/-- Lower case forgets that letters were put in upper case. -/
theorem lowerCase_upperCase (s : String) : lowerCase (upperCase s) = lowerCase s := by
  simp [upperCase, lowerCase, Function.comp_def]

/-- Names are the same exactly when they are so in upper case. -/
theorem sameName_iff_upperCase {a b : String} :
    sameName a b = true ↔ upperCase a = upperCase b := by
  rw [sameName_iff]
  constructor
  · intro h
    rw [← upperCase_lowerCase a, h, upperCase_lowerCase]
  · intro h
    rw [← lowerCase_upperCase a, h, lowerCase_upperCase]

/-- Quotes make a text longer. -/
theorem length_doubled (quote : Char) (s : String) : s.length < (doubled quote s).length := by
  have hReplaced (cs : List Char) :
      cs.length ≤ (replaceChars quote [quote, quote] cs).length := by
    induction cs with
    | nil => exact le_rfl
    | cons c cs ih =>
        rw [← List.singleton_append, replaceChars_append, List.length_append,
          List.length_append]
        refine Nat.add_le_add ?_ ih
        by_cases h : c = quote <;> simp [replaceChars, h]
  have hInner := hReplaced s.toList
  rw [String.length_toList] at hInner
  simp only [doubled, String.length_ofList, List.length_cons, List.length_append,
    List.length_nil]
  omega

end Text

namespace Dialect

variable {d : Dialect}

/-- The reserved words are sorted, which the search for them needs. -/
theorem pairwise_reserved (hd : d ∈ provided) : d.reserved.Pairwise (· < ·) := by
  have hChains : ∀ d ∈ provided, d.reserved.IsChain (· < ·) := by decide +kernel
  exact (hChains d hd).pairwise

/-- Reserved words are listed in upper case. -/
theorem upperCase_of_mem_reserved (hd : d ∈ provided) {word : String} (h : word ∈ d.reserved) :
    Text.upperCase word = word := by
  have hWords : ∀ d ∈ provided, ∀ word ∈ d.reserved, Text.upperCase word = word := by
    decide +kernel
  exact hWords d hd word h

/-- The reserved names are the words of the list in any letter case. -/
theorem isReserved_iff (hd : d ∈ provided) (name : String) :
    d.isReserved name = true ↔ ∃ word ∈ d.reserved, Text.sameName word name = true := by
  rw [isReserved, Reserved.found_iff (pairwise_reserved hd)]
  constructor
  · intro h
    exact ⟨_, h, by rw [Text.sameName_iff_upperCase, upperCase_of_mem_reserved hd h]⟩
  · rintro ⟨word, hWord, hSame⟩
    rw [Text.sameName_iff_upperCase, upperCase_of_mem_reserved hd hWord] at hSame
    rwa [← hSame]

/-! ### Names in a text -/

/-- A name that is written as it is stands without quotes, so it is not reserved. -/
theorem isReserved_of_identifier_eq {name : String} (h : d.identifier name = name) :
    d.isReserved name = false := by
  by_cases hBare : d.isBare name = true
  · simp only [isBare, Bool.and_eq_true, Bool.not_eq_true'] at hBare
    exact hBare.1.2
  · rw [identifier, if_neg hBare] at h
    have hLonger := Text.length_doubled d.quote name
    rw [h] at hLonger
    exact absurd hLonger (lt_irrefl _)

/-- A name is the first token of a text that begins with its letters, if what follows goes on neither
with a bare name nor with quotes. -/
theorem first_append (hQuote : d.quote ∈ nameQuotes) (name : String) {rest : List Char}
    (hRest : ∀ c ∈ rest.head?, isNamePart c = false ∧ c ≠ d.quote) :
    d.first ((d.identifier name).toList ++ rest) = ([.name name], rest) := by
  obtain ⟨c, cs, p, hText, hAll, hToken⟩ := extendAll_identifier hQuote name
  have hStop : ∀ c ∈ rest.head?, p.extend d c = none := by
    intro c hc
    obtain ⟨hPart, hOther⟩ := hRest c hc
    rcases hToken with ⟨rfl, -⟩ | rfl
    · simp [Partial.extend, hPart]
    · exact if_neg hOther
  rw [hText, List.cons_append, first, longest_append hAll hStop]
  rcases hToken with ⟨rfl, hReserved⟩ | rfl
  · simp [Partial.flush, hReserved]
  · simp [Partial.flush]

/-- The letters of any name, in front of anything that goes on neither with a bare name nor with
quotes, are one token: the name. What is left are the characters behind it, and they are read as they
would be read alone. No name that is written as it is is a reserved word in any letter case. Whether
names are quoted that need not be makes no difference. -/
theorem first_identifier (hd : d ∈ provided) (quotesAll : Bool) (name : String) {rest : String}
    (hRest : ∀ c ∈ rest.toList.head?, isNamePart c = false ∧ c ≠ d.quote) :
    let e : Dialect := { d with quotesAll }
    e.first (e.identifier name ++ rest).toList = ([.name name], rest.toList) ∧
      e.tokens (e.identifier name ++ rest) = .name name :: e.tokens rest ∧
      (e.identifier name = name → ∀ word ∈ e.reserved, Text.sameName word name = false) := by
  intro e
  have hQuote : d.quote ∈ nameQuotes := quote_mem_of_provided hd
  have hFirst : e.first (e.identifier name ++ rest).toList = ([.name name], rest.toList) := by
    rw [String.toList_append]
    exact first_append (d := e) hQuote name hRest
  refine ⟨hFirst, ?_, fun hSame word hWord => ?_⟩
  · rw [tokens, scan_eq_first, hFirst]
    rfl
  · by_contra hEqual
    rw [Bool.not_eq_false] at hEqual
    have hReserved : d.isReserved name = true := (isReserved_iff hd name).mpr ⟨word, hWord, hEqual⟩
    have hFree : d.isReserved name = false := isReserved_of_identifier_eq (d := e) hSame
    rw [hReserved] at hFree
    cases hFree

/-- A name that would end its own quotes and go on with a statement, and a bare name. -/
theorem first_identifier_hostile :
    let d : Dialect := { Dialect.mysql with quotesAll := false }
    let rest := ".\x60key\x60 = ?"
    let name := "\x60; DROP TABLE t -- \x60\x60é"
    (∀ c ∈ rest.toList.head?, isNamePart c = false ∧ c ≠ Dialect.mysql.quote) ∧
    (d.identifier name = "\x60\x60\x60; DROP TABLE t -- \x60\x60\x60\x60é\x60" ∧
      d.first (d.identifier name ++ rest).toList = ([.name name], rest.toList) ∧
      d.tokens (d.identifier name ++ rest) = .name name :: d.tokens rest) ∧
    (d.identifier "value" = "value" ∧
      d.first (d.identifier "value" ++ rest).toList = ([.name "value"], rest.toList) ∧
      ∀ word ∈ d.reserved, Text.sameName word "value" = false) := by
  intro d rest name
  have hRest : ∀ c ∈ rest.toList.head?, isNamePart c = false ∧ c ≠ Dialect.mysql.quote := by
    intro c hc
    obtain rfl : '.' = c := by simpa [rest] using hc
    decide
  have hMysql : Dialect.mysql ∈ provided := by simp [provided]
  have hBare : d.identifier "value" = "value" := by decide +kernel
  obtain ⟨hFirst, hTokens, -⟩ := first_identifier hMysql false name hRest
  obtain ⟨hValue, -, hFree⟩ := first_identifier hMysql false "value" hRest
  exact ⟨hRest, ⟨by decide +kernel, hFirst, hTokens⟩, hBare, hValue, hFree hBare⟩

end Dialect

end SqlMapper
