import SqlMapper.Proofs.Lexis.Reader
import SqlMapper.Proofs.Result
import SqlMapper.Sql.TypeName

/-! The type of a column inside of its definition. Types have no form of their own: words, numbers and
quotes in parentheses, brackets behind them. A type goes on until a clause of the definition or its
end comes, and it is read as far as that. Every type that a dialect gives is read to its end; a type
that a column is given in words has to be one that is. -/
namespace SqlMapper

/-! ### Where types end -/

/-- The words that begin the clauses behind a type. -/
def clauseWords : List String := ["NOT", "DEFAULT", "PRIMARY", "COMMENT"]

/-- The characters that no type goes on with: they end a definition, a statement or its line, or begin
a comment. -/
def typeEnds : List Char := [',', ')', '\n', ';', '-', '/', '#']

/-- Outside of parentheses and quotes a type ends here. -/
def endsType : List Char → Bool
  | [] => true
  | c :: cs =>
    typeEnds.contains c || (Text.isBlank c &&
      clauseWords.contains (Text.upperCase (String.ofList (cs.takeWhile Dialect.isNamePart))))

/-- The parentheses that are open, and whether quotes are. -/
structure Nesting where
  depth : Nat := 0
  quoted : Bool := false

namespace Nesting

/-- Nothing is open. -/
def isFlat (n : Nesting) : Bool := n.depth == 0 && !n.quoted

/-- What is open behind a character. -/
def step (n : Nesting) (c : Char) : Nesting :=
  if c = '\'' then { n with quoted := !n.quoted }
  else if n.quoted then n
  else if c = '(' then { n with depth := n.depth + 1 }
  else if c = ')' then { n with depth := n.depth - 1 }
  else n

/-- The characters up to the end of a type, and the others. -/
def split (n : Nesting) : List Char → List Char × List Char
  | [] => ([], [])
  | c :: cs =>
    if n.isFlat && endsType (c :: cs) then ([], c :: cs)
    else
      let (type, rest) := (n.step c).split cs
      (c :: type, rest)

/-- All of the characters belong to one type, and nothing is open behind them. -/
def isType (n : Nesting) : List Char → Bool
  | [] => n.isFlat
  | c :: cs => !(n.isFlat && endsType (c :: cs)) && (n.step c).isType cs

end Nesting

/-- The text stands for a type: there is something in it, no clause begins in it, and it closes what it
opens. -/
def Text.isType (s : String) : Bool :=
  s.toList.head?.any (!Text.isBlank ·) && Nesting.isType {} s.toList

example : Text.isType "TIMESTAMP WITH TIME ZONE" = true ∧ Text.isType "ENUM('a', 'NOT (')" = true ∧
    Text.isType "TEXT\tnot NULL" = false ∧ Text.isType "INT); DROP TABLE t" = false := by
  decide +kernel

/-- The type that a column names itself, if it does, is one. -/
def Column.NamesType (c : Column) : Prop := c.typeName.isEmpty = false → Text.isType c.typeName = true

instance (c : Column) : Decidable c.NamesType := inferInstanceAs (Decidable (_ → _))

namespace Parse

/-- The type of a column. -/
def typeName : Parse String := fun text =>
  match Nesting.split {} (skipped text) with
  | ([], _) => none
  | (cs, rest) => some (String.ofList cs, rest)

/-- A definition is over: with the text, or in front of another part or a parenthesis. -/
def Closes (rest : List Char) : Prop :=
  rest = [] ∨ (∃ more, rest = ',' :: more) ∨ ∃ more, rest = '\n' :: ')' :: more

/-- A definition is over, or it goes on with one of some words. -/
def Follows (ws : List String) (rest : List Char) : Prop :=
  Closes rest ∨ ∃ w ∈ ws, ∃ more, rest = ' ' :: (w.toList ++ more) ∧ Begins separators more

variable {rest : List Char} {ws : List String}

/-- A definition that is over ends a literal. -/
theorem Closes.begins (h : Closes rest) : Begins ends rest := by
  rcases h with rfl | ⟨more, rfl⟩ | ⟨more, rfl⟩ <;> simp [ends]

/-- What follows in a definition ends a literal. -/
theorem Follows.begins (h : Follows ws rest) : Begins ends rest := by
  rcases h with h | ⟨w, -, more, rfl, -⟩
  · exact h.begins
  · simp [ends]

theorem ends_subset_separators : ends ⊆ separators := by
  simp [ends, separators]

theorem Follows.mono {ws' : List String} (h : Follows ws rest) (hSubset : ws ⊆ ws') :
    Follows ws' rest :=
  h.imp_right fun ⟨w, hw, hMore⟩ => ⟨w, hSubset hw, hMore⟩

/-- A word does not follow where the definition is over or goes on with other words. -/
theorem keyword_eq_none {w : String} (hw : w ∉ ws) (hws : ∀ w ∈ ws, IsKeyword w)
    (h : Follows ws rest) : keyword w rest = none := by
  rw [keyword_eq]
  rcases h with (rfl | ⟨more, rfl⟩ | ⟨more, rfl⟩) | ⟨w', hw', more, rfl, hMore⟩
  · rfl
  · rfl
  · rfl
  · have hOther : w' ≠ w := by
      rintro rfl
      exact hw hw'
    rw [skips_word ' ' _ (by decide), (hws w' hw').reads more hMore, Option.bind_some,
      if_neg hOther]

theorem keywords_eq_none {w : String} {more : List String} (hw : w ∉ ws)
    (hws : ∀ w ∈ ws, IsKeyword w) (h : Follows ws rest) : keywords (w :: more) rest = none := by
  rw [keywords, bind_eq, keyword_eq_none hw hws h]
  rfl

end Parse

namespace Nesting

open Parse (Begins Follows)

variable {rest cs : List Char} {n : Nesting}

/-- Whether a type ends does not depend on what stands behind, if that goes on with no word. -/
theorem endsType_append (c : Char) (hRest : ∀ x ∈ rest.head?, Dialect.isNamePart x = false) :
    endsType (c :: cs ++ rest) = endsType (c :: cs) := by
  have hNone : rest.takeWhile Dialect.isNamePart = [] := by
    cases rest with
    | nil => rfl
    | cons x rest => simp [hRest x rfl]
  have hWord : (cs ++ rest).takeWhile Dialect.isNamePart = cs.takeWhile Dialect.isNamePart := by
    rw [List.takeWhile_append]
    split
    next hLength => rw [hNone, List.append_nil, (List.takeWhile_prefix _).eq_of_length hLength]
    next => rfl
  rw [List.cons_append, endsType, endsType, hWord]

/-- A clause or the end of a definition ends its type. -/
theorem endsType_of_follows (h : Follows clauseWords rest) : endsType rest = true := by
  rcases h with (rfl | ⟨more, rfl⟩ | ⟨more, rfl⟩) | ⟨w, hw, more, rfl, hMore⟩
  · rfl
  · rfl
  · rfl
  · have hKeyword : ∀ w ∈ clauseWords, Parse.IsKeyword w := by decide
    obtain ⟨-, hAll, hUpper⟩ := hKeyword w hw
    have hBlank : Text.isBlank ' ' = true := by decide
    rw [endsType, (Parse.takeWhile_isNamePart hAll hMore).1, String.ofList_toList, hUpper, hBlank]
    simp [hw]

/-- What is one type is read to its end, in front of what can follow a type. -/
theorem split_append (h : n.isType cs = true) (hRest : Follows clauseWords rest) :
    n.split (cs ++ rest) = (cs, rest) := by
  induction cs generalizing n with
  | nil =>
      have hFlat : n.isFlat = true := h
      cases rest with
      | nil => rfl
      | cons c rest => simp [split, hFlat, endsType_of_follows hRest]
  | cons c cs ih =>
      rw [isType, Bool.and_eq_true, Bool.not_eq_true'] at h
      have hBegins : ∀ x ∈ rest.head?, Dialect.isNamePart x = false := fun x hx =>
        Parse.isNamePart_of_mem_separators (Parse.ends_subset_separators (hRest.begins x hx))
      rw [List.cons_append, split, ← List.cons_append, endsType_append c hBegins, h.1, ih h.2]
      rfl

end Nesting

namespace Parse

theorem skips_typeName : Skips typeName := by
  intro c text hc
  rw [typeName, typeName, skipped_cons_blank hc]

/-- A type is read in front of all that can follow one. -/
theorem reads_typeName {s : String} (h : Text.isType s = true) :
    Reads (Follows clauseWords) typeName s.toList s := by
  intro rest hRest
  rw [Text.isType, Bool.and_eq_true] at h
  obtain ⟨hFirst, hType⟩ := h
  cases hText : s.toList with
  | nil => simp [hText] at hFirst
  | cons c cs =>
      have hSolid : Text.isBlank c = false := by simpa [hText] using hFirst
      have hSplit := Nesting.split_append hType hRest
      rw [hText, List.cons_append] at hSplit
      rw [typeName, List.cons_append, skipped_cons hSolid, hSplit]
      dsimp only
      rw [← hText, String.ofList_toList]

end Parse

namespace Nesting

variable {rest cs : List Char} {n : Nesting}

/-! ### The types of the dialects -/

/-- A word goes on with a type. -/
theorem isType_of_word (h : ∀ c ∈ cs, Dialect.isNamePart c = true) :
    isType {} (cs ++ rest) = isType {} rest := by
  induction cs with
  | nil => rfl
  | cons c cs ih =>
      obtain ⟨hc, hcs⟩ := List.forall_mem_cons.mp h
      have hOther : ∀ x, Dialect.isNamePart x = false → c ≠ x := by
        rintro x hx rfl
        rw [hc] at hx
        cases hx
      have hParts : ∀ x ∈ typeEnds, Dialect.isNamePart x = false := by
        simp only [typeEnds, List.forall_mem_cons]
        exact ⟨by decide, by decide, by decide, by decide, by decide, by decide, by decide, nofun⟩
      have hEnds : endsType (c :: cs ++ rest) = false := by
        have hNot : typeEnds.contains c = false := by
          simpa using fun hMem => hOther c (hParts c hMem) rfl
        rw [List.cons_append, endsType, hNot, Parse.isBlank_of_isNamePart hc]
        rfl
      have hStep : step {} c = {} := by
        simp [step, hOther '\'' (by decide), hOther '(' (by decide), hOther ')' (by decide)]
      rw [List.cons_append, isType, ← List.cons_append, hEnds, hStep, ih hcs]
      rfl

/-- Everything but quotes and parentheses goes on with a type inside of parentheses. -/
theorem isType_of_inside (h : ∀ c ∈ cs, c ≠ '\'' ∧ c ≠ '(' ∧ c ≠ ')') :
    isType ⟨1, false⟩ (cs ++ rest) = isType ⟨1, false⟩ rest := by
  induction cs with
  | nil => rfl
  | cons c cs ih =>
      obtain ⟨⟨hQuote, hOpen, hClose⟩, hcs⟩ := List.forall_mem_cons.mp h
      have hStep : step ⟨1, false⟩ c = ⟨1, false⟩ := by simp [step, hQuote, hOpen, hClose]
      rw [List.cons_append, isType, hStep, ih hcs]
      rfl

/-- A type stays one with brackets behind it. -/
theorem isType_append_brackets (h : n.isType cs = true) : n.isType (cs ++ ['[', ']']) = true := by
  induction cs generalizing n with
  | nil =>
      have hFlat : n.isFlat = true := h
      obtain ⟨depth, quoted⟩ := n
      obtain ⟨rfl, rfl⟩ : depth = 0 ∧ quoted = false := by simpa [isFlat] using hFlat
      decide +kernel
  | cons c cs ih =>
      rw [isType, Bool.and_eq_true] at h
      have hBracket : ∀ x ∈ ['[', ']'].head?, Dialect.isNamePart x = false := by
        rintro x hx
        obtain rfl : '[' = x := Option.some.inj hx
        decide
      rw [List.cons_append, isType, ← List.cons_append, endsType_append c hBracket, h.1, ih h.2]
      rfl

end Nesting

namespace Text

theorem isType_brackets {s : String} (h : isType s = true) : isType (s ++ "[]") = true := by
  rw [isType, Bool.and_eq_true] at h
  obtain ⟨hFirst, hType⟩ := h
  have hText : (s ++ "[]").toList = s.toList ++ ['[', ']'] := by rw [String.toList_append]; rfl
  rw [isType, hText, Nesting.isType_append_brackets hType, Bool.and_true]
  cases hList : s.toList with
  | nil => simp [hList] at hFirst
  | cons c cs => simpa [hList] using hFirst

/-- A word with something in parentheses behind it. -/
theorem isType_sized {name inside : String} (hName : Parse.IsKeyword name)
    (hInside : ∀ c ∈ inside.toList, c ≠ '\'' ∧ c ≠ '(' ∧ c ≠ ')') :
    isType (name ++ "(" ++ inside ++ ")") = true := by
  obtain ⟨hSome, hAll, -⟩ := hName
  have hAll := List.all_eq_true.mp hAll
  have hText : (name ++ "(" ++ inside ++ ")").toList = name.toList ++ ('(' :: (inside.toList ++ [')'])) := by
    simp [String.toList_append]
  have hOpen (rest : List Char) : Nesting.isType {} ('(' :: rest) = Nesting.isType ⟨1, false⟩ rest := rfl
  rw [isType, hText, Nesting.isType_of_word hAll, hOpen, Nesting.isType_of_inside hInside]
  obtain ⟨c, cs, hName⟩ := List.exists_cons_of_ne_nil hSome
  have hFirst := Parse.isBlank_of_isNamePart (hAll c (by simp [hName]))
  rw [hName, List.cons_append, List.head?_cons, Option.any_some, hFirst]
  decide

end Text

namespace Dialect

variable {d : Dialect} {v : Value} {length : Option Nat} {precision : Option (Nat × Nat)} {s : String}

theorem inside_toString (n : Nat) : ∀ c ∈ (toString n).toList, c ≠ '\'' ∧ c ≠ '(' ∧ c ≠ ')' := by
  intro c hc
  have hDigit : c.isDigit = true := by
    rw [Nat.toString_eq_repr, Nat.toList_repr] at hc
    exact Nat.isDigit_of_mem_toDigits (by decide) (by decide) hc
  refine ⟨?_, ?_, ?_⟩ <;>
  · rintro rfl
    exact absurd hDigit (by decide)

/-- A type with a length is a type. -/
theorem isType_withLength {name bare : String} (hName : Parse.IsKeyword name)
    (hBare : Text.isType bare = true) : Text.isType (withLength name bare length) = true := by
  cases length with
  | none => exact hBare
  | some n => exact Text.isType_sized hName (inside_toString n)

/-- A type with a precision and a scale is a type. -/
theorem isType_withPrecision {name bare : String} (hName : Parse.IsKeyword name)
    (hBare : Text.isType bare = true) (p scale : Nat) :
    Text.isType (withPrecision name bare precision p scale) = true := by
  rw [withPrecision]
  split
  next p scale _ =>
    have hText : name ++ "(" ++ toString p ++ "," ++ toString scale ++ ")" =
        name ++ "(" ++ (toString p ++ "," ++ toString scale) ++ ")" := by
      simp [String.append_assoc]
    rw [hText]
    refine Text.isType_sized hName fun c hc => ?_
    simp only [String.toList_append, List.mem_append] at hc
    rcases hc with (hc | hc) | hc
    · exact inside_toString p c hc
    · obtain rfl : c = ',' := by simpa using hc
      decide
    · exact inside_toString scale c hc
  next => exact hBare

/-- The types that most dialects have in common are types. -/
theorem isType_commonType {dialect : String} (h : commonType dialect length precision v = .ok s) :
    Text.isType s = true := by
  fun_induction commonType generalizing s with
  | case1 => cases h
  | case3 length precision k =>
      obtain rfl := Except.ok.inj h
      cases k <;> dsimp only <;> decide +kernel
  | case6 =>
      obtain rfl := Except.ok.inj h
      exact isType_withPrecision (by decide +kernel) (by decide +kernel) _ _
  | case7 =>
      obtain rfl := Except.ok.inj h
      exact isType_withLength (by decide +kernel) (by decide +kernel)
  | case14 length precision items element ih =>
      obtain ⟨type, hType, rfl⟩ := Result.map_eq_ok_iff.mp h
      exact Text.isType_brackets (ih hType)
  | _ =>
      obtain rfl := Except.ok.inj h
      decide +kernel

/-- The storage classes are types. -/
theorem isType_storageClass {dialect : String} (h : storageClass dialect length v = .ok s) :
    Text.isType s = true := by
  cases v with
  | null | list => cases h
  | text =>
      obtain rfl := Except.ok.inj h
      exact isType_withLength (by decide +kernel) (by decide +kernel)
  | _ =>
      obtain rfl := Except.ok.inj h
      decide +kernel

/-- The types with sizes are types. -/
theorem isType_sizedType {dialect : String} (h : sizedType dialect length precision v = .ok s) :
    Text.isType s = true := by
  cases v with
  | null | list => cases h
  | integer k =>
      obtain rfl := Except.ok.inj h
      cases k <;> dsimp only <;> decide +kernel
  | float p =>
      cases p <;> obtain rfl := Except.ok.inj h <;> decide +kernel
  | text | blob =>
      obtain rfl := Except.ok.inj h
      exact isType_withLength (by decide +kernel) (by decide +kernel)
  | decimal =>
      obtain rfl := Except.ok.inj h
      exact isType_withPrecision (by decide +kernel) (by decide +kernel) _ _
  | _ =>
      obtain rfl := Except.ok.inj h
      decide +kernel

/-- The type of a column is a type, unless the column names something else as its type. -/
theorem isType_of_columnType {table : String} {c : Column} (hNames : c.NamesType)
    (h : d.columnType table c = .ok s) : Text.isType s = true := by
  rw [columnType] at h
  split at h
  next hNamed =>
    obtain rfl := Except.ok.inj h
    exact hNames (by simpa using hNamed)
  next =>
    split at h
    next name hName =>
      obtain rfl := Except.ok.inj h
      rw [typeName] at hName
      split at hName
      · exact isType_commonType hName
      · exact isType_storageClass hName
      · exact isType_sizedType hName
    next => cases h

end Dialect

end SqlMapper
