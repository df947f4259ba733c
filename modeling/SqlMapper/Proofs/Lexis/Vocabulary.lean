import SqlMapper.Proofs.Lexis.Window

/-! The fixed texts of statements on rows. They are few, and every dialect cuts each of them into the
same tokens, so statements that are put together from the same texts and names read alike wherever
they are sent. None of them has the word that begins a window. -/
namespace SqlMapper

/-! ### Texts -/

namespace Sql

/-- The fixed texts of statements on rows, apart from window clauses and upserts. -/
def vocabulary : List String :=
  ["SELECT ", "SELECT COUNT(*) AS total\nFROM ", "INSERT INTO ", "UPDATE ", "DELETE FROM ",
    "\nFROM ", " (", ") VALUES\n", "\nSET ", "\nWHERE ", "\nORDER BY ",
    " = ", " != ", " < ", " <= ", " > ", " >= ", " LIKE ", " NOT LIKE ", " BETWEEN ",
    " NOT BETWEEN ", " IN (", " NOT IN (", " IS NULL", " IS NOT NULL",
    " AND ", " OR ", " ASC", " DESC", "(", ")", ", ", ",\n", "."]

/-- All dialects read the fixed texts alike. -/
theorem tokens_eq_of_mem_vocabulary : ∀ s ∈ vocabulary, ∀ d ∈ Dialect.provided,
    d.tokens s = Dialect.generic.tokens s := by decide +kernel

/-- No fixed text has a window in it. -/
theorem ne_limit_of_mem_vocabulary : ∀ s ∈ vocabulary, ∀ t ∈ Dialect.generic.tokens s,
    t ≠ .word "LIMIT" := by decide +kernel

/-- Every fixed text is of the vocabulary. -/
def Worded (sql : Sql) : Prop := ∀ s, .text s ∈ sql → s ∈ vocabulary

theorem mem_joined {s : String} {parts : List Sql} {p : Piece} (h : p ∈ joined s parts) :
    p = .text s ∨ ∃ part ∈ parts, p ∈ part := by
  induction parts with
  | nil => cases h
  | cons part parts ih =>
      cases parts with
      | nil => exact .inr ⟨part, List.mem_singleton_self part, h⟩
      | cons next parts =>
          rw [joined] at h
          · rcases List.mem_append.mp h with hPart | hRest
            · exact .inr ⟨part, List.mem_cons_self .., hPart⟩
            · rcases List.mem_cons.mp hRest with rfl | hRest
              · exact .inl rfl
              · exact (ih hRest).imp_right fun ⟨other, hOther, hp⟩ =>
                  ⟨other, List.mem_cons_of_mem _ hOther, hp⟩
          · simp

namespace Worded

variable {s : String} {a b : Sql}

theorem nil : Worded [] := by
  intro s h
  cases h

theorem append (ha : a.Worded) (hb : b.Worded) : Worded (a ++ b) := fun s h =>
  (List.mem_append.mp h).elim (ha s) (hb s)

theorem text_cons (hs : s ∈ vocabulary) (ha : a.Worded) : Worded (.text s :: a) := by
  intro t h
  rcases List.mem_cons.mp h with hHead | hTail
  · cases hHead
    exact hs
  · exact ha t hTail

theorem name_cons (s : String) (ha : a.Worded) : Worded (.name s :: a) := by
  intro t h
  rcases List.mem_cons.mp h with hHead | hTail
  · cases hHead
  · exact ha t hTail

theorem bind (v : Value) (sqlType : String) : Worded [.bind v sqlType] := by
  intro t h
  cases List.mem_singleton.mp h

theorem linked (hs : s ∈ vocabulary) (ha : a.Worded) (hb : b.Worded) :
    Worded (a ++ .text s :: b) :=
  ha.append (hb.text_cons hs)

theorem enclosed (ha : a.Worded) : Worded (Sql.enclosed a) :=
  text_cons (by decide) (ha.linked (by decide) nil)

/-- Parts in the vocabulary can be joined with a text of it. -/
theorem joined (hs : s ∈ vocabulary) {parts : List Sql} (hParts : ∀ part ∈ parts, Worded part) :
    Worded (Sql.joined s parts) := by
  intro t h
  rcases mem_joined h with hText | ⟨part, hPart, hMem⟩
  · cases hText
    exact hs
  · exact hParts part hPart t hMem

end Worded

end Sql

/-! ### Tokens without positions -/

namespace Token

/-- The token with something else for its operand. -/
def map {ν μ : Type} (f : ν → μ) : Token ν → Token μ
  | word s => word s
  | name s => name s
  | number n => number n
  | string s => string s
  | mark s => mark s
  | operand v => operand (f v)

/-- The token without the position of a placeholder. -/
def unnumbered (t : Token Slot) : Token Unit := t.map fun _ => ()

end Token

namespace Sql

/-- The tokens of the pieces without positions, as every dialect reads them. -/
def plainTokens : Sql → List (Token Unit)
  | [] => []
  | .text s :: sql => (Dialect.generic.tokens s).map Token.unnumbered ++ plainTokens sql
  | .name s :: sql => .name s :: plainTokens sql
  | .bind _ _ :: sql => .operand () :: plainTokens sql

variable {d : Dialect} {sql : Sql}

/-- A text in the vocabulary has the same tokens in every dialect, but for the numbers of its
placeholders. -/
theorem Worded.map_unnumbered_tokens (hd : d ∈ Dialect.provided) (h : sql.Worded) (position : Nat) :
    (sql.tokens d position).map Token.unnumbered = sql.plainTokens := by
  induction sql generalizing position with
  | nil => rfl
  | cons p sql ih =>
      have hRest := fun position => ih (fun s hs => h s (List.mem_cons_of_mem _ hs)) position
      rw [tokens, List.map_append, hRest]
      cases p with
      | text s =>
          have hs := h s (List.mem_cons_self ..)
          rw [Piece.tokens, tokens_eq_of_mem_vocabulary s hs d hd, plainTokens]
      | name | bind => rfl

end Sql

end SqlMapper
