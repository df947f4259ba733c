import SqlMapper.Proofs.Lexis.Identifier
import SqlMapper.Proofs.Lexis.Literal

/-! A text is read part by part. A parse takes what it reads from the beginning of a text and leaves the
characters behind it; blanks in front are skipped. What is said of a parse is always that it takes a
certain text, in front of everything that the text cannot run together with. -/
namespace SqlMapper

/-- Reads something at the beginning of a text and leaves the rest. -/
abbrev Parse := StateT (List Char) Option

namespace Parse

variable {α β : Type}

/-! ### Parts of a text -/

/-- The text without the blanks in front. -/
def skipped (text : List Char) : List Char := text.dropWhile Text.isBlank

/-- The letters, digits and underscores up to the first other character, in upper case. -/
def word : Parse String := fun text =>
  match (skipped text).takeWhile Dialect.isNamePart with
  | [] => none
  | cs => some (Text.upperCase (String.ofList cs), (skipped text).dropWhile Dialect.isNamePart)

def keyword (w : String) : Parse Unit := do
  let found ← word
  guard (found = w)

def keywords : List String → Parse Unit
  | [] => return
  | w :: ws => do
    keyword w
    keywords ws

def mark (c : Char) : Parse Unit := fun text =>
  match skipped text with
  | [] => none
  | x :: rest => if x = c then some ((), rest) else none

/-- A name, between quotes or without them. -/
def name (d : Dialect) : Parse String := fun text =>
  match d.first (skipped text) with
  | ([.name s], rest) => some (s, rest)
  | _ => none

/-- What stands at the place of a value. -/
def literal (d : Dialect) : Parse Literal := fun text => d.readLiteral (skipped text)

def string (d : Dialect) : Parse String := do
  match ← literal d with
  | .string s => return s
  | _ => failure

/-! ### Parts of parts -/

def optional (p : Parse α) : Parse (Option α) := fun text =>
  match p text with
  | some (a, rest) => some (some a, rest)
  | none => some (none, text)

/-- Words that may be missing: whether they are there. -/
def present (ws : List String) : Parse Bool := return (← optional (keywords ws)).isSome

/-- At most so many things, and at least one, with a character between them. -/
def separated (c : Char) (p : Parse α) : Nat → Parse (List α)
  | 0 => failure
  | n + 1 => do
    let a ← p
    match ← optional (mark c) with
    | some _ => (a :: ·) <$> separated c p n
    | none => return [a]

/-- Things with commas between them, as many as there are commas for. -/
def listed (p : Parse α) : Parse (List α) := fun text =>
  separated ',' p (text.count ',' + 1) text

/-- Things with commas between them in parentheses, which may be empty. -/
def enclosed (p : Parse α) : Parse (List α) := do
  mark '('
  match ← optional (mark ')') with
  | some _ => return []
  | none =>
    let as ← listed p
    mark ')'
    return as

/-! ### What is read -/

/-- The text is over, or it goes on with one of the characters. -/
def Begins (cs : List Char) (text : List Char) : Prop := ∀ c ∈ text.head?, c ∈ cs

/-- In front of certain texts a reading takes a text and gives a value for it. -/
def Reads (follow : List Char → Prop) (p : Parse α) (text : List Char) (a : α) : Prop :=
  ∀ rest, follow rest → p (text ++ rest) = some (a, rest)

/-- A reading does not mind a blank in front of its text. -/
def Skips (p : Parse α) : Prop := ∀ c text, Text.isBlank c = true → p (c :: text) = p text

/-- The characters that end any name, word or literal. -/
def ends : List Char := [' ', '\n', '(', ')', ',']

variable {follow follow' : List Char → Prop} {p : Parse α} {f : α → Parse β}
  {text text' : List Char} {a : α} {b : β} {d : Dialect}

@[simp] theorem begins_nil (cs : List Char) : Begins cs [] := by simp [Begins]

@[simp] theorem begins_cons {cs : List Char} {c : Char} : Begins cs (c :: text) ↔ c ∈ cs := by
  simp [Begins]

theorem Begins.mono {cs cs' : List Char} (h : Begins cs text) (hSubset : cs ⊆ cs') :
    Begins cs' text :=
  fun c hc => hSubset (h c hc)

theorem Reads.mono (h : Reads follow p text a) (hFollow : ∀ rest, follow' rest → follow rest) :
    Reads follow' p text a :=
  fun rest hRest => h rest (hFollow rest hRest)

theorem bind_eq (p : Parse α) (f : α → Parse β) (text : List Char) :
    (p >>= f) text = (p text).bind fun x => f x.1 x.2 := rfl

/-- One thing is read behind another, in front of which the other ends. -/
theorem Reads.bind (h : Reads follow p text a) (h' : Reads follow' (f a) text' b)
    (hEdge : ∀ rest, follow' rest → follow (text' ++ rest)) :
    Reads follow' (p >>= f) (text ++ text') b := by
  intro rest hRest
  rw [bind_eq, List.append_assoc, h _ (hEdge rest hRest), Option.bind_some]
  exact h' rest hRest

theorem reads_pure (a : α) : Reads follow (pure a) [] a := fun _ _ => rfl

/-- What is made of what was read is read. -/
theorem Reads.map (h : Reads follow p text a) (g : α → β) : Reads follow (g <$> p) text (g a) := by
  intro rest hRest
  change (p >>= fun a => pure (g a)) (text ++ rest) = _
  rw [bind_eq, h rest hRest]
  rfl

theorem Skips.bind (h : Skips p) (f : α → Parse β) : Skips (p >>= f) := by
  intro c text hc
  rw [bind_eq, h c text hc, bind_eq]

theorem Skips.map (h : Skips p) (g : α → β) : Skips (g <$> p) :=
  h.bind fun a => pure (g a)

/-- What may be missing leaves a blank to what is read instead. -/
theorem Skips.optional_bind {f : Option α → Parse β} (h : Skips p) (hNone : Skips (f none)) :
    Skips (optional p >>= f) := by
  intro c text hc
  rw [bind_eq, bind_eq, optional, optional, h c text hc]
  cases p text with
  | none => exact hNone c text hc
  | some x => rfl

/-- A parse that does not mind blanks reads its text behind one as well. -/
theorem Skips.reads {c : Char} (hSkips : Skips p) (hc : Text.isBlank c = true)
    (h : Reads follow p text a) : Reads follow p (c :: text) a := by
  intro rest hRest
  rw [List.cons_append, hSkips c _ hc]
  exact h rest hRest

theorem skipped_cons_blank {c : Char} (hc : Text.isBlank c = true) (text : List Char) :
    skipped (c :: text) = skipped text :=
  List.dropWhile_cons_of_pos hc

theorem skipped_cons {c : Char} (hc : Text.isBlank c = false) (text : List Char) :
    skipped (c :: text) = c :: text :=
  List.dropWhile_cons_of_neg (by simp [hc])

/-- Blanks in front are skipped whatever follows. -/
theorem skipped_append {blanks : List Char} (h : ∀ c ∈ blanks, Text.isBlank c = true)
    (text : List Char) : skipped (blanks ++ text) = skipped text :=
  List.dropWhile_append_of_pos h

theorem skips_word : Skips word := by
  intro c text hc
  rw [word, word, skipped_cons_blank hc]

theorem skips_keyword (w : String) : Skips (keyword w) := skips_word.bind _

theorem skips_mark (x : Char) : Skips (mark x) := by
  intro c text hc
  rw [mark, mark, skipped_cons_blank hc]

theorem skips_name (d : Dialect) : Skips (name d) := by
  intro c text hc
  rw [name, name, skipped_cons_blank hc]

theorem skips_literal (d : Dialect) : Skips (literal d) := by
  intro c text hc
  rw [literal, literal, skipped_cons_blank hc]

theorem skips_string (d : Dialect) : Skips (string d) := (skips_literal d).bind _

/-! ### Words and marks -/

/-- A word that texts are written with: letters and underscores in upper case. -/
def IsKeyword (w : String) : Prop :=
  w.toList ≠ [] ∧ w.toList.all Dialect.isNamePart = true ∧ Text.upperCase w = w

instance (w : String) : Decidable (IsKeyword w) := inferInstanceAs (Decidable (_ ∧ _ ∧ _))

/-- The words with a blank in front of each. -/
def spaced (ws : List String) : List Char := ws.flatMap fun w => ' ' :: w.toList

/-- No separator goes on with a word. -/
theorem isNamePart_of_mem_separators {c : Char} (h : c ∈ separators) :
    Dialect.isNamePart c = false := by
  simp only [separators, List.mem_cons, List.not_mem_nil, or_false] at h
  rcases h with rfl | rfl | rfl | rfl | rfl | rfl <;> decide

theorem isNamePart_of_isNameStart {c : Char} (h : Dialect.isNameStart c = true) :
    Dialect.isNamePart c = true := by
  rw [Dialect.isNameStart, Bool.or_eq_true] at h
  rw [Dialect.isNamePart, Bool.or_eq_true, Char.isAlphanum, Bool.or_eq_true]
  exact h.imp_left .inl

theorem isBlank_of_isNamePart {c : Char} (h : Dialect.isNamePart c = true) :
    Text.isBlank c = false := by
  rw [Dialect.isNamePart, Bool.or_eq_true, Char.isAlphanum, Bool.or_eq_true] at h
  rcases h with (hAlpha | hDigit) | hUnderscore
  · have hBounds : 65 ≤ c.toNat ∧ c.toNat ≤ 122 := by
      simp only [Char.isAlpha, Char.isUpper, Char.isLower, Bool.or_eq_true, Bool.and_eq_true,
        decide_eq_true_eq, UInt32.le_iff_toNat_le] at hAlpha
      have hCases : (65 ≤ c.toNat ∧ c.toNat ≤ 90) ∨ (97 ≤ c.toNat ∧ c.toNat ≤ 122) := hAlpha
      omega
    simp [Text.isBlank]
    omega
  · exact Text.isBlank_of_isDigit hDigit
  · obtain rfl : c = '_' := by simpa using hUnderscore
    decide

/-- A word is taken to its end and nothing behind it is. -/
theorem takeWhile_isNamePart {cs rest : List Char} (h : cs.all Dialect.isNamePart = true)
    (hRest : Begins separators rest) :
    (cs ++ rest).takeWhile Dialect.isNamePart = cs ∧
      (cs ++ rest).dropWhile Dialect.isNamePart = rest := by
  have hAll := List.all_eq_true.mp h
  have hFirst : ∀ c ∈ rest.head?, Dialect.isNamePart c = false :=
    fun c hc => isNamePart_of_mem_separators (hRest c hc)
  rw [List.takeWhile_append_of_pos hAll, List.dropWhile_append_of_pos hAll]
  cases rest with
  | nil => simp
  | cons c rest =>
      have hNone := hFirst c rfl
      simp [hNone]

/-- A word is read in upper case. -/
theorem reads_word {s : String} (hSome : s.toList ≠ [])
    (hAll : s.toList.all Dialect.isNamePart = true) :
    Reads (Begins separators) word s.toList (Text.upperCase s) := by
  intro rest hRest
  obtain ⟨c, cs, hText⟩ := List.exists_cons_of_ne_nil hSome
  have hPart : Dialect.isNamePart c = true := List.all_eq_true.mp hAll c (by simp [hText])
  have hSkipped : skipped (s.toList ++ rest) = s.toList ++ rest := by
    rw [hText, List.cons_append, skipped_cons (isBlank_of_isNamePart hPart)]
  obtain ⟨hTaken, hLeft⟩ := takeWhile_isNamePart hAll hRest
  rw [word, hSkipped, hTaken, hLeft, hText]
  dsimp only
  rw [← hText, String.ofList_toList]

/-- A keyword is read as it stands. -/
theorem IsKeyword.reads {w : String} (hw : IsKeyword w) :
    Reads (Begins separators) word w.toList w := by
  obtain ⟨hSome, hAll, hUpper⟩ := hw
  have h := reads_word hSome hAll
  rwa [hUpper] at h

theorem keyword_eq (w : String) (text : List Char) :
    keyword w text = (word text).bind fun x => if x.1 = w then some ((), x.2) else none := by
  rw [keyword, bind_eq]
  refine congrArg _ (funext fun x => ?_)
  by_cases h : x.1 = w
  · rw [if_pos h, h]
    simp [guard]
    rfl
  · rw [if_neg h]
    simp [guard, h]
    rfl

theorem reads_keyword {w : String} (hw : IsKeyword w) :
    Reads (Begins separators) (keyword w) w.toList () := by
  intro rest hRest
  rw [keyword_eq, hw.reads rest hRest, Option.bind_some, if_pos rfl]

theorem begins_spaced (ws : List String) {rest : List Char} (hRest : Begins separators rest) :
    Begins separators (spaced ws ++ rest) := by
  cases ws with
  | nil => exact hRest
  | cons w ws => simp [spaced, separators]

/-- Keywords with blanks between them are read one after another. -/
theorem reads_keywords {ws : List String} (hws : ∀ w ∈ ws, IsKeyword w) :
    Reads (Begins separators) (keywords ws) (spaced ws) () := by
  induction ws with
  | nil => exact reads_pure ()
  | cons w ws ih =>
      obtain ⟨hw, hws⟩ := List.forall_mem_cons.mp hws
      have hFirst := (skips_keyword w).reads (c := ' ') (by decide) (reads_keyword hw)
      exact hFirst.bind (ih hws) fun rest hRest => begins_spaced ws hRest

theorem reads_mark {c : Char} (hc : Text.isBlank c = false) :
    Reads (fun _ => True) (mark c) [c] () := by
  intro rest _
  rw [List.singleton_append, mark, skipped_cons hc]
  exact if_pos rfl

/-- A mark is not read where the text goes on with something else. -/
theorem mark_eq_none {c : Char} (h : (skipped text).head? ≠ some c) : mark c text = none := by
  rw [mark]
  cases hText : skipped text with
  | nil => rfl
  | cons x rest =>
      rw [hText, List.head?_cons, ne_eq, Option.some.injEq] at h
      exact if_neg h

/-! ### Names and literals -/

/-- A name begins with a letter, an underscore or its quote. -/
theorem exists_cons_identifier (hQuote : d.quote ∈ nameQuotes) (s : String) :
    ∃ c cs, (d.identifier s).toList = c :: cs ∧ Text.isBlank c = false ∧ c ≠ ')' := by
  rw [Dialect.identifier]
  split
  next hBare =>
    simp only [Dialect.isBare, Dialect.isPlain, Bool.and_eq_true] at hBare
    cases hName : s.toList with
    | nil => simp [hName] at hBare
    | cons c cs =>
        simp only [hName, Bool.and_eq_true] at hBare
        have hPart := isNamePart_of_isNameStart hBare.2.1
        refine ⟨c, cs, rfl, isBlank_of_isNamePart hPart, ?_⟩
        rintro rfl
        exact absurd hPart (by decide)
  next =>
    refine ⟨d.quote, _, by rw [Text.doubled, String.toList_ofList, List.cons_append], ?_⟩
    simp only [nameQuotes, List.mem_cons, List.not_mem_nil, or_false] at hQuote
    rcases hQuote with h | h <;> rw [h] <;> exact ⟨by decide, by decide⟩

/-- A name is read as it is, be it quoted or not. -/
theorem reads_name (hQuote : d.quote ∈ nameQuotes) (s : String) :
    Reads (Begins separators) (name d) (d.identifier s).toList s := by
  intro rest hRest
  obtain ⟨c, cs, hText, hc, -⟩ := exists_cons_identifier hQuote s
  have hSkipped : skipped ((d.identifier s).toList ++ rest) = (d.identifier s).toList ++ rest := by
    rw [hText, List.cons_append, skipped_cons hc]
  have hStop : ∀ c ∈ rest.head?, Dialect.isNamePart c = false ∧ c ≠ d.quote := by
    intro c hc
    refine ⟨isNamePart_of_mem_separators (hRest c hc), ?_⟩
    rintro rfl
    have hMem := hRest _ hc
    simp only [nameQuotes, List.mem_cons, List.not_mem_nil, or_false] at hQuote
    rcases hQuote with h | h <;> simp [h, separators] at hMem
  rw [name, hSkipped, Dialect.first_append hQuote s hStop]

/-- No literal begins with a blank. -/
theorem exists_cons_of_spells {l : Literal} (h : d.Spells text l) :
    ∃ c cs, text = c :: cs ∧ Text.isBlank c = false := by
  obtain ⟨opened, hAll, hFinish⟩ := h
  cases text with
  | nil =>
      obtain rfl : Opened.nothing = opened := by simpa using hAll
      cases hFinish
  | cons c cs =>
      refine ⟨c, cs, rfl, ?_⟩
      rw [List.foldlM_cons, Option.bind_eq_bind, Option.bind_eq_some_iff] at hAll
      obtain ⟨first, hFirst, -⟩ := hAll
      by_contra hBlank
      have hPart : Dialect.isNamePart c = false := by
        by_contra hPart
        exact hBlank (isBlank_of_isNamePart (by simpa using hPart))
      simp only [Dialect.isNamePart, Char.isAlphanum, Bool.or_eq_false_iff] at hPart
      have hQuote : c ≠ '\'' := by
        rintro rfl
        exact hBlank (by decide)
      have hSign : c ≠ '-' := by
        rintro rfl
        exact hBlank (by decide)
      simp [Opened.extend, NumberPart.next, hPart, hQuote, hSign] at hFirst

/-- What can follow a literal ends it. -/
theorem endsLiteral_of_mem_ends {c : Char} (h : c ∈ ends) : EndsLiteral c := by
  simp only [ends, List.mem_cons, List.not_mem_nil, or_false] at h
  rcases h with rfl | rfl | rfl | rfl | rfl <;> exact ⟨by decide, by decide, by decide, by decide⟩

/-- A literal is read as what it spells. -/
theorem reads_literal {l : Literal} (h : d.Spells text l) :
    Reads (Begins ends) (literal d) text l := by
  intro rest hRest
  obtain ⟨c, cs, hText, hc⟩ := exists_cons_of_spells h
  have hSkipped : skipped (text ++ rest) = text ++ rest := by
    rw [hText, List.cons_append, skipped_cons hc]
  rw [literal, hSkipped]
  exact h.readLiteral fun c hc => endsLiteral_of_mem_ends (hRest c hc)

/-- A text between quotes is read as it is, whatever is in it. -/
theorem reads_string (d : Dialect) (s : String) :
    Reads (Begins ends) (string d) (d.stringLiteral s).toList s := by
  intro rest hRest
  rw [string, bind_eq, reads_literal (d.spells_stringLiteral s) rest hRest]
  rfl

/-! ### What may be missing -/

/-- What is there is read where it may be missing. -/
theorem Reads.optional (h : Reads follow p text a) :
    Reads follow (optional p) text (some a) := by
  intro rest hRest
  rw [Parse.optional, h rest hRest]

/-- What is missing is not read, and nothing is taken for it. -/
theorem reads_optional_none (h : ∀ rest, follow rest → p rest = none) :
    Reads follow (Parse.optional p) [] none := by
  intro rest hRest
  rw [Parse.optional, List.nil_append, h rest hRest]

/-- Words that are there are found. -/
theorem reads_present {ws : List String} (hws : ∀ w ∈ ws, IsKeyword w)
    (hFollow : ∀ rest, follow rest → Begins separators rest) :
    Reads follow (present ws) (spaced ws) true :=
  ((reads_keywords hws).mono hFollow).optional.map Option.isSome

/-- Words that are missing are not found. -/
theorem reads_present_none {ws : List String} (h : ∀ rest, follow rest → keywords ws rest = none) :
    Reads follow (present ws) [] false :=
  (reads_optional_none h).map Option.isSome

/-! ### Lists -/

/-- Texts with another one between them. -/
def between (gap : List Char) : List (List Char) → List Char
  | [] => []
  | [text] => text
  | text :: texts => text ++ (gap ++ between gap texts)

theorem exists_between_cons (gap text : List Char) (texts : List (List Char)) :
    ∃ more, between gap (text :: texts) = text ++ more := by
  cases texts with
  | nil => exact ⟨[], (List.append_nil text).symm⟩
  | cons next texts => exact ⟨_, rfl⟩

theorem between_concat (gap : List Char) {texts : List (List Char)} (hSome : texts ≠ [])
    (text : List Char) : between gap (texts ++ [text]) = between gap texts ++ (gap ++ text) := by
  induction texts with
  | nil => exact absurd rfl hSome
  | cons first texts ih =>
      cases texts with
      | nil => rfl
      | cons second texts =>
          have hRest := ih (List.cons_ne_nil second texts)
          change first ++ (gap ++ between gap (second :: texts ++ [text])) = _
          rw [hRest]
          simp [between]

section Lists

variable {ι : Type} {items : List ι} {text : ι → List Char} {value : ι → α} {c : Char}
  {gap : List Char}

theorem skips_separated (hSkips : Skips p) (c : Char) (n : Nat) : Skips (separated c p n) := by
  cases n with
  | zero => exact fun _ _ _ => rfl
  | succ n => exact hSkips.bind _

/-- A parse that does not mind blanks reads its text behind any number of them. -/
theorem Skips.reads_blanks (hSkips : Skips p) (hGap : ∀ x ∈ gap, Text.isBlank x = true)
    {text : List Char} (h : Reads follow p text a) : Reads follow p (gap ++ text) a := by
  induction gap with
  | nil => exact h
  | cons x gap ih =>
      rw [List.forall_mem_cons] at hGap
      exact hSkips.reads hGap.1 (ih hGap.2)

variable (gap) in
/-- Things that are each read in front of the separating character are read one after another, up to
one that is not followed by it. -/
theorem reads_separated (hSkips : Skips p) (hc : Text.isBlank c = false)
    (hGap : ∀ x ∈ gap, Text.isBlank x = true) (hMark : ∀ more, follow (c :: more))
    (hItems : ∀ i ∈ items, Reads follow p (text i) (value i)) (hSome : items ≠ []) {n : Nat}
    (hn : items.length ≤ n) :
    Reads (fun rest => follow rest ∧ (skipped rest).head? ≠ some c) (separated c p n)
      (between (c :: gap) (items.map text)) (items.map value) := by
  induction items generalizing n with
  | nil => exact absurd rfl hSome
  | cons i items ih =>
      obtain ⟨hFirst, hItems⟩ := List.forall_mem_cons.mp hItems
      obtain ⟨n, rfl⟩ : ∃ m, n = m + 1 := ⟨n - 1, by simp at hn; omega⟩
      cases items with
      | nil =>
          intro rest hRest
          rw [separated, bind_eq]
          change (p (text i ++ rest)).bind _ = _
          rw [hFirst rest hRest.1, Option.bind_some, bind_eq, optional, mark_eq_none hRest.2]
          rfl
      | cons j items =>
          have hOthers := (skips_separated hSkips c n).reads_blanks hGap
            (ih hItems (List.cons_ne_nil j items) (by simp at hn ⊢; omega))
          have hMore := (reads_mark hc).optional.bind (f := fun found => match found with
              | some _ => (value i :: ·) <$> separated c p n
              | none => return [value i])
            (hOthers.map (value i :: ·)) fun _ _ => trivial
          have hAll := hFirst.bind (f := fun a => do
              match ← optional (mark c) with
              | some _ => (a :: ·) <$> separated c p n
              | none => return [a]) hMore fun rest _ => hMark _
          exact hAll

/-- There are at most as many texts as separating characters and one more. -/
theorem length_le_count (c : Char) (gap : List Char) (texts : List (List Char)) :
    texts.length ≤ (between (c :: gap) texts).count c + 1 := by
  induction texts with
  | nil => simp
  | cons text texts ih =>
      cases texts with
      | nil => simp [between]
      | cons text' texts =>
          have hBetween : between (c :: gap) (text :: text' :: texts) =
              text ++ (c :: gap ++ between (c :: gap) (text' :: texts)) := rfl
          rw [hBetween, List.length_cons, List.count_append, List.count_append, List.count_cons_self]
          omega

theorem skips_listed (hSkips : Skips p) : Skips (listed p) := by
  intro c text hc
  have hCount : (c :: text).count ',' = text.count ',' := by
    refine List.count_cons_of_ne ?_
    rintro rfl
    exact absurd hc (by decide)
  rw [listed, listed, hCount, skips_separated hSkips ',' _ c text hc]

variable (gap) in
/-- Things with commas between them. -/
theorem reads_listed (hSkips : Skips p) (hGap : ∀ x ∈ gap, Text.isBlank x = true)
    (hComma : ∀ more, follow (',' :: more))
    (hItems : ∀ i ∈ items, Reads follow p (text i) (value i)) (hSome : items ≠ []) :
    Reads (fun rest => follow rest ∧ (skipped rest).head? ≠ some ',') (listed p)
      (between (',' :: gap) (items.map text)) (items.map value) := by
  intro rest hRest
  rw [listed]
  refine reads_separated gap hSkips (by decide) hGap hComma hItems hSome ?_ rest hRest
  have hLength := length_le_count ',' gap (items.map text)
  rw [List.length_map] at hLength
  rw [List.count_append]
  omega

variable (gap) in
/-- Things with commas between them in parentheses, which need not stand close to them. -/
theorem reads_enclosed (before after : List Char) (hSkips : Skips p)
    (hGap : ∀ x ∈ gap, Text.isBlank x = true) (hBefore : ∀ x ∈ before, Text.isBlank x = true)
    (hAfter : ∀ x ∈ after, Text.isBlank x = true) (hComma : ∀ more, follow (',' :: more))
    (hClose : ∀ more, follow (after ++ ')' :: more))
    (hItems : ∀ i ∈ items, Reads follow p (text i) (value i))
    (hFirst : ∀ i ∈ items, ∀ more, (skipped (text i ++ more)).head? ≠ some ')') :
    Reads (fun _ => True) (enclosed p)
      ('(' :: (before ++ (between (',' :: gap) (items.map text) ++ (after ++ [')']))))
      (items.map value) := by
  have hClosed (rest : List Char) : skipped (after ++ [')'] ++ rest) = ')' :: rest := by
    rw [List.append_assoc, skipped_append hAfter, List.singleton_append, skipped_cons (by decide)]
  have hRead (rest : List Char) : mark ')' (after ++ [')'] ++ rest) = some ((), rest) := by
    rw [mark, hClosed]
    exact if_pos rfl
  change Reads _ _ (['('] ++ (before ++ (between (',' :: gap) (items.map text) ++ (after ++ [')'])))) _
  refine (reads_mark (by decide)).bind ?_ fun _ _ => trivial
  intro rest _
  rw [bind_eq, optional]
  cases items with
  | nil =>
      have hNone : mark ')' (before ++ (between (',' :: gap) [] ++ (after ++ [')'])) ++ rest) =
          some ((), rest) := by
        rw [← hRead rest, mark, mark, List.append_assoc, skipped_append hBefore]
        rfl
      rw [List.map_nil, hNone]
      rfl
  | cons i items =>
      have hNone : mark ')' (before ++ (between (',' :: gap) ((i :: items).map text) ++
          (after ++ [')'])) ++ rest) = none := by
        refine mark_eq_none ?_
        rw [List.append_assoc, skipped_append hBefore]
        cases items with
        | nil => simpa [between] using hFirst i (by simp) _
        | cons j items => simpa [between] using hFirst i (by simp) _
      have hList := (skips_listed hSkips).reads_blanks hBefore
        (reads_listed gap hSkips hGap hComma hItems (List.cons_ne_nil i items))
      have hEdge : follow (after ++ [')'] ++ rest) ∧ (skipped (after ++ [')'] ++ rest)).head? ≠ some ',' := by
        refine ⟨by simpa using hClose rest, ?_⟩
        rw [hClosed]
        simp
      rw [hNone, Option.bind_some, ← List.append_assoc before, List.append_assoc _ _ rest]
      change (listed p >>= fun as => do mark ')'; return as) _ = _
      rw [bind_eq, hList _ hEdge, Option.bind_some, bind_eq, hRead]
      rfl

end Lists

end Parse

end SqlMapper
