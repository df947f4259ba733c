import SqlMapper.Proofs.Migration.Reader

/-! Names, definitions and actions as they are read. The letters of each part of an edit are read as the
part says, in front of all that can stand behind it, and a reader of the part takes no letter more. A
clause that is missing is not mistaken for a later one, since each has its own word. -/
namespace SqlMapper

/-! ### Letters of statements -/

namespace Sql

/-- The letters of a part that binds no value. -/
def spelled (d : Dialect) : Sql → List Char
  | [] => []
  | .text s :: sql => s.toList ++ spelled d sql
  | .name s :: sql => (d.identifier s).toList ++ spelled d sql
  | .bind _ _ :: sql => spelled d sql

variable {d : Dialect}

@[simp] theorem spelled_nil : spelled d [] = [] := rfl

@[simp] theorem spelled_text (s : String) (sql : Sql) :
    spelled d (.text s :: sql) = s.toList ++ sql.spelled d := rfl

@[simp] theorem spelled_name (s : String) (sql : Sql) :
    spelled d (.name s :: sql) = (d.identifier s).toList ++ sql.spelled d := rfl

@[simp] theorem spelled_append (a b : Sql) : spelled d (a ++ b) = a.spelled d ++ b.spelled d := by
  induction a with
  | nil => rfl
  | cons piece a ih => cases piece <;> simp [spelled, ih]

/-- Joined pieces are spelled with the separator between their spellings. -/
theorem spelled_joined (s : String) (parts : List Sql) :
    spelled d (joined s parts) = Parse.between s.toList (parts.map (spelled d)) := by
  induction parts with
  | nil => rfl
  | cons part parts ih =>
      cases parts with
      | nil => rfl
      | cons part' parts =>
          change spelled d (part ++ .text s :: joined s (part' :: parts)) = _
          rw [spelled_append, spelled_text, ih]
          rfl

/-- Text without parameters renders to the spelling of its pieces. -/
theorem toList_render {sql : Sql} (hFixed : sql.params = []) :
    (d.render sql).toList = sql.spelled d := by
  have hLetters (position : Nat) :
      (d.letters position sql).flatMap String.toList = sql.spelled d := by
    induction sql generalizing position with
    | nil => rfl
    | cons piece sql ih =>
        cases piece with
        | bind => simp at hFixed
        | text | name => simp [Dialect.letters, ih hFixed]
  rw [Dialect.render, String.toList_join, hLetters]

end Sql

namespace Parse

variable {α β : Type} {follow : List Char → Prop} {p : Parse α} {f : α → Parse β}
  {text rest : List Char} {a : α} {b : β} {d : Dialect}

/-- What was read is all that there is to read. -/
theorem Reads.give (h : Reads follow p text a) (hGive : ∀ rest, f a rest = some (b, rest)) :
    Reads follow (p >>= f) text b := by
  intro rest hRest
  rw [bind_eq, h rest hRest, Option.bind_some]
  exact hGive rest

/-- Behind the name of a table there is no name of a column. -/
def EndsPath (rest : List Char) : Prop :=
  Begins separators rest ∧ (skipped rest).head? ≠ some '.'

section Names

variable (hQuote : d.quote ∈ nameQuotes)
include hQuote

/-- A path of quoted names is read as the names it was written from. -/
theorem reads_path (names : List String) (hSome : names ≠ []) {n : Nat} (hn : names.length ≤ n) :
    Reads EndsPath (separated '.' (name d) n)
      (between ['.'] (names.map fun s => (d.identifier s).toList)) names := by
  have h := reads_separated [] (skips_name d) (c := '.') (by decide) (by simp)
    (fun more => by simp [separators]) (fun s _ => reads_name hQuote s) hSome hn
  rwa [List.map_id'] at h

omit hQuote in
theorem endsPath_blank {c : Char} (hc : Text.isBlank c = false) (hPoint : c ≠ '.') :
    EndsPath (' ' :: c :: rest) := by
  refine ⟨by simp [separators], ?_⟩
  rw [skipped_cons_blank (by decide), skipped_cons hc]
  exact fun h => hPoint (Option.some.inj h)

omit hQuote in
/-- A keyword behind a blank ends a path: it is no further name of it. -/
theorem IsKeyword.endsPath {w : String} (hw : IsKeyword w) (text rest : List Char) :
    EndsPath (' ' :: (w.toList ++ text) ++ rest) := by
  obtain ⟨hSome, hAll, -⟩ := hw
  obtain ⟨c, cs, hText⟩ := List.exists_cons_of_ne_nil hSome
  have hPart : Dialect.isNamePart c = true := List.all_eq_true.mp hAll c (by simp [hText])
  rw [hText]
  refine endsPath_blank (isBlank_of_isNamePart hPart) ?_
  rintro rfl
  exact absurd hPart (by decide)

/-- The reference of a table is read as its path. -/
theorem reads_table (t : Table) : Reads EndsPath (table d) (t.reference.spelled d) t.path := by
  rw [Table.reference, Table.path]
  split
  next =>
    have h := reads_path hQuote [t.name] (by simp) (n := 2) (by simp)
    rw [table]
    simpa [between] using h.give (f := _) fun rest => rfl
  next =>
    have h := reads_path hQuote [t.schema, t.name] (by simp) (n := 2) (by simp)
    rw [table]
    simpa [between] using h.give (f := _) fun rest => rfl

/-- The reference of a column is read as the path of its table and its name. -/
theorem reads_column (t : Table) (s : String) :
    Reads EndsPath (column d) (t.reference.spelled d ++ '.' :: (d.identifier s).toList)
      (t.path, s) := by
  rw [Table.reference, Table.path]
  split
  next =>
    have h := reads_path hQuote [t.name, s] (by simp) (n := 3) (by simp)
    rw [column]
    simpa [between] using h.give (f := _) fun rest => rfl
  next =>
    have h := reads_path hQuote [t.schema, t.name, s] (by simp) (n := 3) (by simp)
    rw [column]
    simpa [between] using h.give (f := _) fun rest => rfl

/-- No name begins with a parenthesis that closes. -/
theorem head?_skipped_identifier (s : String) (more : List Char) :
    (skipped ((d.identifier s).toList ++ more)).head? ≠ some ')' := by
  obtain ⟨c, cs, hText, hc, hClose⟩ := exists_cons_identifier hQuote s
  rw [hText, List.cons_append, skipped_cons hc, List.head?_cons]
  exact fun h => hClose (Option.some.inj h)

/-- Names in parentheses. -/
theorem reads_names (names : List String) :
    Reads (fun _ => True) (enclosed (name d))
      ('(' :: ((Edit.nameList names).spelled d ++ [')'])) names := by
  have hList : (Edit.nameList names).spelled d =
      between [',', ' '] (names.map fun s => (d.identifier s).toList) := by
    rw [Edit.nameList, Sql.spelled_joined, List.map_map]
    refine congrArg (between _) (List.map_congr_left fun s _ => ?_)
    exact List.append_nil _
  have h := reads_enclosed [' '] [] [] (skips_name d)
    (by simp [Text.isBlank]) (by simp) (by simp) (fun more => by simp [separators])
    (fun more => by simp [separators]) (fun s (_ : s ∈ names) => reads_name hQuote s) ?_
  · rw [List.map_id'] at h
    rw [hList]
    exact h
  · intro s _ more
    exact head?_skipped_identifier hQuote s more

end Names

/-! ### Definitions -/

/-- A clause of a definition is missing, or it begins with its word. -/
def IsClause (w : String) (part : List Char) : Prop :=
  part = [] ∨ ∃ more, part = ' ' :: (w.toList ++ ' ' :: more)

/-- An optional clause may stand before whatever may follow without it. -/
theorem Follows.clause {ws : List String} {w : String} {part : List Char} (hPart : IsClause w part)
    (h : Follows ws rest) : Follows (w :: ws) (part ++ rest) := by
  rcases hPart with rfl | ⟨more, rfl⟩
  · exact h.mono (List.subset_cons_self w ws)
  · refine .inr ⟨w, List.mem_cons_self .., ' ' :: more ++ rest, by simp, ?_⟩
    simp [separators]

/-- A clause written for a value that may be absent is there or empty. -/
theorem isClause_elim {ι : Type} {w : String} (o : Option ι) (text : ι → List Char) :
    IsClause w (o.elim [] fun i => ' ' :: (w.toList ++ ' ' :: text i)) := by
  cases o with
  | none => exact .inl rfl
  | some i => exact .inr ⟨text i, rfl⟩

/-- A clause of two keywords written on a condition is there or empty. -/
theorem isClause_flag {w w' : String} (there : Bool) :
    IsClause w (if there then spaced [w, w'] else []) := by
  cases there with
  | true => exact .inr ⟨w'.toList, by simp [spaced]⟩
  | false => exact .inl rfl

theorem Follows.begins_separators {ws : List String} (h : Follows ws rest) :
    Begins separators rest :=
  h.begins.mono ends_subset_separators

/-- Every word that opens a clause of a column is a keyword. -/
theorem isKeyword_of_mem_clauseWords : ∀ w ∈ clauseWords, IsKeyword w := by decide +kernel

/-- Two words that say something by being there. -/
theorem reads_flag (ws : List String) {w w' : String} (there : Bool) (hw : IsKeyword w)
    (hw' : IsKeyword w') (hNew : w ∉ ws) (hws : ∀ w ∈ ws, IsKeyword w) :
    Reads (Follows ws) (present [w, w']) (if there then spaced [w, w'] else []) there := by
  cases there with
  | true =>
      exact reads_present (List.forall_mem_cons.mpr ⟨hw, by simpa using hw'⟩)
        fun _ => Follows.begins_separators
  | false => exact reads_present_none fun _ hRest => keywords_eq_none hNew hws hRest

/-- Something behind a word, if it is there. -/
theorem reads_clause {ι : Type} (ws : List String) {w : String} {o : Option ι}
    {text : ι → List Char} (value : ι → α) (hw : IsKeyword w) (hNew : w ∉ ws)
    (hws : ∀ w ∈ ws, IsKeyword w) (hSkips : Skips p)
    (h : ∀ i ∈ o, Reads (Begins ends) p (text i) (value i)) :
    Reads (Follows ws) (optional (do keyword w; p))
      (o.elim [] fun i => ' ' :: (w.toList ++ ' ' :: text i)) (o.map value) := by
  cases o with
  | none =>
      refine reads_optional_none fun rest hRest => ?_
      rw [bind_eq, keyword_eq_none hNew hws hRest]
      rfl
  | some i =>
      have hBehind := hSkips.reads (c := ' ') (by decide) (h i rfl)
      refine Reads.optional ((Skips.bind (skips_keyword w) _).reads (by decide) ?_)
      exact (reads_keyword hw).bind (hBehind.mono fun _ => Follows.begins)
        fun rest _ => by simp [separators]

/-- The letters of a definition are those of its parts. -/
theorem spelled_clause (clause : ColumnClause) :
    (clause.sql d).spelled d = (d.identifier clause.name).toList ++
      ((' ' :: clause.type.toList) ++
        ((if clause.notNull then spaced ["NOT", "NULL"] else []) ++
        ((clause.default.elim [] fun x => ' ' :: ("DEFAULT".toList ++ ' ' :: x.literal.toList)) ++
        ((if clause.isKey then spaced ["PRIMARY", "KEY"] else []) ++
        ((clause.comment.elim [] fun s =>
          ' ' :: ("COMMENT".toList ++ ' ' :: (d.stringLiteral s).toList)) ++ []))))) := by
  have hNotNull : Sql.spelled d (if clause.notNull then [.text " NOT NULL"] else []) =
      if clause.notNull then spaced ["NOT", "NULL"] else [] := by
    split <;> rfl
  have hKey : Sql.spelled d (if clause.isKey then [.text " PRIMARY KEY"] else []) =
      if clause.isKey then spaced ["PRIMARY", "KEY"] else [] := by
    split <;> rfl
  have hDefault : Sql.spelled d (clause.default.elim [] fun v =>
      [.text " DEFAULT ", .text v.literal]) = clause.default.elim [] fun x =>
        ' ' :: ("DEFAULT".toList ++ ' ' :: x.literal.toList) := by
    cases clause.default <;> simp
  have hComment : Sql.spelled d (clause.comment.elim [] fun text =>
      [.text " COMMENT ", .text (d.stringLiteral text)]) = clause.comment.elim [] fun s =>
        ' ' :: ("COMMENT".toList ++ ' ' :: (d.stringLiteral s).toList) := by
    cases clause.comment <;> simp
  rw [ColumnClause.sql, Sql.spelled_append, Sql.spelled_append, Sql.spelled_append,
    Sql.spelled_append, hNotNull, hKey, hDefault, hComment]
  simp

/-- The definition of a column is read from its letters. -/
theorem reads_definition (hQuote : d.quote ∈ nameQuotes) {clause : ColumnClause}
    (hClause : clause.Legible d) :
    Reads Closes (definition d) ((clause.sql d).spelled d) clause.definition := by
  let notNull := if clause.notNull then spaced ["NOT", "NULL"] else []
  let default := clause.default.elim [] fun x => ' ' :: ("DEFAULT".toList ++ ' ' :: x.literal.toList)
  let key := if clause.isKey then spaced ["PRIMARY", "KEY"] else []
  let comment := clause.comment.elim [] fun s =>
    ' ' :: ("COMMENT".toList ++ ' ' :: (d.stringLiteral s).toList)
  have hText : (clause.sql d).spelled d = (d.identifier clause.name).toList ++
      ((' ' :: clause.type.toList) ++ (notNull ++ (default ++ (key ++ (comment ++ []))))) :=
    spelled_clause clause
  -- In front of what follows a definition stand its clauses, each with its word or missing.
  have hCommented : ∀ rest, Closes rest → Follows ["COMMENT"] ((comment ++ []) ++ rest) := by
    intro rest hRest
    rw [List.append_assoc]
    exact Follows.clause (isClause_elim _ _) (.inl hRest : Follows [] rest)
  have hKeyed : ∀ rest, Closes rest →
      Follows ["PRIMARY", "COMMENT"] ((key ++ (comment ++ [])) ++ rest) := by
    intro rest hRest
    rw [List.append_assoc]
    exact (hCommented rest hRest).clause (isClause_flag _)
  have hDefaulted : ∀ rest, Closes rest →
      Follows ["DEFAULT", "PRIMARY", "COMMENT"] ((default ++ (key ++ (comment ++ []))) ++ rest) := by
    intro rest hRest
    rw [List.append_assoc]
    exact (hKeyed rest hRest).clause (isClause_elim _ _)
  have hNulled : ∀ rest, Closes rest →
      Follows clauseWords ((notNull ++ (default ++ (key ++ (comment ++ [])))) ++ rest) := by
    intro rest hRest
    rw [List.append_assoc]
    exact (hDefaulted rest hRest).clause (isClause_flag _)
  have hWords {ws : List String} (hSubset : ws ⊆ clauseWords) : ∀ w ∈ ws, IsKeyword w :=
    fun w hw => isKeyword_of_mem_clauseWords w (hSubset hw)
  rw [hText, definition]
  refine (reads_name hQuote clause.name).bind ?_ fun rest _ => by simp [separators]
  refine (skips_typeName.reads (by decide) (reads_typeName hClause.type)).bind ?_ hNulled
  refine (reads_flag ["DEFAULT", "PRIMARY", "COMMENT"] clause.notNull (by decide +kernel)
    (by decide +kernel) (by decide) (hWords (by simp [clauseWords]))).bind ?_ hDefaulted
  refine (reads_clause ["PRIMARY", "COMMENT"] DefaultClause.reading
    (by decide +kernel) (by decide) (hWords (by simp [clauseWords])) (skips_literal d)
    fun x hx => reads_literal (d.spells_literal (hClause.default x hx))).bind ?_ hKeyed
  refine (reads_flag ["COMMENT"] clause.isKey (by decide +kernel) (by decide +kernel)
    (by decide) (hWords (by simp [clauseWords]))).bind ?_ hCommented
  refine (reads_clause [] id (by decide +kernel) (by decide) (by simp)
    (skips_string d) fun s _ => reads_string d s).bind ?_ fun rest hRest => .inl hRest
  rw [Option.map_id_apply]
  exact reads_pure _

theorem skips_definition (d : Dialect) : Skips (definition d) := (skips_name d).bind _

theorem skips_enclosed (p : Parse α) : Skips (enclosed p) := (skips_mark '(').bind _

/-- A word behind another one. -/
theorem IsKeyword.reads_behind {w : String} (hw : IsKeyword w) :
    Reads (Begins separators) word (' ' :: w.toList) w :=
  skips_word.reads (by decide) hw.reads

/-- A keyword behind a blank is read as that keyword. -/
theorem IsKeyword.keyword_behind {w : String} (hw : IsKeyword w) :
    Reads (Begins separators) (keyword w) (' ' :: w.toList) () :=
  (skips_keyword w).reads (by decide) (reads_keyword hw)

theorem skips_item (d : Dialect) : Skips (item d) :=
  ((skips_keyword "PRIMARY").bind _).optional_bind ((skips_definition d).map _)

theorem skips_table (d : Dialect) : Skips (table d) := (skips_separated (skips_name d) '.' 2).bind _

theorem skips_column (d : Dialect) : Skips (column d) :=
  (skips_separated (skips_name d) '.' 3).bind _

theorem skips_indexColumn (d : Dialect) : Skips (indexColumn d) := (skips_name d).bind _

/-! ### Actions on a table -/

/-- What is to become of a column is read from its words. -/
theorem reads_alteration {change : ColumnChange} (h : change.Legible d) :
    Reads Closes (word >>= alteration d) change.text.toList change.alteration := by
  cases change with
  | type name =>
      have hText : (ColumnChange.type name).text.toList = "TYPE".toList ++ (' ' :: name.toList) := by
        simp [ColumnChange.text]
      rw [hText]
      refine (IsKeyword.reads (by decide +kernel)).bind ?_ fun _ _ => by simp [separators]
      exact ((skips_typeName.reads (by decide) (reads_typeName h)).mono fun _ => .inl).map _
  | nullable isNullable =>
      have hNull : Reads Closes (do keyword "NULL"; return Alteration.nullable isNullable)
          ((' ' :: "NULL".toList) ++ []) (.nullable isNullable) :=
        (IsKeyword.keyword_behind (by decide +kernel)).bind (reads_pure _)
          fun _ hRest => hRest.begins.mono ends_subset_separators
      have hText : (ColumnChange.nullable isNullable).text.toList =
          (if isNullable then "DROP" else "SET").toList ++
            ((' ' :: "NOT".toList) ++ ((' ' :: "NULL".toList) ++ [])) := by
        cases isNullable <;> decide +kernel
      rw [hText]
      cases isNullable with
      | false =>
          refine (IsKeyword.reads (by decide +kernel)).bind ?_ fun _ _ => by simp [separators]
          exact (IsKeyword.reads_behind (by decide +kernel)).bind hNull fun _ _ => by simp [separators]
      | true =>
          refine (IsKeyword.reads (by decide +kernel)).bind ?_ fun _ _ => by simp [separators]
          exact (IsKeyword.reads_behind (by decide +kernel)).bind hNull fun _ _ => by simp [separators]
  | setDefault clause =>
      have hText : (ColumnChange.setDefault clause).text.toList =
          "SET".toList ++ ((' ' :: "DEFAULT".toList) ++ (' ' :: clause.literal.toList)) := by
        simp [ColumnChange.text]
      rw [hText]
      refine (IsKeyword.reads (by decide +kernel)).bind ?_ fun _ _ => by simp [separators]
      refine (IsKeyword.reads_behind (by decide +kernel)).bind ?_ fun _ _ => by simp [separators]
      exact ((skips_literal d).reads (by decide) ((reads_literal (d.spells_literal h)).mono
        fun _ => Closes.begins)).map _
  | dropDefault =>
      have hText : ColumnChange.dropDefault.text.toList =
          "DROP".toList ++ ((' ' :: "DEFAULT".toList) ++ []) := by
        decide +kernel
      rw [hText]
      refine (IsKeyword.reads (by decide +kernel)).bind ?_ fun _ _ => by simp [separators]
      exact (IsKeyword.reads_behind (by decide +kernel)).bind (reads_pure _)
        fun _ hRest => hRest.begins.mono ends_subset_separators

/-- A single action on a table. -/
theorem reads_single {text : List Char} {a : TableAction}
    (h : Reads Closes (word >>= action d) text a) :
    Reads (· = []) (listed (word >>= action d)) text [a] := by
  have hList : Reads _ (listed (word >>= action d)) (between [','] ([()].map fun _ => text))
      ([()].map fun _ => a) :=
    reads_listed [] (skips_word.bind _) (by simp) (fun more => .inr (.inl ⟨more, rfl⟩))
      (fun _ _ => h) (by simp)
  refine Reads.mono hList fun rest hRest => ?_
  subst hRest
  exact ⟨.inl rfl, by simp [skipped]⟩

section Actions

variable (hQuote : d.quote ∈ nameQuotes)
include hQuote

/-- `ADD COLUMN` is read as the addition of the column its clause defines. -/
theorem reads_add {clause : ColumnClause} (hClause : clause.Legible d) :
    Reads Closes (word >>= action d)
      ("ADD".toList ++ ((' ' :: "COLUMN".toList) ++ (' ' :: (clause.sql d).spelled d)))
      (.add clause.definition) := by
  refine (IsKeyword.reads (by decide +kernel)).bind ?_ fun _ _ => by simp [separators]
  refine (IsKeyword.reads_behind (by decide +kernel)).bind ?_ fun _ _ => by simp [separators]
  exact ((skips_definition d).reads (by decide) (reads_definition hQuote hClause)).map _

/-- `MODIFY COLUMN` is read as the redefinition by its clause. -/
theorem reads_redefine {clause : ColumnClause} (hClause : clause.Legible d) :
    Reads Closes (word >>= action d)
      ("MODIFY".toList ++ ((' ' :: "COLUMN".toList) ++ (' ' :: (clause.sql d).spelled d)))
      (.redefine clause.definition) := by
  refine (IsKeyword.reads (by decide +kernel)).bind ?_ fun _ _ => by simp [separators]
  refine (IsKeyword.keyword_behind (by decide +kernel)).bind ?_ fun _ _ => by simp [separators]
  exact ((skips_definition d).reads (by decide) (reads_definition hQuote hClause)).map _

/-- `ADD PRIMARY KEY` is read as the names it was written from. -/
theorem reads_addKey (names : List String) :
    Reads Closes (word >>= action d)
      ("ADD".toList ++ ((' ' :: "PRIMARY".toList) ++ ((' ' :: "KEY".toList) ++
        (' ' :: '(' :: ((Edit.nameList names).spelled d ++ [')'])))))
      (.addKey names) := by
  refine (IsKeyword.reads (by decide +kernel)).bind ?_ fun _ _ => by simp [separators]
  refine (IsKeyword.reads_behind (by decide +kernel)).bind ?_ fun _ _ => by simp [separators]
  refine (IsKeyword.keyword_behind (by decide +kernel)).bind ?_ fun _ _ => by simp [separators]
  have hNames := (skips_enclosed (name d)).reads (c := ' ') (by decide) (reads_names hQuote names)
  exact (hNames.mono fun _ _ => trivial).map _

/-- The letters of a change of a column. -/
def alterText (d : Dialect) (column : String) (change : ColumnChange) : List Char :=
  "ALTER".toList ++ ((' ' :: "COLUMN".toList) ++
    ((' ' :: (d.identifier column).toList) ++ (' ' :: change.text.toList)))

/-- `ALTER COLUMN` is read as the alteration its change asks for. -/
theorem reads_alter (column : String) {change : ColumnChange} (h : change.Legible d) :
    Reads Closes (word >>= action d) (alterText d column change)
      (.alter column change.alteration) := by
  refine (IsKeyword.reads (by decide +kernel)).bind ?_ fun _ _ => by simp [separators]
  refine (IsKeyword.keyword_behind (by decide +kernel)).bind ?_ fun _ _ => by simp [separators]
  refine ((skips_name d).reads (by decide) (reads_name hQuote column)).bind ?_
    fun _ _ => by simp [separators]
  exact (skips_word.bind _ |>.reads (by decide) (reads_alteration h)).map _

/-- A list of alterations of one column is read in its order. -/
theorem reads_changes (column : String) {changes : List ColumnChange} (hSome : changes ≠ [])
    (h : ∀ change ∈ changes, change.Legible d) :
    Reads (· = []) (listed (word >>= action d))
      (between [',', '\n'] (changes.map (alterText d column)))
      (changes.map fun change => .alter column change.alteration) := by
  refine Reads.mono (reads_listed ['\n'] (skips_word.bind _) ?_ (fun more => .inr (.inl ⟨more, rfl⟩))
    (fun change hChange => reads_alter hQuote column (h change hChange)) hSome) fun rest hRest => ?_
  · simp [Text.isBlank]
  · subst hRest
    exact ⟨.inl rfl, by simp [skipped]⟩

end Actions

end Parse

end SqlMapper
