import SqlMapper.Proofs.Migration.Clause

/-! Edits are read back from their texts. New tables, indexes and comments are read as the edits say
them, and so are alterations, so the request of an edit says the table and the statement of the edit
and nothing else. -/
namespace SqlMapper

namespace Parse

variable {rest : List Char} {d : Dialect}

/-! ### New tables -/

/-- The letters of a part of a new table. -/
def itemText (d : Dialect) : List String ⊕ ColumnClause → List Char
  | .inl key => "PRIMARY KEY (".toList ++ ((Edit.nameList key).spelled d ++ [')'])
  | .inr clause => (clause.sql d).spelled d

/-- A column item begins with the name of the column and a blank. -/
theorem exists_itemText (d : Dialect) (clause : ColumnClause) : ∃ more,
    itemText d (.inr clause) = (d.identifier clause.name).toList ++ ' ' :: more :=
  ⟨_, spelled_clause clause⟩

def itemValue : List String ⊕ ColumnClause → List String ⊕ Definition :=
  Sum.map id ColumnClause.definition

/-- Where a name stands no word is read, or the name in upper case if it stands without quotes. -/
theorem word_identifier (hQuote : d.quote ∈ nameQuotes) (s : String) (hRest : Begins separators rest) :
    word ((d.identifier s).toList ++ rest) = none ∨
      word ((d.identifier s).toList ++ rest) = some (Text.upperCase s, rest) ∧
        d.isReserved s = false := by
  rw [Dialect.identifier]
  split
  next hBare =>
    simp only [Dialect.isBare, Dialect.isPlain, Bool.and_eq_true, Bool.not_eq_true'] at hBare
    obtain ⟨⟨-, hFree⟩, hPlain⟩ := hBare
    cases hName : s.toList with
    | nil => simp [hName] at hPlain
    | cons c cs =>
        simp only [hName, Bool.and_eq_true] at hPlain
        have hAll : s.toList.all Dialect.isNamePart = true := by
          rw [hName, List.all_cons, hPlain.2, isNamePart_of_isNameStart hPlain.1]
          rfl
        rw [← hName]
        exact .inr ⟨reads_word (by simp [hName]) hAll rest hRest, hFree⟩
  next =>
    refine .inl ?_
    rw [Text.doubled, String.toList_ofList]
    simp only [nameQuotes, List.mem_cons, List.not_mem_nil, or_false] at hQuote
    rcases hQuote with h | h <;> rw [h] <;> rfl

/-- A reserved word is not read where a name stands. -/
theorem keyword_identifier (hQuote : d.quote ∈ nameQuotes) {w : String} (hw : IsKeyword w)
    (hReserved : d.isReserved w = true) (s : String) (hRest : Begins separators rest) :
    keyword w ((d.identifier s).toList ++ rest) = none := by
  rw [keyword_eq]
  rcases word_identifier hQuote s hRest with hNone | ⟨hWord, hFree⟩
  · rw [hNone]
    rfl
  · rw [hWord, Option.bind_some, if_neg]
    intro hSame
    have hSame : Text.upperCase s = w := hSame
    rw [Dialect.isReserved, hw.2.2] at hReserved
    rw [Dialect.isReserved, hSame, hReserved] at hFree
    cases hFree

/-- The words that guard an index are not read where its name stands. -/
theorem keywords_identifier (hQuote : d.quote ∈ nameQuotes) (s : String) (more : List Char) :
    keywords ["IF", "NOT", "EXISTS"]
      ((' ' :: (d.identifier s).toList) ++ ((' ' :: "ON".toList) ++ ' ' :: more)) = none := by
  have hOther : keyword "NOT" ((' ' :: "ON".toList) ++ ' ' :: more) = none := by
    rw [keyword_eq, IsKeyword.reads_behind (w := "ON") (by decide +kernel) _ (by simp [separators]),
      Option.bind_some]
    exact if_neg (by decide : "ON" ≠ "NOT")
  have hBegins : Begins separators ((' ' :: "ON".toList) ++ ' ' :: more) := by simp [separators]
  rw [keywords, bind_eq, List.cons_append, skips_keyword _ ' ' _ (by decide), keyword_eq]
  rcases word_identifier hQuote s hBegins with hNone | ⟨hWord, -⟩
  · rw [hNone]
    rfl
  · rw [hWord, Option.bind_some]
    split
    next => rw [Option.bind_some, keywords, bind_eq, hOther]; rfl
    next => rfl

section Tables

variable (hd : d ∈ Dialect.provided)
include hd

/-- An item of a creation is read as the key or the definition it was written from. -/
theorem reads_item {i : List String ⊕ ColumnClause} (h : ∀ clause, i = .inr clause → clause.Legible d) :
    Reads Closes (item d) (itemText d i) (itemValue i) := by
  have hQuote := quote_mem_of_provided hd
  cases i with
  | inl key =>
      change Reads _ _ (("PRIMARY".toList ++ spaced ["KEY"]) ++
        (' ' :: '(' :: ((Edit.nameList key).spelled d ++ [')']))) _
      have hWords := (reads_keyword (w := "PRIMARY") (by decide +kernel)).bind
        (f := fun _ => keywords ["KEY"]) (reads_keywords (by decide +kernel))
        fun rest hRest => begins_spaced ["KEY"] hRest
      refine hWords.optional.bind ?_ fun _ _ => by simp [separators]
      have hNames := (skips_enclosed (name d)).reads (c := ' ') (by decide) (reads_names hQuote key)
      exact (hNames.mono fun _ _ => trivial).map _
  | inr clause =>
      intro rest hRest
      have hWords : ∀ d ∈ Dialect.provided, "PRIMARY" ∈ d.reserved := by decide +kernel
      have hReserved : d.isReserved "PRIMARY" = true :=
        (Dialect.isReserved_iff hd _).mpr ⟨_, hWords d hd, Text.sameName_self _⟩
      obtain ⟨more, hMore⟩ := exists_itemText d clause
      have hNone : keywords ["PRIMARY", "KEY"] (itemText d (.inr clause) ++ rest) = none := by
        rw [keywords, bind_eq, hMore, List.append_assoc,
          keyword_identifier hQuote (by decide +kernel) hReserved clause.name (by simp [separators])]
        exact Option.bind_none _
      rw [item, bind_eq, optional, hNone]
      exact (reads_definition hQuote (h clause rfl)).map Sum.inr rest hRest

/-- No item begins with the parenthesis that closes the list. -/
theorem head?_skipped_item (i : List String ⊕ ColumnClause) (more : List Char) :
    (skipped (itemText d i ++ more)).head? ≠ some ')' := by
  cases i with
  | inl key =>
      change (skipped ('P' :: _)).head? ≠ _
      rw [skipped_cons (by decide), List.head?_cons]
      decide
  | inr clause =>
      obtain ⟨behind, hText⟩ := exists_itemText d clause
      rw [hText, List.append_assoc]
      exact head?_skipped_identifier (quote_mem_of_provided hd) clause.name _

def items (columns : List ColumnClause) (compositeKey : List String) :
    List (List String ⊕ ColumnClause) :=
  columns.map .inr ++ if compositeKey = [] then [] else [.inl compositeKey]

omit hd in
/-- Columns and key together are spelled as one list of items. -/
theorem between_items (columns : List ColumnClause) (compositeKey : List String)
    (hKey : columns = [] → compositeKey = []) :
    between [',', '\n'] ((items columns compositeKey).map (itemText d)) =
      Sql.spelled d (Sql.joined ",\n" (columns.map (ColumnClause.sql d)) ++
        if compositeKey.isEmpty then []
        else Piece.text ",\nPRIMARY KEY (" :: Edit.nameList compositeKey ++ [.text ")"]) := by
  have hColumns : Sql.spelled d (Sql.joined ",\n" (columns.map (ColumnClause.sql d))) =
      between [',', '\n'] (columns.map fun clause => itemText d (.inr clause)) := by
    rw [Sql.spelled_joined, List.map_map]
    rfl
  have hKeyText : Sql.spelled d
      (.text ",\nPRIMARY KEY (" :: Edit.nameList compositeKey ++ [.text ")"]) =
        [',', '\n'] ++ itemText d (.inl compositeKey) := by
    rw [List.cons_append, Sql.spelled_text, Sql.spelled_append]
    rfl
  rw [Sql.spelled_append, hColumns, items, List.map_append, List.map_map]
  by_cases hNone : compositeKey = []
  · rw [if_pos hNone, if_pos (List.isEmpty_iff.mpr hNone), List.map_nil, List.append_nil,
      Sql.spelled_nil, List.append_nil]
    rfl
  · have hSome : columns.map (itemText d ∘ Sum.inr) ≠ [] :=
      fun hEmpty => hNone (hKey (List.map_eq_nil_iff.mp hEmpty))
    rw [if_neg hNone, if_neg fun hEmpty => hNone (List.isEmpty_iff.mp hEmpty), hKeyText,
      List.map_singleton, between_concat _ hSome]
    rfl

omit hd in
/-- The items a creation is read into are its definitions and its key. -/
theorem filterMap_items (columns : List ColumnClause) (compositeKey : List String) :
    ((items columns compositeKey).map itemValue).filterMap Sum.getRight? =
      columns.map ColumnClause.definition ∧
    ((items columns compositeKey).map itemValue).filterMap Sum.getLeft? =
      if compositeKey = [] then [] else [compositeKey] := by
  have hRight : (columns.map (itemValue ∘ Sum.inr)).filterMap Sum.getRight? =
      columns.map ColumnClause.definition := by
    rw [List.filterMap_map, ← List.filterMap_eq_map]
    rfl
  have hLeft : (columns.map (itemValue ∘ Sum.inr)).filterMap Sum.getLeft? = [] := by
    rw [List.filterMap_map]
    exact List.filterMap_eq_nil_iff.mpr fun _ _ => rfl
  rw [items, List.map_append, List.map_map, List.filterMap_append, List.filterMap_append, hRight,
    hLeft]
  split <;> simp [itemValue]

/-- A new table is read with its columns and its key. -/
theorem reads_newTable (t : Table) {columns : List ColumnClause} (compositeKey : List String)
    (hColumns : ∀ clause ∈ columns, clause.Legible d) :
    Reads (fun _ => True) (newTable d)
      (spaced ["IF", "NOT", "EXISTS"] ++ ((' ' :: t.reference.spelled d) ++ ((' ' :: '(' :: (['\n'] ++
        (between [',', '\n'] ((items columns compositeKey).map (itemText d)) ++ (['\n'] ++ [')'])))) ++
        [])))
      (t.path, .createTable (columns.map ColumnClause.definition) compositeKey) := by
  have hQuote := quote_mem_of_provided hd
  have hLine : ∀ x ∈ ['\n'], Text.isBlank x = true := by simp [Text.isBlank]
  have hItems : ∀ i ∈ items columns compositeKey, Reads Closes (item d) (itemText d i) (itemValue i) := by
    intro i hi
    refine reads_item hd fun clause hClause => ?_
    subst hClause
    rcases List.mem_append.mp hi with hi | hi
    · exact hColumns clause (by simpa using hi)
    · split at hi <;> simp at hi
  obtain ⟨hRight, hLeft⟩ := filterMap_items columns compositeKey
  rw [newTable]
  refine (reads_keywords (by decide +kernel)).bind ?_ fun _ _ => by simp [separators]
  refine ((skips_table d).reads (by decide) (reads_table hQuote t)).bind ?_ fun _ _ => ?_
  · have hEnclosed := reads_enclosed ['\n'] ['\n'] ['\n'] (skips_item d) hLine hLine hLine
      (fun more => .inr (.inl ⟨more, rfl⟩)) (fun more => .inr (.inr ⟨more, rfl⟩)) hItems
      fun i _ => head?_skipped_item hd i
    refine ((skips_enclosed (item d)).reads (by decide) hEnclosed).bind ?_ fun _ _ => trivial
    rw [hRight, hLeft]
    by_cases hNone : compositeKey = []
    · rw [if_pos hNone, hNone]
      exact reads_pure _
    · rw [if_neg hNone]
      exact reads_pure _
  · exact endsPath_blank (by decide) (by decide)

omit hd in
/-- The word of a direction is read as the direction. -/
theorem reads_direction (x : Direction) :
    Reads (Begins separators) (word >>= direction) x.word.toList x := by
  cases x with
  | ascending =>
      have hText : Direction.ascending.word.toList = (' ' :: "ASC".toList) ++ [] := by decide +kernel
      rw [hText]
      exact (IsKeyword.reads_behind (by decide +kernel)).bind (reads_pure _) fun _ h => h
  | descending =>
      have hText : Direction.descending.word.toList = (' ' :: "DESC".toList) ++ [] := by decide +kernel
      rw [hText]
      exact (IsKeyword.reads_behind (by decide +kernel)).bind (reads_pure _) fun _ h => h

omit hd in
/-- A column of an index is read with its direction. -/
theorem reads_indexColumn (hQuote : d.quote ∈ nameQuotes) (c : String × Direction) :
    Reads (Begins separators) (indexColumn d) ((d.identifier c.1).toList ++ (c.2.word.toList ++ [])) c := by
  refine (reads_name hQuote c.1).bind ?_ fun rest _ => ?_
  · exact (reads_direction c.2).bind (reads_pure c) fun _ h => h
  · cases c.2 <;> simp [Direction.word, separators]

/-- The letters of an index behind the words that say what is created. -/
def indexText (d : Dialect) (t : Table) (index : String) (guarded : Bool)
    (columns : List (String × Direction)) : List Char :=
  (if guarded then spaced ["IF", "NOT", "EXISTS"] else []) ++
    ((' ' :: (d.identifier index).toList) ++ ((' ' :: "ON".toList) ++
    ((' ' :: t.reference.spelled d) ++ ((' ' :: '(' :: ([] ++ (between [',', ' '] (columns.map
      fun c => (d.identifier c.1).toList ++ (c.2.word.toList ++ [])) ++ ([] ++ [')'])))) ++ []))))

omit hd in
/-- A new index is read with its columns. -/
theorem reads_newIndex (hQuote : d.quote ∈ nameQuotes) (t : Table) (index : String)
    (unique guarded : Bool) (columns : List (String × Direction)) :
    Reads (fun _ => True) (newIndex d unique) (indexText d t index guarded columns)
      (t.path, .createIndex index unique guarded columns) := by
  have hColumns := reads_enclosed [' '] [] [] (skips_indexColumn d)
    (by simp [Text.isBlank]) (by simp) (by simp) (fun more => by simp [separators])
    (fun more => by simp [separators])
    (fun c (_ : c ∈ columns) => reads_indexColumn hQuote c) fun c _ more => by
      rw [List.append_assoc]
      exact head?_skipped_identifier hQuote c.1 _
  rw [List.map_id'] at hColumns
  -- Without the guard the name of the index comes next, and is not taken for the words of one.
  have hGuard : Reads (fun rest => Begins separators rest ∧ keywords ["IF", "NOT", "EXISTS"] rest = none)
      (present ["IF", "NOT", "EXISTS"]) (if guarded then spaced ["IF", "NOT", "EXISTS"] else [])
      guarded := by
    cases guarded with
    | true => exact reads_present (by decide +kernel) fun _ h => h.1
    | false => exact reads_present_none fun _ h => h.2
  rw [newIndex]
  refine hGuard.bind ?_ fun _ _ => ⟨by simp [separators], ?_⟩
  · refine ((skips_name d).reads (by decide) (reads_name hQuote index)).bind ?_
      fun _ _ => by simp [separators]
    refine (IsKeyword.keyword_behind (by decide +kernel)).bind ?_ fun _ _ => by simp [separators]
    refine ((skips_table d).reads (by decide) (reads_table hQuote t)).bind ?_
      fun _ _ => endsPath_blank (by decide) (by decide)
    exact ((skips_enclosed (indexColumn d)).reads (by decide) hColumns).bind (reads_pure _)
      fun _ _ => trivial
  · have hNone := keywords_identifier hQuote index
    simpa using hNone _

end Tables

/-! ### Whole statements -/

section Statements

variable (hd : d ∈ Dialect.provided) (t : Table)
include hd

/-- A new table is read from its statement. -/
theorem reads_createTable {columns : List ColumnClause} {compositeKey : List String}
    (hColumns : ∀ clause ∈ columns, clause.Legible d) (hKey : columns = [] → compositeKey = []) :
    Reads (· = []) (word >>= schemaStatement d)
      ((Edit.sql d t (.createTable columns compositeKey)).spelled d)
      (t.path, .createTable (columns.map ColumnClause.definition) compositeKey) := by
  have hNew := reads_newTable hd t compositeKey hColumns
  rw [between_items columns compositeKey hKey] at hNew
  have hText : (Edit.sql d t (.createTable columns compositeKey)).spelled d =
      "CREATE".toList ++ ((' ' :: "TABLE".toList) ++ (spaced ["IF", "NOT", "EXISTS"] ++
        ((' ' :: t.reference.spelled d) ++ ((' ' :: '(' :: (['\n'] ++
          (Sql.spelled d (Sql.joined ",\n" (columns.map (ColumnClause.sql d)) ++
            if compositeKey.isEmpty then []
            else Piece.text ",\nPRIMARY KEY (" :: Edit.nameList compositeKey ++ [.text ")"]) ++
          (['\n'] ++ [')'])))) ++ [])))) := by
    simp only [Edit.sql, Sql.spelled_append, Sql.spelled_text, List.cons_append,
      List.append_assoc, List.append_nil]
    rfl
  rw [hText]
  refine (IsKeyword.reads (by decide +kernel)).bind ?_ fun _ _ => by simp [separators]
  refine (IsKeyword.reads_behind (by decide +kernel)).bind ?_ fun _ _ => by simp [spaced, separators]
  exact hNew.mono fun _ _ => trivial

/-- An index is read from its statement. -/
theorem reads_createIndex (index : String) (unique guarded : Bool)
    (columns : List (String × Direction)) :
    Reads (· = []) (word >>= schemaStatement d)
      ((Edit.sql d t (.createIndex index unique guarded columns)).spelled d)
      (t.path, .createIndex index unique guarded columns) := by
  have hNew : Reads (· = []) _ _ _ :=
    (reads_newIndex (quote_mem_of_provided hd) t index unique guarded columns).mono
      fun _ _ => trivial
  have hEdge (rest : List Char) : Begins separators (indexText d t index guarded columns ++ rest) := by
    cases guarded <;> simp [indexText, spaced, separators]
  have hJoined := Sql.spelled_joined (d := d) ", " (columns.map fun c =>
    [Piece.name c.1, .text c.2.word])
  rw [List.map_map] at hJoined
  have hText : (Edit.sql d t (.createIndex index unique guarded columns)).spelled d =
      "CREATE".toList ++ ((if unique then ' ' :: "UNIQUE".toList else []) ++
        ((' ' :: "INDEX".toList) ++ indexText d t index guarded columns)) := by
    cases unique <;> cases guarded <;>
    · simp only [Edit.sql, indexText, Sql.spelled_append, Sql.spelled_text, Sql.spelled_name,
        Sql.spelled_nil, hJoined, Function.comp_def, List.cons_append, List.append_assoc,
        List.append_nil, List.nil_append]
      rfl
  rw [hText]
  refine (IsKeyword.reads (by decide +kernel)).bind ?_ fun _ _ => by cases unique <;> simp [separators]
  cases unique with
  | true =>
      refine (IsKeyword.reads_behind (by decide +kernel)).bind ?_ fun _ _ => by simp [separators]
      exact (IsKeyword.keyword_behind (by decide +kernel)).bind hNew fun _ _ => hEdge _
  | false => exact (IsKeyword.reads_behind (by decide +kernel)).bind hNew fun _ _ => hEdge _

/-- A comment is read from its statement. -/
theorem reads_comment (column text : String) :
    Reads (· = []) (word >>= schemaStatement d) ((Edit.sql d t (.comment column text)).spelled d)
      (t.path, .comment column text) := by
  have hColumn := (skips_column d).reads (c := ' ') (by decide)
    (reads_column (quote_mem_of_provided hd) t column)
  have hString := (skips_string d).reads (c := ' ') (by decide) (reads_string d text)
  have hText : (Edit.sql d t (.comment column text)).spelled d = "COMMENT".toList ++
      (spaced ["ON", "COLUMN"] ++ ((' ' :: (t.reference.spelled d ++
        '.' :: (d.identifier column).toList)) ++ ((' ' :: "IS".toList) ++
          (' ' :: (d.stringLiteral text).toList)))) := by
    simp only [Edit.sql, Sql.spelled_append, Sql.spelled_text, List.cons_append,
      List.append_assoc, Sql.spelled_name, Sql.spelled_nil, List.append_nil]
    rfl
  rw [hText]
  refine (IsKeyword.reads (by decide +kernel)).bind ?_ fun _ _ => by simp [spaced, separators]
  refine (reads_keywords (by decide +kernel)).bind ?_ fun _ _ => by simp [separators]
  refine hColumn.bind ?_ fun _ _ => endsPath_blank (by decide) (by decide)
  refine (IsKeyword.keyword_behind (by decide +kernel)).bind ?_ fun _ _ => by simp [separators]
  exact (hString.mono fun rest hRest => by rw [hRest]; exact begins_nil _).give fun _ => rfl

/-- The letters of a statement that does something to a table. -/
def alteringText (d : Dialect) (t : Table) (actions : List Char) : List Char :=
  "ALTER".toList ++ ((' ' :: "TABLE".toList) ++ ((' ' :: t.reference.spelled d) ++ (' ' :: actions)))

/-- Actions are read behind the name of their table, the first of them by its word. -/
theorem reads_alterTable {w : String} (hw : IsKeyword w) {text : List Char}
    {actions : List TableAction}
    (h : Reads (· = []) (listed (word >>= action d)) (w.toList ++ text) actions) :
    Reads (· = []) (word >>= schemaStatement d) (alteringText d t (w.toList ++ text))
      (t.path, .alterTable actions) := by
  refine (IsKeyword.reads (by decide +kernel)).bind ?_ fun _ _ => by simp [separators]
  refine (IsKeyword.keyword_behind (by decide +kernel)).bind ?_ fun _ _ => by simp [separators]
  refine ((skips_table d).reads (by decide) (reads_table (quote_mem_of_provided hd) t)).bind ?_
    fun _ _ => hw.endsPath _ _
  exact Reads.give ((skips_listed (skips_word.bind _)).reads (by decide) h) fun _ => rfl

omit hd in
/-- The changes of a column are spelled one after another behind the name of the table. -/
theorem spelled_changeColumn (column : String) (changes : List ColumnChange) :
    (Edit.sql d t (.changeColumn column changes)).spelled d =
      alteringText d t (between [',', '\n'] (changes.map (alterText d column))) := by
  have hChange (change : ColumnChange) : Sql.spelled d
      [.text "ALTER COLUMN ", .name column, .text " ", .text change.text] =
        alterText d column change := by
    simp only [Sql.spelled_text, Sql.spelled_name, Sql.spelled_nil, List.append_nil]
    rfl
  have hJoined := Sql.spelled_joined (d := d) ",\n" (changes.map fun change =>
    [Piece.text "ALTER COLUMN ", .name column, .text " ", .text change.text])
  rw [List.map_map, Function.comp_def] at hJoined
  simp only [hChange] at hJoined
  simp only [Edit.sql, Sql.spelled_append, Sql.spelled_text, List.cons_append, hJoined]
  rfl

/-- The changes of a column are read from their statement. -/
theorem reads_changeColumn (column : String) {changes : List ColumnChange} (hSome : changes ≠ [])
    (h : ∀ change ∈ changes, change.Legible d) :
    Reads (· = []) (word >>= schemaStatement d)
      ((Edit.sql d t (.changeColumn column changes)).spelled d)
      (t.path, .alterTable (changes.map fun change => .alter column change.alteration)) := by
  have hActions := reads_changes (quote_mem_of_provided hd) column hSome h
  obtain ⟨change, others, rfl⟩ := List.exists_cons_of_ne_nil hSome
  obtain ⟨more, hMore⟩ :=
    exists_between_cons [',', '\n'] (alterText d column change) (others.map (alterText d column))
  rw [List.map_cons, hMore, alterText, List.append_assoc] at hActions
  rw [spelled_changeColumn, List.map_cons, hMore, alterText, List.append_assoc]
  exact reads_alterTable hd t (by decide +kernel) hActions

/-- The statement of an edit is read from the letters of the edit. -/
theorem reads_edit {e : Edit} (h : e.Legible d) :
    Reads (· = []) (word >>= schemaStatement d) ((e.sql d t).spelled d) (t.path, e.statement) := by
  have hQuote := quote_mem_of_provided hd
  cases e with
  | createTable columns compositeKey => exact reads_createTable hd t h.1 h.2
  | addColumn clause =>
      have hText : (Edit.sql d t (.addColumn clause)).spelled d = alteringText d t
          ("ADD".toList ++ ((' ' :: "COLUMN".toList) ++ (' ' :: (clause.sql d).spelled d))) := by
        simp only [Edit.sql, Sql.spelled_append, Sql.spelled_text, List.cons_append]
        rfl
      rw [hText]
      exact reads_alterTable hd t (by decide +kernel) (reads_single (reads_add hQuote h))
  | changeColumn name changes => exact reads_changeColumn hd t name h.1 h.2
  | redefineColumn clause =>
      have hText : (Edit.sql d t (.redefineColumn clause)).spelled d = alteringText d t
          ("MODIFY".toList ++ ((' ' :: "COLUMN".toList) ++ (' ' :: (clause.sql d).spelled d))) := by
        simp only [Edit.sql, Sql.spelled_append, Sql.spelled_text, List.cons_append]
        rfl
      rw [hText]
      exact reads_alterTable hd t (by decide +kernel) (reads_single (reads_redefine hQuote h))
  | addKey columns =>
      have hText : (Edit.sql d t (.addKey columns)).spelled d = alteringText d t
          ("ADD".toList ++ ((' ' :: "PRIMARY".toList) ++ ((' ' :: "KEY".toList) ++
            (' ' :: '(' :: ((Edit.nameList columns).spelled d ++ [')']))))) := by
        simp only [Edit.sql, Sql.spelled_append, Sql.spelled_text, List.cons_append,
          List.append_assoc]
        rfl
      rw [hText]
      exact reads_alterTable hd t (by decide +kernel) (reads_single (reads_addKey hQuote columns))
  | createIndex index unique guarded columns => exact reads_createIndex hd t index unique guarded columns
  | comment column text => exact reads_comment hd t column text

end Statements

end Parse

/-! ### Requests -/

/-- Statements on a schema bind no values. -/
theorem Edit.params_sql (d : Dialect) (t : Table) (e : Edit) : (e.sql d t).params = [] := by
  have hReference : t.reference.params = [] := (Table.carries_reference (d := d)).params_eq_nil
  have hClause (clause : ColumnClause) : (clause.sql d).params = [] := by
    obtain ⟨name, type, notNull, default, isKey, comment⟩ := clause
    cases notNull <;> cases default <;> cases isKey <;> cases comment <;> rfl
  have hNames (names : List String) : (Edit.nameList names).params = [] := by
    rw [Edit.nameList, Sql.params_joined]
    simp
  have hFlat {ι : Type} {f : ι → Sql} (hf : ∀ i, (f i).params = []) (s : String) (is : List ι) :
      (Sql.joined s (is.map f)).params = [] := by
    rw [Sql.params_joined, List.flatMap_map]
    simp [hf]
  cases e with
  | createTable columns compositeKey =>
      cases compositeKey <;> simp [sql, hReference, hFlat hClause, hNames]
  | addColumn | redefineColumn | addKey | comment => simp [sql, hReference, hClause, hNames]
  | changeColumn name changes =>
      have hChanges := hFlat (f := fun change : ColumnChange =>
        [Piece.text "ALTER COLUMN ", .name name, .text " ", .text change.text]) (fun _ => rfl) ",\n"
      simp [sql, hReference, hChanges]
  | createIndex index unique guarded columns =>
      have hColumns := hFlat (f := fun c : String × Direction =>
        [Piece.name c.1, .text c.2.word]) (fun _ => rfl) ", "
      simp [sql, hReference, hColumns]

/-- The request of an edit is read as the statement of the edit on the table. -/
theorem Dialect.readSchema_request {d : Dialect} (hd : d ∈ provided) (t : Table) {e : Edit}
    (h : e.Legible d) : d.readSchema (e.request d t).sql = some (t.path, e.statement) := by
  have hRead := Parse.reads_edit hd t h [] rfl
  rw [List.append_nil] at hRead
  rw [readSchema, Edit.request, Dialect.request, Sql.toList_render (e.params_sql d t), hRead]
  rfl

end SqlMapper
