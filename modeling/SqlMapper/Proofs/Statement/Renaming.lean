import SqlMapper.Proofs.Schema.Building
import SqlMapper.Proofs.Statement.Noninterference
import SqlMapper.Proofs.Statement.Resolution

/-! Mentions of columns are interchangeable. A column may be mentioned by its name in any letter
case or by the property it asks for, and two builders that mention the same columns differently
compile to the same requests, or fail alike. Every mention is looked up before anything of it is
written. -/
namespace SqlMapper

open Column (Distinct named?)

/-! ### Mentions -/

namespace Table

/-- The second text may stand where the first one mentions a column. It is the name of the column in
any letter case, or the property the column asks for, where no column has that name and no earlier
one asks for the same. -/
inductive Renames (t : Table) : String → String → Prop where
  | kept (mention : String) : Renames t mention mention
  | name {mention name : String} {c : Column} (hFound : t.find? mention = some c)
      (hName : c.isNamed name = true) : Renames t mention name
  | property {mention : String} {c : Column} {before after : List Column}
      (hFound : t.find? mention = some c) (hAsks : c.mappedTo.isEmpty = false)
      (hFree : ∀ k ∈ t.columns, k.isNamed c.mappedTo = false)
      (hColumns : t.columns = before ++ c :: after)
      (hFirst : ∀ k ∈ before, k.mappedTo ≠ c.mappedTo) : Renames t mention c.mappedTo

variable {t : Table}

/-- The property that a column asks for leads to it, where it is no name and no earlier column asks
for it. -/
theorem find?_mappedTo {c : Column} {before after : List Column}
    (hAsks : c.mappedTo.isEmpty = false) (hFree : ∀ k ∈ t.columns, k.isNamed c.mappedTo = false)
    (hColumns : t.columns = before ++ c :: after)
    (hFirst : ∀ k ∈ before, k.mappedTo ≠ c.mappedTo) : t.find? c.mappedTo = some c := by
  have hUnnamed : named? t.columns c.mappedTo = none := by
    rw [named?, List.find?_eq_none]
    intro k hk
    simp [hFree k hk]
  rw [find?_eq_or, hUnnamed, Option.none_or, List.find?_eq_some_iff_append]
  refine ⟨by simp [Column.asksFor, hAsks], before, after, hColumns, fun k hk => ?_⟩
  simp [Column.asksFor, hFirst k hk]

/-- Two mentions of one column find the same column. -/
theorem Renames.find?_eq {mention other : String} (h : t.Renames mention other)
    (hDistinct : Distinct t.columns) : t.find? other = t.find? mention := by
  cases h with
  | kept => rfl
  | name hFound hName => rw [hFound, find?_of_isNamed hDistinct (mem_of_find? hFound) hName]
  | property hFound hAsks hFree hColumns hFirst =>
      rw [hFound, find?_mappedTo hAsks hFree hColumns hFirst]

/-- Both texts lead to one column, or the text is the same that leads to none. -/
theorem Renames.column_eq {mention other : String} (h : t.Renames mention other)
    (hDistinct : Distinct t.columns) (operation : Operation) :
    t.column mention operation = t.column other operation := by
  cases hFound : t.find? mention with
  | some c => rw [column_of_find? hFound, column_of_find? ((h.find?_eq hDistinct).trans hFound)]
  | none =>
      -- Only what leads to a column is ever exchanged, so that a failure names the same mention.
      cases h with
      | kept => rfl
      | name hSome => simp [hSome] at hFound
      | property hSome => simp [hSome] at hFound

/-- Lists that mention the same columns resolve alike. -/
theorem columnsOf_renamed {names others : List String} (h : List.Forall₂ t.Renames names others)
    (hDistinct : Distinct t.columns) (operation : Operation) :
    t.columnsOf operation names = t.columnsOf operation others := by
  induction h with
  | nil => rfl
  | cons hFirst hRest ih => rw [columnsOf, columnsOf, hFirst.column_eq hDistinct, ih]

theorem columnsOrAll_renamed {names others : List String} (h : List.Forall₂ t.Renames names others)
    (hDistinct : Distinct t.columns) (operation : Operation) :
    t.columnsOrAll operation names = t.columnsOrAll operation others := by
  rw [columnsOrAll, columnsOrAll, isEmpty_eq_of_forall₂ h, columnsOf_renamed h hDistinct]

end Table

/-! ### Conditions -/

/-- The comparisons differ in the mention of their column only. -/
structure Predicate.Renamed (t : Table) (p q : Predicate) : Prop where
  column : t.Renames p.column q.column
  operator : p.operator = q.operator
  values : p.values = q.values

/-- A comparison is written alike however its column is mentioned. -/
theorem Predicate.sql_renamed {t : Table} {p q : Predicate} (h : p.Renamed t q)
    (hDistinct : Distinct t.columns) (d : Dialect) (operation : Operation) :
    p.sql d t operation = q.sql d t operation := by
  rw [Predicate.sql, Predicate.sql, h.column.column_eq hDistinct, h.operator, h.values]

namespace Condition

mutual

/-- The conditions differ in mentions of columns only. -/
def Renamed (t : Table) : Condition → Condition → Prop
  | leaf p, leaf q => p.Renamed t q
  | group xs, group ys => AllRenamed t xs ys
  | _, _ => False

/-- The children differ in mentions of columns only, one by one and behind the same links. -/
def AllRenamed (t : Table) : List (Link × Condition) → List (Link × Condition) → Prop
  | [], [] => True
  | (link, c) :: xs, (link', c') :: ys => link = link' ∧ Renamed t c c' ∧ AllRenamed t xs ys
  | _, _ => False

end

variable {t : Table}

theorem length_eq_of_allRenamed : ∀ {xs ys : List (Link × Condition)}, AllRenamed t xs ys →
    xs.length = ys.length
  | [], [], _ => rfl
  | _ :: _, _ :: _, ⟨_, _, hRest⟩ => congrArg Nat.succ (length_eq_of_allRenamed hRest)

theorem isCompound_renamed {c c' : Condition} (h : Renamed t c c') :
    c.isCompound = c'.isCompound := by
  match c, c' with
  | leaf p, leaf q => rfl
  | group xs, group ys => rw [isCompound_group, isCompound_group, length_eq_of_allRenamed h]

theorem isEmpty_renamed {c c' : Condition} (h : Renamed t c c') : c.isEmpty = c'.isEmpty := by
  match c, c' with
  | leaf p, leaf q => rfl
  | group xs, group ys => rw [isEmpty_group, isEmpty_group, length_eq_of_allRenamed h]

mutual

/-- A condition is written alike however its columns are mentioned. -/
theorem sql_renamed (hDistinct : Distinct t.columns) (d : Dialect) (operation : Operation) :
    ∀ (c : Condition) {c' : Condition}, Renamed t c c' →
      c.sql d t operation = c'.sql d t operation
  | leaf p, leaf q, h => Predicate.sql_renamed h hDistinct d operation
  | group [], group [], _ => rfl
  | group ((_, c) :: xs), group ((_, c') :: ys), ⟨_, hFirst, hRest⟩ => by
      rw [Condition.sql, Condition.sql, sql_renamed hDistinct d operation c hFirst,
        isCompound_renamed hFirst]
      exact bind_congr fun first => sqlAfter_renamed hDistinct d operation xs hRest _ none

/-- What follows in a group is written alike however its columns are mentioned. -/
theorem sqlAfter_renamed (hDistinct : Distinct t.columns) (d : Dialect) (operation : Operation) :
    ∀ (xs : List (Link × Condition)) {ys : List (Link × Condition)}, AllRenamed t xs ys →
      ∀ written previous, sqlAfter d t operation written previous xs =
        sqlAfter d t operation written previous ys
  | [], [], _, _, _ => rfl
  | (link, c) :: xs, (_, c') :: ys, ⟨rfl, hFirst, hRest⟩, written, previous => by
      rw [sqlAfter, sqlAfter, sql_renamed hDistinct d operation c hFirst,
        isCompound_renamed hFirst]
      exact bind_congr fun right => sqlAfter_renamed hDistinct d operation xs hRest _ (some link)

end

/-- A clause is written alike however its columns are mentioned. -/
theorem clause_renamed (hDistinct : Distinct t.columns) (d : Dialect) (operation : Operation)
    {f g : Option Condition} (h : Option.Rel (Renamed t) f g) :
    clause d t operation f = clause d t operation g := by
  cases h with
  | none => rfl
  | @some c c' h => rw [clause, clause, sql_renamed hDistinct d operation c h]

end Condition

/-! ### Assignments and sort keys -/

/-- Pairs that differ in the mention of a column only. -/
abbrev Table.PairsRenamed {α : Type} (t : Table) : List (String × α) → List (String × α) → Prop :=
  List.Forall₂ fun x y => t.Renames x.1 y.1 ∧ x.2 = y.2

variable {t : Table}

/-- Assignments to the same columns resolve alike. -/
theorem Update.resolved_renamed {xs ys : List (String × Value)} (h : t.PairsRenamed xs ys)
    (hDistinct : Distinct t.columns) : resolved t xs = resolved t ys := by
  induction h with
  | nil => rfl
  | @cons x y xs ys hFirst hRest ih =>
      obtain ⟨hMention, hValue⟩ := hFirst
      rw [resolved, resolved, hMention.column_eq hDistinct, hValue, ih]

/-- Sort keys that mention the same columns resolve alike. -/
theorem Query.sortKeys_renamed {xs ys : List (String × Direction)} (h : t.PairsRenamed xs ys)
    (hDistinct : Distinct t.columns) : sortKeys t xs = sortKeys t ys := by
  induction h with
  | nil => rfl
  | @cons x y xs ys hFirst hRest ih =>
      obtain ⟨hMention, hDirection⟩ := hFirst
      rw [sortKeys, sortKeys, hMention.column_eq hDistinct, hDirection, ih]

/-! ### Statements -/

namespace Statement

/-- The builders differ in mentions of columns only. -/
inductive Renamed : Statement → Statement → Prop where
  | insert (i : Insert) {columns : List String}
      (hColumns : List.Forall₂ i.table.Renames i.columns columns) :
      Renamed (.insert i) (.insert { i with columns })
  | update (u : Update) {assignments : List (String × Value)} {filter : Option Condition}
      (hAssignments : u.table.PairsRenamed u.assignments assignments)
      (hFilter : Option.Rel (Condition.Renamed u.table) u.filter filter) :
      Renamed (.update u) (.update { u with assignments, filter })
  | delete (x : Delete) {filter : Option Condition}
      (hFilter : Option.Rel (Condition.Renamed x.table) x.filter filter) :
      Renamed (.delete x) (.delete { x with filter })
  | select (q : Query) {columns : List String} {order : List (String × Direction)}
      {filter : Option Condition} (hColumns : List.Forall₂ q.table.Renames q.columns columns)
      (hOrder : q.table.PairsRenamed q.order order)
      (hFilter : Option.Rel (Condition.Renamed q.table) q.filter filter) :
      Renamed (.select q) (.select { q with columns, order, filter })
  | count (q : Query) {columns : List String} {order : List (String × Direction)}
      {filter : Option Condition} (hColumns : List.Forall₂ q.table.Renames q.columns columns)
      (hOrder : q.table.PairsRenamed q.order order)
      (hFilter : Option.Rel (Condition.Renamed q.table) q.filter filter) :
      Renamed (.count q) (.count { q with columns, order, filter })

variable {columns : List String} {filter : Option Condition}

/-- An insertion compiles alike however its columns are mentioned. -/
theorem insert_renamed (i : Insert) (hColumns : List.Forall₂ i.table.Renames i.columns columns)
    (hDistinct : Distinct i.table.columns) :
    i.compile = ({ i with columns } : Insert).compile := by
  simp only [Insert.compile, Insert.compileUpsert, Insert.site,
    Table.columnsOrAll_renamed hColumns hDistinct]

/-- An update compiles alike however its columns are mentioned. -/
theorem update_renamed (u : Update) {assignments : List (String × Value)}
    (hAssignments : u.table.PairsRenamed u.assignments assignments)
    (hFilter : Option.Rel (Condition.Renamed u.table) u.filter filter)
    (hDistinct : Distinct u.table.columns) :
    u.compile = ({ u with assignments, filter } : Update).compile := by
  have hEffective := Condition.effective_rel Condition.isEmpty_renamed hFilter
  simp only [Update.compile, Update.site, isEmpty_eq_of_forall₂ hAssignments,
    Condition.isNone_eq_of_rel hEffective, Update.resolved_renamed hAssignments hDistinct,
    Condition.clause_renamed hDistinct u.dialect .update hEffective]

/-- A deletion compiles alike however its columns are mentioned. -/
theorem delete_renamed (x : Delete)
    (hFilter : Option.Rel (Condition.Renamed x.table) x.filter filter)
    (hDistinct : Distinct x.table.columns) :
    x.compile = ({ x with filter } : Delete).compile := by
  have hEffective := Condition.effective_rel Condition.isEmpty_renamed hFilter
  simp only [Delete.compile, Delete.site, Condition.isNone_eq_of_rel hEffective,
    Condition.clause_renamed hDistinct x.dialect .delete hEffective]

/-- A query compiles alike however its columns are mentioned. -/
theorem select_renamed (q : Query) {order : List (String × Direction)}
    (hColumns : List.Forall₂ q.table.Renames q.columns columns)
    (hOrder : q.table.PairsRenamed q.order order)
    (hFilter : Option.Rel (Condition.Renamed q.table) q.filter filter)
    (hDistinct : Distinct q.table.columns) :
    q.compile = ({ q with columns, order, filter } : Query).compile := by
  have hEffective := Condition.effective_rel Condition.isEmpty_renamed hFilter
  simp only [Query.compile, Query.bounds, Query.windowBounds, Query.site,
    Table.columnsOrAll_renamed hColumns hDistinct, Query.sortKeys_renamed hOrder hDistinct,
    Condition.clause_renamed hDistinct q.dialect .query hEffective]

/-- A count looks at neither the columns nor the sort keys. -/
theorem count_renamed (q : Query) (order : List (String × Direction))
    (hFilter : Option.Rel (Condition.Renamed q.table) q.filter filter)
    (hDistinct : Distinct q.table.columns) :
    q.countRequest = ({ q with columns, order, filter } : Query).countRequest := by
  have hEffective := Condition.effective_rel Condition.isEmpty_renamed hFilter
  simp only [Query.countRequest,
    Condition.clause_renamed hDistinct q.dialect .count hEffective]

/-- Builders that differ in mentions of columns only compile to the same requests, or fail with the
same failure. -/
theorem compile_eq_of_renamed {a b : Statement} (h : a.Renamed b)
    (hDistinct : Distinct a.table.columns) : a.compile = b.compile := by
  cases h with
  | insert i hColumns => exact insert_renamed i hColumns hDistinct
  | update u hAssignments hFilter =>
      rw [compile, compile, update_renamed u hAssignments hFilter hDistinct]
  | delete x hFilter => rw [compile, compile, delete_renamed x hFilter hDistinct]
  | select q hColumns hOrder hFilter =>
      rw [compile, compile, select_renamed q hColumns hOrder hFilter hDistinct]
  | count q hColumns hOrder hFilter =>
      rw [compile, compile, count_renamed q _ hFilter hDistinct]

/-- Properties and other letter cases in place of names, in every part of a query. The last column
asks for the property of the first one too. -/
theorem compile_eq_of_renamed_select :
    let t : Table := { name := "item", columns := [
      { Column.ofTy "item_title" .text with mappedTo := "title" },
      { Column.ofTy "place" .text with mappedTo := "shelf" },
      { Column.ofTy "note" .text with mappedTo := "title" }] }
    let q (columns : List String) (key first second : String) : Query :=
      { table := t, dialect := .generic, columns, order := [(key, .descending)],
        filter := some (.any [.compare first .isNull [],
          .all [.compare "note" .isNotNull [], .compare second .like [.text (some "a%")]]]) }
    let a := Statement.select (q ["item_title", "shelf"] "place" "item_title" "place")
    let b := Statement.select (q ["title", "Place"] "shelf" "Item_Title" "PLACE")
    a.Renamed b ∧ Distinct a.table.columns ∧ a.compile = b.compile ∧
      ∃ requests, a.compile = .ok requests := by
  intro t q a b
  have hDistinct : Distinct t.columns := Table.distinct_of_validate (t := t) rfl
  have hTitle : t.find? "item_title" = some t.columns[0] := rfl
  have hPlace : t.find? "place" = some t.columns[1] := rfl
  have hShelf : t.find? "shelf" = some t.columns[1] := rfl
  have hProperty : t.Renames "item_title" "title" :=
    .property hTitle rfl (by decide) (List.nil_append t.columns).symm (by simp)
  have hPlaces : t.columns = [t.columns[0]] ++ t.columns[1] :: [t.columns[2]] := rfl
  have hKey : t.Renames "place" "shelf" :=
    .property hPlace rfl (by decide) hPlaces (by decide)
  have hName : t.Renames "shelf" "Place" := .name hShelf (by decide)
  have hFirst : Predicate.Renamed t ⟨"item_title", .isNull, []⟩ ⟨"Item_Title", .isNull, []⟩ :=
    ⟨.name hTitle (by decide), rfl, rfl⟩
  have hKept : Predicate.Renamed t ⟨"note", .isNotNull, []⟩ ⟨"note", .isNotNull, []⟩ :=
    ⟨.kept "note", rfl, rfl⟩
  have hSecond : Predicate.Renamed t ⟨"place", .like, [.text (some "a%")]⟩
      ⟨"PLACE", .like, [.text (some "a%")]⟩ :=
    ⟨.name hPlace (by decide), rfl, rfl⟩
  have hRenamed : a.Renamed b :=
    .select _ (.cons hProperty (.cons hName .nil)) (.cons ⟨hKey, rfl⟩ .nil)
      (.some ⟨rfl, hFirst, rfl, ⟨rfl, hKept, rfl, hSecond, trivial⟩, trivial⟩)
  exact ⟨hRenamed, hDistinct, compile_eq_of_renamed hRenamed hDistinct, _, rfl⟩

end Statement

end SqlMapper
