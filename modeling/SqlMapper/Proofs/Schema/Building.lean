import SqlMapper.Proofs.Schema.Lookup

/-! Building a table. However its columns are put, one by one or in groups, a table is an ordered
map of them: a name has the place at which it was first put and the column that was put last under
it. A search prefers that column, whatever properties others ask for. -/
namespace SqlMapper

namespace Column

/-- The column asks for the property of this name, which is then its other name. -/
def asksFor (c : Column) (name : String) : Bool := !c.mappedTo.isEmpty && c.mappedTo == name

end Column

namespace Table

open Column

/-- A search takes the first column of the name, and only where there is none the first that asks
for a property of the name. -/
theorem find?_eq_or (t : Table) (name : String) :
    t.find? name = (named? t.columns name).or (t.columns.find? (·.asksFor name)) := by
  cases hFound : named? t.columns name with
  | some c => exact find?_eq_named? hFound
  | none =>
      -- Where no column has the name, a column answers to it only through its property.
      have hAnswers : t.columns.find? (·.answersTo name) = t.columns.find? (·.asksFor name) := by
        rw [← List.head?_filter, ← List.head?_filter]
        refine congrArg List.head? (List.filter_congr fun c hc => ?_)
        have hOther : c.isNamed name = false := by simpa using List.find?_eq_none.mp hFound c hc
        rw [answersTo, hOther, Bool.false_or, asksFor]
      rw [named?] at hFound
      rw [find?, hFound, hAnswers]
      rfl

/-! ### Calls of the builder -/

/-- A call of the builder of a table: for one column, or for a group of columns. -/
inductive Call where
  | column (c : Column)
  | group (cs : List Column)

namespace Call

/-- The columns that a call puts, in order. -/
def columns : Call → List Column
  | column c => [c]
  | group cs => cs

def applyTo (t : Table) : Call → Table
  | column c => t.put c
  | group cs => t.putAll cs

end Call

/-- The table that calls build from a new one, which has no columns. -/
def built (name : String) (calls : List Call) : Table := calls.foldl Call.applyTo { name }

/-- The columns of a table are those of `puts` as an ordered map. -/
structure Holds (puts : List Column) (t : Table) : Prop where
  distinct : Distinct t.columns
  /-- The names stand in the order in which they were first put. -/
  order : foldedNames t.columns = (foldedNames puts).eraseDups
  /-- A name has the column that was put last under it. -/
  latest (name : String) : named? t.columns name = puts.reverse.find? (·.isNamed name)

theorem Holds.new (name : String) : Holds [] { name } :=
  ⟨List.nodup_nil, rfl, fun _ => rfl⟩

variable {puts : List Column} {t : Table}

/-- Putting a column keeps what the table says of the columns put. -/
theorem Holds.put (h : Holds puts t) (c : Column) : Holds (puts ++ [c]) (t.put c) where
  distinct := distinct_putInto h.distinct c
  order := by
    have hKnown : c.folded ∈ foldedNames t.columns ↔ c.folded ∈ foldedNames puts := by
      rw [h.order, List.mem_eraseDups]
    have hAppend : foldedNames (puts ++ [c]) = foldedNames puts ++ [c.folded] := by
      simp [foldedNames]
    rw [Table.put, foldedNames_putInto, h.order, hAppend, List.eraseDups_append, ← h.order]
    -- A name that was put before keeps its place, a new one comes last.
    by_cases hOld : c.folded ∈ foldedNames puts
    · rw [if_pos (hKnown.mpr hOld)]
      simp [List.removeAll, hOld]
    · rw [if_neg (mt hKnown.mp hOld)]
      simp [List.removeAll, hOld, List.eraseDups_cons]
  latest name := by
    rw [Table.put, named?_putInto, h.latest, List.reverse_append, List.reverse_singleton,
      List.singleton_append, List.find?_cons]
    cases c.isNamed name <;> rfl

/-- Putting several columns keeps what the table says of the columns put. -/
theorem Holds.putAll (h : Holds puts t) (cs : List Column) : Holds (puts ++ cs) (t.putAll cs) := by
  induction cs generalizing puts t with
  | nil => simpa [Table.putAll] using h
  | cons c cs ih => simpa [Table.putAll] using ih (h.put c)

/-- One call keeps what the table says of the columns put. -/
theorem Holds.applyTo (h : Holds puts t) (call : Call) :
    Holds (puts ++ call.columns) (call.applyTo t) := by
  cases call with
  | column c => exact h.put c
  | group cs => exact h.putAll cs

/-- Any sequence of calls keeps what the table says of the columns put. -/
theorem Holds.foldl (h : Holds puts t) (calls : List Call) :
    Holds (puts ++ calls.flatMap Call.columns) (calls.foldl Call.applyTo t) := by
  induction calls generalizing puts t with
  | nil => simpa using h
  | cons call calls ih => simpa using ih (h.applyTo call)

/-- A table that is built is an ordered map of the columns put: their names are distinct and in the
order in which they were first put, and a name in any letter case leads to the column that was put
last under it. Any other text leads to the first column that asks for a property of exactly that
name. -/
theorem built_orderedMap (name : String) (calls : List Call) :
    let puts := calls.flatMap Call.columns
    let t := built name calls
    Distinct t.columns ∧
      foldedNames t.columns = (foldedNames puts).eraseDups ∧
      ∀ mention, t.find? mention =
        (puts.reverse.find? (·.isNamed mention)).or (t.columns.find? (·.asksFor mention)) := by
  have h : Holds (calls.flatMap Call.columns) (built name calls) := by
    simpa [built] using (Holds.new name).foldl calls
  refine ⟨h.distinct, h.order, fun mention => ?_⟩
  rw [find?_eq_or, h.latest]

/-- A column put again in another letter case, whose name others ask for as their property. -/
example :
    let t := built "item" [.column { name := "label", mappedTo := "Qty" },
      .group [{ name := "qty" }, { name := "note", mappedTo := "Label" }],
      .column { name := "QTY", mappedTo := "label" }]
    t.columns.map Column.name = ["label", "QTY", "note"] ∧
      ["Qty", "LABEL", "amount"].map (fun name => (t.find? name).map Column.name) =
        [some "QTY", some "label", none] := by
  decide

end Table

end SqlMapper
