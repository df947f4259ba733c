import SqlMapper.Proofs.Migration.Plan
import SqlMapper.Proofs.Value.Literal

/-! What statements on a schema say, once they are read. Nothing of a value is left in them but its
literal, and nothing of the difference between edits but what their texts show: an alteration of a
table is a list of actions. Each edit has its statement. -/
namespace SqlMapper

/-- The definition of a column. -/
structure Definition where
  name : String
  type : String
  notNull : Bool
  default : Option Literal
  /-- The column alone is declared as the key. -/
  isKey : Bool
  comment : Option String

/-- What is to become of a column. -/
inductive Alteration where
  | type (name : String)
  | nullable (isNullable : Bool)
  | setDefault (literal : Literal)
  | dropDefault

/-- One action on a table that is there. -/
inductive TableAction where
  | add (column : Definition)
  | redefine (column : Definition)
  | addKey (columns : List String)
  | alter (column : String) (alteration : Alteration)

/-- A statement on the schema of a database. -/
inductive SchemaStatement where
  /-- Creates the table unless it exists. -/
  | createTable (columns : List Definition) (compositeKey : List String)
  | alterTable (actions : List TableAction)
  | createIndex (name : String) (unique guarded : Bool) (columns : List (String × Direction))
  | comment (column text : String)

/-! ### What literals stand for -/

/-- What a database takes literals for. It takes the literal of a value for this value, and it may take
any other literal for whatever it likes. -/
structure Dialect.Meaning (d : Dialect) where
  Stands : Value → Literal → Prop
  stands_literal : ∀ {v text}, d.literal v = .ok text → Stands v (v.asLiteral text)

namespace Dialect.Meaning

variable {d : Dialect}

/-- The literal stands for the value or for one that is the same. -/
def StandsSame (m : d.Meaning) (v : Value) (literal : Literal) : Prop :=
  ∃ w, (w = v ∨ v.same w = true) ∧ m.Stands w literal

/-- A value with a literal has no other one. -/
def strict (d : Dialect) : d.Meaning where
  Stands v literal := ∀ text, d.literal v = .ok text → literal = v.asLiteral text
  stands_literal hText text hLiteral := by
    rw [Except.ok.inj (hText.symm.trans hLiteral)]

/-- A literal that stands for a value stands for everything stored alike. -/
theorem standsSame_of_stands {m : d.Meaning} {v : Option Value} {literal : Option Literal}
    (h : Option.Rel m.Stands v literal) : Option.Rel m.StandsSame v literal := by
  cases h with
  | none => exact .none
  | @some v literal hStands => exact .some ⟨v, .inl rfl, hStands⟩

end Dialect.Meaning

/-! ### What edits say -/

/-- The literal of a default. -/
def DefaultClause.reading (clause : DefaultClause) : Literal := clause.value.asLiteral clause.literal

/-- The default of a definition stands for the default of its column. -/
theorem ColumnClause.stands_of_defaultOf {d : Dialect} (m : d.Meaning) {table : String} {c : Column}
    {default : Option DefaultClause} (h : defaultOf d table c = .ok default) :
    Option.Rel m.Stands c.default (default.map DefaultClause.reading) := by
  rw [← (defaultOf_eq_ok h).1]
  have hLiteral := literal_of_defaultOf h
  cases default with
  | none => exact .none
  | some x => exact .some (m.stands_literal (hLiteral x rfl))

/-- What the definition of a column says. -/
def ColumnClause.definition (clause : ColumnClause) : Definition where
  name := clause.name
  type := clause.type
  notNull := clause.notNull
  default := clause.default.map DefaultClause.reading
  isKey := clause.isKey
  comment := clause.comment

def ColumnChange.alteration : ColumnChange → Alteration
  | type name => .type name
  | nullable isNullable => .nullable isNullable
  | setDefault clause => .setDefault clause.reading
  | dropDefault => .dropDefault

/-- What an edit says. -/
def Edit.statement : Edit → SchemaStatement
  | createTable columns compositeKey =>
    .createTable (columns.map ColumnClause.definition) compositeKey
  | addColumn clause => .alterTable [.add clause.definition]
  | changeColumn name changes => .alterTable (changes.map fun change => .alter name change.alteration)
  | redefineColumn clause => .alterTable [.redefine clause.definition]
  | addKey columns => .alterTable [.addKey columns]
  | createIndex name unique guarded columns => .createIndex name unique guarded columns
  | comment column text => .comment column text

def Plan.statements (steps : List Step) : List SchemaStatement := (edits steps).map Edit.statement

@[simp] theorem Plan.statements_append (xs ys : List Step) :
    statements (xs ++ ys) = statements xs ++ statements ys := by
  rw [statements, edits_append, List.map_append]
  rfl

end SqlMapper
