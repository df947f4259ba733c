import SqlMapper.Sql.Piece
import SqlMapper.Sql.Reserved
import SqlMapper.Text.Case
import SqlMapper.Text.Escape

/-!
# Dialects

A dialect is a record of choices. It gives a statement its letters: it quotes names, writes
placeholders and collects the bound values as parameters.
-/

namespace SqlMapper

/-- Which names the types of columns have. -/
inductive TypeScheme where
  /-- PostgreSQL's names. -/
  | common
  /-- SQLite's storage classes. -/
  | storageClasses
  /-- MySQL's names. -/
  | sized
  deriving DecidableEq, Repr

/-- How the rows of a query are cut to a window. -/
inductive WindowStyle where
  /-- `LIMIT l OFFSET o` -/
  | limitOffset
  /-- `LIMIT o, l` -/
  | offsetLimit
  deriving DecidableEq, Repr

/-- How an insertion turns into an update of the row that is already there. -/
inductive UpsertStyle where
  | onConflict
  | onDuplicateKey
  /-- Not in one statement. -/
  | none
  deriving DecidableEq, Repr

/-- Where the comment of a column goes. -/
inductive CommentStyle where
  /-- Into a statement of its own. -/
  | statement
  /-- Into the definition of the column. -/
  | inline
  /-- Nowhere. -/
  | none
  deriving DecidableEq, Repr

/-- How an existing column gets another shape. -/
inductive AlterStyle where
  /-- By one clause for each difference. -/
  | clauses
  /-- By its whole new definition. -/
  | definition
  /-- Not at all. -/
  | none
  deriving DecidableEq, Repr

/-- The rules by which a database reads SQL. -/
structure Dialect where
  name : String
  /-- Words that names have to be quoted for, sorted and in upper case. -/
  reserved : List String := Reserved.common
  /-- Names are quoted even when they need not be. -/
  quotesAll : Bool := false
  /-- The quote around names. -/
  quote : Char := '"'
  /-- Placeholders carry their position. -/
  numbered : Bool := true
  types : TypeScheme := .common
  /-- A backslash in a string literal begins an escape. -/
  backslashEscapes : Bool := false
  window : WindowStyle := .limitOffset
  /-- One insertion takes many rows. -/
  multiRow : Bool := true
  upsert : UpsertStyle := .onConflict
  comments : CommentStyle := .statement
  altering : AlterStyle := .clauses
  /-- An existing table can get a primary key. -/
  addsKeys : Bool := true
  /-- An index that exists already can be skipped by the statement that creates it. -/
  guardsIndexes : Bool := true

namespace Dialect

/-- The reference dialect, close to PostgreSQL. -/
def generic : Dialect := { name := "generic" }

/-- SQLite: unnumbered placeholders, storage classes, and no change of columns or keys. -/
def sqlite : Dialect where
  name := "sqlite"
  numbered := false
  types := .storageClasses
  comments := .none
  altering := .none
  addsKeys := false

/-- MySQL: names between backticks, comments and changes by whole column definitions. -/
def mysql : Dialect where
  name := "mysql"
  reserved := Reserved.mysql
  quote := '\x60'
  numbered := false
  types := .sized
  backslashEscapes := true
  window := .offsetLimit
  upsert := .onDuplicateKey
  comments := .inline
  altering := .definition
  guardsIndexes := false

def message (d : Dialect) : String := "Dialect(" ++ d.name ++ ")"

/-! ### Names -/

/-- The name is reserved in some letter case. -/
def isReserved (d : Dialect) (name : String) : Bool := Reserved.found d.reserved (Text.upperCase name)

/-- The character can begin a name without quotes. -/
def isNameStart (c : Char) : Bool := c.isAlpha || c == '_'

/-- The character can stand in a name without quotes. -/
def isNamePart (c : Char) : Bool := c.isAlphanum || c == '_'

/-- The name is made of letters, digits and underscores and does not begin with a digit. -/
def isPlain (name : String) : Bool :=
  match name.toList with
  | [] => false
  | c :: cs => isNameStart c && cs.all isNamePart

/-- The name can stand without quotes. -/
def isBare (d : Dialect) (name : String) : Bool :=
  !d.quotesAll && !d.isReserved name && isPlain name

/-- The name as the text of a statement has it. -/
def identifier (d : Dialect) (name : String) : String :=
  if d.isBare name then name else Text.doubled d.quote name

/-! ### Letters of a statement -/

/-- The placeholder of the parameter at a one-based position. -/
def placeholder (d : Dialect) (position : Nat) : String :=
  if d.numbered then "$" ++ toString position else "?"

/-- The letters of each piece; the first bound value has the given position. -/
def letters (d : Dialect) (position : Nat) : Sql → List String
  | [] => []
  | .text s :: sql => s :: d.letters position sql
  | .name s :: sql => d.identifier s :: d.letters position sql
  | .bind _ _ :: sql => d.placeholder position :: d.letters (position + 1) sql

def render (d : Dialect) (sql : Sql) : String := String.join (d.letters 1 sql)

def request (d : Dialect) (sql : Sql) : Request := ⟨d.render sql, sql.params⟩

/-- The window clause for a count of skipped rows and a greatest count of returned ones. -/
def windowText (d : Dialect) (offset limit : Nat) : String :=
  match d.window with
  | .limitOffset =>
    "LIMIT " ++ toString limit ++ if 0 < offset then " OFFSET " ++ toString offset else ""
  | .offsetLimit =>
    "LIMIT " ++ (if 0 < offset then toString offset ++ ", " else "") ++ toString limit

end Dialect

end SqlMapper
