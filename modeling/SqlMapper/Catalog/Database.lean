import SqlMapper.Catalog.Features
import SqlMapper.Catalog.Ordered
import SqlMapper.Schema.Table

/-!
# Databases

What is known of a database: its schemas with their tables, one of them current, and its features.
A table has its slot under its schema and its name in lower case. A table without a schema of its
own goes into the current one.
-/

namespace SqlMapper

/-- The known tables of a database. -/
structure Database where
  currentSchema : String := ""
  /-- For each schema its tables under their names in lower case. -/
  schemas : List (String × List (String × Table)) := [("", [])]
  features : Features := {}

namespace Database

/-- A database that speaks a dialect, with one empty schema without a name. -/
def new (d : Dialect) : Database := { features := { dialect := some d } }

def dialect (db : Database) : Dialect := db.features.dialect.getD .generic

def chunkSize (db : Database) : Nat := db.features.chunkSize.getD Features.defaultChunkSize

def schema? (db : Database) (name : String) : Option (List (String × Table)) :=
  Ordered.find? name db.schemas

/-- Adds a schema unless it is there. -/
def addSchema (db : Database) (name : String) : Database :=
  match db.schema? name with
  | some _ => db
  | none => { db with schemas := Ordered.put name [] db.schemas }

/-- Makes a schema current, adding it when it is not there. -/
def setCurrentSchema (db : Database) (name : String) : Database :=
  { db.addSchema name with currentSchema := name }

/-- The schema that a table belongs to. -/
def schemaOf (db : Database) (t : Table) : String :=
  if t.schema.isEmpty then db.currentSchema else t.schema

def slot? (db : Database) (schema name : String) : Option Table :=
  (db.schema? schema).bind (Ordered.find? (Text.lowerCase name))

/-- Puts a table into its slot of a schema. -/
def putInto (db : Database) (schema : String) (t : Table) : Database :=
  let tables := Ordered.put (Text.lowerCase t.name) t ((db.schema? schema).getD [])
  { db with schemas := Ordered.put schema tables db.schemas }

def put (db : Database) (t : Table) : Database := db.putInto (db.schemaOf t) t

/-- Registers a table that is valid, in place of the one in its slot. -/
def addTable (db : Database) (t : Table) : Result Database := do
  t.validate
  return db.put t

/-- The table of a name; without a schema, that of the current schema. -/
def findTable? (db : Database) (schema : Option String) (name : String) : Option Table :=
  db.slot? (schema.getD db.currentSchema) name

/-- The schema and the table that a name addresses: what stands before the first point is the
schema. -/
def address (name : String) : Option String × String :=
  match name.toList.span (· != '.') with
  | (schema, '.' :: table) => (some (String.ofList schema), String.ofList table)
  | _ => (none, name)

def table (db : Database) (name : String) : Result Table :=
  let (schema, bare) := address name
  match db.findTable? schema bare with
  | some t => .ok t
  | none => .error (.metadata ⟨.query, name, none⟩ .tableNotFound)

end Database

end SqlMapper
