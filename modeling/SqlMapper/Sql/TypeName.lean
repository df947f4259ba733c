import SqlMapper.Failure
import SqlMapper.Schema.Table
import SqlMapper.Sql.Dialect

/-!
# Types of columns

The name that a database has for the type of a column. A type that the dialect cannot store is a
contradiction in the declarations, whatever statement needs it.
-/

namespace SqlMapper.Dialect

/-- A type name with a length, or another one without. -/
def withLength (name : String) (bare : String) (length : Option Nat) : String :=
  match length with
  | some n => name ++ "(" ++ toString n ++ ")"
  | none => bare

/-- A type name with precision and scale: those of the column, else those of the type if it has a
precision, else another name without them. -/
def withPrecision (name bare : String) (column : Option (Nat × Nat)) (p s : Nat) : String :=
  match column.orElse fun _ => if 0 < p then some (p, s) else none with
  | some (p, s) => name ++ "(" ++ toString p ++ "," ++ toString s ++ ")"
  | none => bare

/-- PostgreSQL's names. Small unsigned integers take the next wider type, the widest a decimal, and a
list is an array of its element type. -/
def commonType (dialect : String) (length : Option Nat) (precision : Option (Nat × Nat)) :
    Value → Except Fault String
  | .null => .error (.unsupportedType .null dialect)
  | .boolean _ => .ok "BOOLEAN"
  | .integer k _ => .ok (match k with
    | .int8 | .int16 | .uint8 => "SMALLINT"
    | .int32 | .uint16 => "INTEGER"
    | .int64 | .uint32 => "BIGINT"
    | .uint64 => "NUMERIC(20)")
  | .float .single _ => .ok "REAL"
  | .float .double _ => .ok "DOUBLE PRECISION"
  | .decimal _ p s => .ok (withPrecision "NUMERIC" "NUMERIC" precision p s)
  | .text _ => .ok (withLength "VARCHAR" "TEXT" length)
  | .blob _ => .ok "BYTEA"
  | .date _ => .ok "DATE"
  | .time _ => .ok "TIME"
  | .timestamp _ => .ok "TIMESTAMP"
  | .zoned _ => .ok "TIMESTAMP WITH TIME ZONE"
  | .uuid _ => .ok "UUID"
  | .list _ element => (commonType dialect none none element).map (· ++ "[]")

/-- SQLite's storage classes. Decimals are text, which keeps all their digits. -/
def storageClass (dialect : String) (length : Option Nat) : Value → Except Fault String
  | .boolean _ | .integer _ _ => .ok "INTEGER"
  | .float _ _ => .ok "REAL"
  | .text _ => .ok (withLength "VARCHAR" "TEXT" length)
  | .blob _ => .ok "BLOB"
  | .decimal _ _ _ | .date _ | .time _ | .timestamp _ | .zoned _ | .uuid _ => .ok "TEXT"
  | .null => .error (.unsupportedType .null dialect)
  | .list items element => .error (.unsupportedType (.list items element) dialect)

/-- MySQL's names. -/
def sizedType (dialect : String) (length : Option Nat) (precision : Option (Nat × Nat)) :
    Value → Except Fault String
  | .boolean _ => .ok "TINYINT(1)"
  | .integer k _ => .ok (match k with
    | .int8 => "TINYINT"
    | .int16 => "SMALLINT"
    | .int32 => "INT"
    | .int64 => "BIGINT"
    | .uint8 => "TINYINT UNSIGNED"
    | .uint16 => "SMALLINT UNSIGNED"
    | .uint32 => "INT UNSIGNED"
    | .uint64 => "BIGINT UNSIGNED")
  | .float .single _ => .ok "FLOAT"
  | .float .double _ => .ok "DOUBLE"
  | .decimal _ p s => .ok (withPrecision "DECIMAL" "DECIMAL(38,10)" precision p s)
  | .text _ => .ok (withLength "VARCHAR" "TEXT" length)
  | .blob _ => .ok (withLength "VARBINARY" "BLOB" length)
  | .date _ => .ok "DATE"
  | .time _ => .ok "TIME(6)"
  | .timestamp _ | .zoned _ => .ok "DATETIME(6)"
  | .uuid _ => .ok "CHAR(36)"
  | .null => .error (.unsupportedType .null dialect)
  | .list items element => .error (.unsupportedType (.list items element) dialect)

/-- The name of the type that a value describes. -/
def typeName (d : Dialect) (value : Value) (length : Option Nat)
    (precision : Option (Nat × Nat)) : Except Fault String :=
  match d.types with
  | .common => commonType d.name length precision value
  | .storageClasses => storageClass d.name length value
  | .sized => sizedType d.name length precision value

/-- The database type of a column of a table: the one the column names, else the dialect's. -/
def columnType (d : Dialect) (table : String) (c : Column) : Result String :=
  if !c.typeName.isEmpty then .ok c.typeName
  else
    match d.typeName c.type c.length c.precision with
    | .ok name => .ok name
    | .error e => .error (.metadata ⟨.ddl, table, some c.name⟩ (.faults [e]))

end SqlMapper.Dialect
