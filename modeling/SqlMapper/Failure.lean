import SqlMapper.Condition.Basic
import SqlMapper.Sql.Request
import SqlMapper.Text.Utf8
import SqlMapper.Value.Coercion

/-!
# Failures

Whatever goes wrong is reported as a chain of layers: the outermost says what was being done, the
innermost what happened. A layer is a cause with its data; the wording is given by `Layer.message`
alone. Only a clock that leaves the calendar, a row that is shorter than its labels and a failed
check of a scenario end the run without a report.
-/

namespace SqlMapper

/-- What was being done. -/
inductive Operation where
  | ddl
  | insert
  | update
  | delete
  | query
  | count
  | mapping
  deriving DecidableEq, Repr

namespace Operation

def name : Operation → String
  | ddl => "DDL"
  | insert => "INSERT"
  | update => "UPDATE"
  | delete => "DELETE"
  | query => "SELECT"
  | count => "COUNT"
  | mapping => "MAPPING"

end Operation

/-- Where something went wrong. -/
structure Site where
  operation : Operation
  table : String
  column : Option String := none
  deriving DecidableEq, Repr

namespace Site

def message (s : Site) : String :=
  s.operation.name ++ " on table `" ++ s.table ++ "`" ++
    s.column.elim "" fun c => ", column `" ++ c ++ "`"

end Site

/-- A fault without a place of its own. -/
inductive Fault where
  | coercion (e : CoercionError)
  | reading (e : ReadingError)
  | unknownProperty (property entity : String)
  | unsupportedType (type : Value) (dialect : String)
  | nonFiniteLiteral (text dialect : String)
  | literal (value : Value) (dialect : String)
  | zonedText (e : Rfc3339Error)
  /-- The words of the database. -/
  | reply (text : String)
  | integerStorage (n : Int)
  | storage (value : Value)
  | utf8 (e : Text.Utf8Error)
  | url (scheme : String)
  /-- What the database was asked to do when it failed. -/
  | opening (target : String)
  | preparing (sql : String)

namespace Fault

def message : Fault → String
  | coercion e => e.message
  | reading e => e.message
  | unknownProperty property entity => "Unknown property `" ++ property ++ "` of " ++ entity
  | unsupportedType type dialect => "Unsupported type " ++ type.message ++ " in " ++ dialect
  | nonFiniteLiteral text dialect =>
    "Cannot write the non finite literal " ++ text ++ " in " ++ dialect
  | literal value dialect => "Cannot write the literal " ++ value.message ++ " in " ++ dialect
  | zonedText e => e.message
  | reply text => text
  | integerStorage n => toString n ++ " does not fit in a sqlite INTEGER"
  | storage value => "Cannot bind " ++ value.message ++ " as a sqlite parameter"
  | utf8 e => e.message
  | url scheme => "Expected sqlite connection url to start with `" ++ scheme ++ "`"
  | opening target => "While opening the sqlite database `" ++ target ++ "`"
  | preparing sql => "While preparing `" ++ Text.truncate sql ++ "`"

/-- The wording of a chain of faults on one line. -/
def chain (faults : List Fault) : String := ": ".intercalate (faults.map message)

end Fault

namespace CoercionError

/-- The error and its cause as faults, outermost first. -/
def faults (e : CoercionError) : List Fault :=
  .coercion e :: e.cause?.toList.flatMap fun cause => List.replicate cause.layers (.reading cause)

end CoercionError

/-- What contradicts the declarations of tables. -/
inductive MetadataReason where
  | columnNotFound
  | tableNotFound
  | duplicateColumn
  | nullableKey
  | keyColumnNotDeclared
  | keyAlreadyDeclared (columns : List String)
  | upsertNeedsKey
  | lookupNeedsSingleKey (keys : Nat)
  | keyNotMapped
  | noKey
  | keyReplaced (known target : List String)
  | alteringRefused (dialect : String)
  | addingKeyRefused (dialect : String)
  | faults (faults : List Fault)

namespace MetadataReason

def names (columns : List String) : String := "(" ++ ", ".intercalate columns ++ ")"

def message : MetadataReason → String
  | columnNotFound => "column not found"
  | tableNotFound => "table not found"
  | duplicateColumn => "duplicate column name"
  | nullableKey => "primary key column cannot be nullable"
  | keyColumnNotDeclared => "primary key column is not declared"
  | keyAlreadyDeclared columns =>
    "duplicate primary key declaration, " ++ names columns ++ " is already declared"
  | upsertNeedsKey => "upsert needs a primary key"
  | lookupNeedsSingleKey keys =>
    "lookup by id needs a single column primary key, the table has " ++ toString keys
  | keyNotMapped => "primary key column is not mapped to a property"
  | noKey => "the table has no primary key"
  | keyReplaced known target =>
    "primary key " ++ names known ++ " cannot be replaced by " ++ names target ++
      " without an explicit migration"
  | alteringRefused dialect => dialect ++ " cannot alter an existing column"
  | addingKeyRefused dialect => dialect ++ " cannot add a primary key to an existing table"
  | faults fs => Fault.chain fs

end MetadataReason

/-- Why a statement is malformed or refused. -/
inductive CompileReason where
  | emptyGroup
  | valueCount (operator : Operator) (expected got : Nat)
  | emptyList
  | comparesNull (operator : Operator)
  | noRows
  | rowLength (row got expected : Nat)
  | noUpsert (dialect : String)
  | nothingToSet
  | unconditionalUpdate
  | unconditionalDelete
  | pageSizeZero
  | pageOutOfRange (index size : Nat)
  | chunkSizeZero
  deriving DecidableEq, Repr

namespace CompileReason

def message : CompileReason → String
  | emptyGroup => "empty condition group"
  | valueCount operator expected got =>
    "operator " ++ operator.name ++ " expects " ++ toString expected ++ " values, got " ++
      toString got
  | emptyList => "empty IN list"
  | comparesNull operator => "operator " ++ operator.name ++ " cannot compare with NULL"
  | noRows => "no rows to insert"
  | rowLength row got expected =>
    "row " ++ toString row ++ " has " ++ toString got ++ " values, " ++ toString expected ++
      " columns expected"
  | noUpsert dialect => dialect ++ " has no native upsert"
  | nothingToSet => "no column to set"
  | unconditionalUpdate =>
    "refusing to update every row without an explicit allow_unconditional()"
  | unconditionalDelete =>
    "refusing to delete every row without an explicit allow_unconditional()"
  | pageSizeZero => "page size is zero"
  | pageOutOfRange index size =>
    "page " ++ toString index ++ " of size " ++ toString size ++ " is out of range"
  | chunkSizeZero => "chunk size is zero"

end CompileReason

/-- What could not be made of a cell. -/
inductive MappingReason where
  /-- The count of rows. -/
  | total (faults : List Fault)
  /-- A property of a record. -/
  | property (entity property : String) (faults : List Fault)

namespace MappingReason

def message : MappingReason → String
  | total fs => Fault.chain fs
  | property entity name fs => "cannot set " ++ entity ++ "." ++ name ++ ": " ++ Fault.chain fs

end MappingReason

/-- How far a batch came: the rows written before the failure, the failed chunk counted from zero,
and the count of chunks. -/
structure BatchFailure where
  completed : UInt64
  failedChunk : Nat
  chunks : Nat
  deriving DecidableEq, Repr

/-- One layer of a failure. -/
inductive Layer where
  | batch (b : BatchFailure)
  | metadata (site : Site) (reason : MetadataReason)
  | compile (site : Site) (reason : CompileReason)
  | mapping (site : Site) (reason : MappingReason)
  | execution (site : Site) (request : Request)
  | fault (f : Fault)

namespace Layer

def message : Layer → String
  | batch b =>
    "Batch aborted at chunk " ++ toString (b.failedChunk + 1) ++ " of " ++ toString b.chunks ++
      ", " ++ toString b.completed ++ " rows already inserted"
  | metadata site reason => "Metadata error, " ++ site.message ++ ": " ++ reason.message
  | compile site reason => "Compile error, " ++ site.message ++ ": " ++ reason.message
  | mapping site reason => "Mapping error, " ++ site.message ++ ": " ++ reason.message
  | execution site request =>
    "Execution error, " ++ site.message ++ ", while running:\n" ++ request.message
  | fault f => f.message

/-- The place of the layer, if it has one. -/
def site? : Layer → Option Site
  | metadata site _ => some site
  | compile site _ => some site
  | mapping site _ => some site
  | execution site _ => some site
  | _ => none

end Layer

/-- How a computation ends without a result. -/
inductive Failure where
  /-- With a report: the outermost layer and those beneath it. -/
  | reported (top : Layer) (beneath : List Layer)
  /-- Without a report. -/
  | ended

namespace Failure

def layers : Failure → List Layer
  | reported top beneath => top :: beneath
  | ended => []

def of (top : Layer) : Failure := reported top []

/-- A contradiction to the declarations. -/
def metadata (site : Site) (reason : MetadataReason) : Failure := of (.metadata site reason)

def compile (site : Site) (reason : CompileReason) : Failure := of (.compile site reason)

def fault (f : Fault) : Failure := of (.fault f)

/-- The failure as the cause of another layer. A run that ended stays ended. -/
def under (f : Failure) (layer : Layer) : Failure :=
  match f with
  | reported top beneath => reported layer (top :: beneath)
  | ended => ended

/-- The failure of a coercion, its faults told by `report`. A clock that leaves the calendar ends
the run. -/
def ofCoercion (report : List Fault → Failure) : CoercionError → Failure
  | .calendarEnd => ended
  | e => report e.faults

def ofFaults : List Fault → Failure
  | [] => ended
  | f :: fs => reported (.fault f) (fs.map .fault)

end Failure

abbrev Result (α : Type) := Except Failure α

end SqlMapper
