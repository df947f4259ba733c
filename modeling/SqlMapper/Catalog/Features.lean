import SqlMapper.Sql.Dialect

/-!
# Features

Settings that are attached to a database and looked up by kind. There is at most one of each kind:
a new one takes the place of the old.
-/

namespace SqlMapper

/-- The settings that are present. -/
structure Features where
  dialect : Option Dialect := none
  chunkSize : Option Nat := none

namespace Features

/-- The rows of a chunk when no setting says otherwise. -/
def defaultChunkSize : Nat := 500

/-- The settings in messages: the dialect, then the chunk size. -/
def messages (f : Features) : List String :=
  f.dialect.toList.map Dialect.message ++
    f.chunkSize.toList.map fun n => "ChunkSize(" ++ toString n ++ ")"

/-- All settings in one message. -/
def message (f : Features) : String := "[" ++ ", ".intercalate f.messages ++ "]"

end Features

end SqlMapper
