import SqlMapper.Statement.Insert
import SqlMapper.Statement.Query
import SqlMapper.Statement.Update

/-! All builders of statements as one type, for what holds of every statement that is sent. -/
namespace SqlMapper

/-- A builder, with what is asked of it. -/
inductive Statement where
  | insert (i : Insert)
  | update (u : Update)
  | delete (x : Delete)
  | select (q : Query)
  | count (q : Query)

namespace Statement

def table : Statement → Table
  | insert i => i.table
  | update u => u.table
  | delete x => x.table
  | select q | count q => q.table

def dialect : Statement → Dialect
  | insert i => i.dialect
  | update u => u.dialect
  | delete x => x.dialect
  | select q | count q => q.dialect

/-- The requests in order; all but insertions make one. -/
def compile : Statement → Result (List Request)
  | insert i => i.compile
  | update u => u.compile.map ([·])
  | delete x => x.compile.map ([·])
  | select q => q.compile.map ([·])
  | count q => q.countRequest.map ([·])

end Statement

end SqlMapper
