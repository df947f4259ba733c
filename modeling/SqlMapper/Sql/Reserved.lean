/-!
# Reserved words

The words, in upper case, that a name may not be without quotes. The lists are sorted, and a word is
looked for by halving the part of a list where it can be.
-/

namespace SqlMapper.Reserved

/-- The words that most databases reserve. -/
def common : List String :=
  [
    "ALL", "ALTER", "AND", "ANY", "AS", "ASC", "BETWEEN", "BY", "CASE", "CHECK", "COLUMN",
    "CONSTRAINT", "CREATE", "CROSS", "DEFAULT", "DELETE", "DESC", "DISTINCT", "DROP", "ELSE",
    "END", "EXISTS", "FALSE", "FOR", "FOREIGN", "FROM", "FULL", "GROUP", "HAVING", "IN", "INDEX",
    "INNER", "INSERT", "INTO", "IS", "JOIN", "KEY", "LEFT", "LIKE", "LIMIT", "NOT", "NULL",
    "OFFSET", "ON", "OR", "ORDER", "OUTER", "PRIMARY", "REFERENCES", "RIGHT", "SELECT", "SET",
    "TABLE", "THEN", "TO", "TRUE", "UNION", "UNIQUE", "UPDATE", "USER", "USING", "VALUES",
    "WHEN", "WHERE", "WITH"]

def mysql : List String :=
  [
    "ACCESSIBLE", "ALL", "ALTER", "ANALYZE", "AND", "ANY", "AS", "ASC", "BEFORE", "BETWEEN",
    "BIGINT", "BINARY", "BLOB", "BOTH", "BY", "CALL", "CASCADE", "CASE", "CHANGE", "CHAR",
    "CHARACTER", "CHECK", "COLLATE", "COLUMN", "CONDITION", "CONSTRAINT", "CONVERT", "CREATE",
    "CROSS", "CURRENT_DATE", "CURRENT_TIME", "CURRENT_TIMESTAMP", "DATABASE", "DATABASES",
    "DECIMAL", "DECLARE", "DEFAULT", "DELETE", "DESC", "DESCRIBE", "DISTINCT", "DIV", "DOUBLE",
    "DROP", "DUAL", "EACH", "ELSE", "ELSEIF", "END", "ESCAPED", "EXISTS", "EXIT", "EXPLAIN",
    "FALSE", "FETCH", "FLOAT", "FOR", "FORCE", "FOREIGN", "FROM", "FULL", "FULLTEXT",
    "GENERATED", "GRANT", "GROUP", "GROUPS", "HAVING", "IF", "IGNORE", "IN", "INDEX", "INNER",
    "INOUT", "INSERT", "INT", "INTEGER", "INTERVAL", "INTO", "IS", "ITERATE", "JOIN", "KEY",
    "KEYS", "KILL", "LEADING", "LEAVE", "LEFT", "LIKE", "LIMIT", "LINES", "LOAD", "LOCK", "LONG",
    "LOOP", "MATCH", "MOD", "MODIFIES", "NATURAL", "NOT", "NULL", "NUMERIC", "OFFSET", "ON",
    "OPTIMIZE", "OPTION", "OR", "ORDER", "OUT", "OUTER", "PARTITION", "PRECISION", "PRIMARY",
    "PROCEDURE", "PURGE", "RANGE", "RANK", "READ", "REAL", "RECURSIVE", "REFERENCES", "REGEXP",
    "RELEASE", "RENAME", "REPEAT", "REPLACE", "REQUIRE", "RESTRICT", "RETURN", "REVOKE", "RIGHT",
    "RLIKE", "ROW", "ROWS", "SCHEMA", "SCHEMAS", "SELECT", "SEPARATOR", "SET", "SHOW", "SIGNAL",
    "SMALLINT", "SPATIAL", "SQL", "STARTING", "STORED", "SYSTEM", "TABLE", "TERMINATED", "THEN",
    "TINYINT", "TO", "TRAILING", "TRIGGER", "TRUE", "UNDO", "UNION", "UNIQUE", "UNLOCK",
    "UNSIGNED", "UPDATE", "USAGE", "USER", "USING", "UTC_DATE", "VALUES", "VARBINARY", "VARCHAR",
    "VIRTUAL", "WHEN", "WHERE", "WHILE", "WINDOW", "WITH", "WRITE", "XOR", "ZEROFILL"]

/-- The word is in a sorted list of at most `2 ^ halvings` words. The part where it can be is halved
until a single word is left. -/
def halved (halvings : Nat) (words : List String) (w : String) : Bool :=
  match halvings with
  | 0 => words.head? == some w
  | halvings + 1 =>
    let half := words.length / 2
    match words.drop half with
    | [] => false
    | middle :: above =>
      if w < middle then halved halvings (words.take (words.length - half)) w
      else halved halvings (middle :: above) w

/-- The word is in a sorted list. -/
def found (words : List String) (w : String) : Bool := halved (words.length.log2 + 1) words w

end SqlMapper.Reserved
