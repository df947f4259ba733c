import SqlMapper.Failure
import SqlMapper.Sql.Dialect

/-!
# Literals

Values written into the text of a statement. Only definitions of columns have them, as defaults and
comments; all other values are bound.
-/

namespace SqlMapper.Dialect

/-- The form of a character inside a string literal. -/
def literalChar (d : Dialect) (c : Char) : List Char :=
  if c = '\'' then ['\'', '\'']
  else if c = '\\' ∧ d.backslashEscapes then ['\\', '\\']
  else [c]

def stringLiteral (d : Dialect) (s : String) : String :=
  String.ofList ('\'' :: s.toList.flatMap d.literalChar ++ ['\''])

/-- Bytes in base sixteen. -/
def blobLiteral (bytes : List UInt8) : String :=
  "X'" ++ Text.upperCase (String.ofList (Text.hexBytes bytes)) ++ "'"

/-- The literal of a value. Numbers that are not finite, and lists, have none. -/
def literal (d : Dialect) : Value → Except Fault String
  | .boolean (some b) => .ok (if b then "TRUE" else "FALSE")
  | .integer _ (some n) => .ok (toString n.val)
  | .float p (some x) =>
    if x.isFinite then .ok (x.text (.literal p))
    else .error (.nonFiniteLiteral (x.text .message) d.name)
  | .decimal (some v) _ _ => .ok v.text
  | .text (some s) => .ok (d.stringLiteral s)
  | .blob (some bytes) => .ok (blobLiteral bytes)
  | .date (some v) => .ok (d.stringLiteral v.text)
  | .time (some v) => .ok (d.stringLiteral v.text)
  | .timestamp (some v) => .ok (d.stringLiteral v.text)
  | .zoned (some v) => (v.rfc3339.mapError .zonedText).map d.stringLiteral
  | .uuid (some v) => .ok ("'" ++ v.text ++ "'")
  | .list (some items) element => .error (.literal (.list (some items) element) d.name)
  | _ => .ok "NULL"

end SqlMapper.Dialect
