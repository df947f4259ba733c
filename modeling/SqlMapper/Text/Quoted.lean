import SqlMapper.Text.Unprintable

/-!
# Quoted text in messages

A text inside a message stands between double quotes. Quotes, backslashes, line ends, tabs and the
null character have short escapes, other unprintable characters are written by number.
-/

namespace SqlMapper.Text

/-- The digits of `n` in base 16, without leading zeros. -/
def hexNumber (n : Nat) : List Char := Nat.toDigits 16 n

/-- The form of one character inside a quoted text. -/
def quotedChar (c : Char) : List Char :=
  if c = '"' then ['\\', '"']
  else if c = '\\' then ['\\', '\\']
  else if c = '\n' then ['\\', 'n']
  else if c = '\r' then ['\\', 'r']
  else if c = '\t' then ['\\', 't']
  else if c.toNat = 0 then ['\\', '0']
  else if isUnprintable c then ['\\', 'u', '\x7b'] ++ hexNumber c.toNat ++ ['\x7d']
  else [c]

/-- The text between double quotes, with escapes. -/
def quoted (s : String) : String :=
  String.ofList ('"' :: s.toList.flatMap quotedChar ++ ['"'])

end SqlMapper.Text
