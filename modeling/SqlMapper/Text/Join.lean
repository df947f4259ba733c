/-!
# Separated writing

Items are written one after another onto a text. A separator goes before an item exactly when the
item before it wrote something, so an item that writes nothing leaves no doubled separator.
-/

namespace SqlMapper.Text

/-- Writes the items onto `out`; `length` is the size the text had before the previous item. -/
def separatedFrom (write : String → α → String) (separator : String)
    (length : Nat) (out : String) : List α → String
  | [] => out
  | item :: items =>
    let out := if length < out.utf8ByteSize then out ++ separator else out
    separatedFrom write separator out.utf8ByteSize (write out item) items

/-- Writes every item through `write`, with `separator` between consecutive items that wrote. -/
def separatedBy (write : String → α → String) (separator : String) (out : String)
    (items : List α) : String :=
  separatedFrom write separator out.utf8ByteSize out items

/-- As `separatedFrom`, ending at the first item whose writer fails. What was written stays. -/
def trySeparatedFrom (write : String → α → String × Option ε) (separator : String)
    (length : Nat) (out : String) : List α → String × Option ε
  | [] => (out, none)
  | item :: items =>
    let out := if length < out.utf8ByteSize then out ++ separator else out
    match write out item with
    | (written, some failure) => (written, some failure)
    | (written, none) => trySeparatedFrom write separator out.utf8ByteSize written items

/-- As `separatedBy`, ending at the first item whose writer fails. What was written stays. -/
def trySeparatedBy (write : String → α → String × Option ε) (separator : String) (out : String)
    (items : List α) : String × Option ε :=
  trySeparatedFrom write separator out.utf8ByteSize out items

end SqlMapper.Text
