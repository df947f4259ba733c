import SqlMapper.Failure

/-!
# Storage cells

A database without types of its own for most values keeps them in five storage classes. A value has
one storage form, which keeps all that it holds; reading a cell back gives the value of its class,
and the coercion into the type of a property does the rest.
-/

namespace SqlMapper.Storage

/-- A cell of one of the storage classes. Text is kept as bytes, which need not be UTF-8. -/
inductive Cell where
  | null
  | integer (n : Integer .int64)
  | real (x : Binary .double)
  | text (bytes : List UInt8)
  | blob (bytes : List UInt8)

namespace Cell

/-- The text form of something that has a text. -/
def ofText (s : String) : Cell := text (Text.encodeUtf8 s)

/-- The storage form of an integer, if the storage class has it. -/
def ofInteger (n : Int) : Except Fault Cell :=
  (Integer.ofInt? .int64 n).elim (.error (.integerStorage n)) fun n => .ok (integer n)

/-- The storage form of a value. Every NULL is the same, decimals, clock readings and identifiers
are stored as text, and lists have no storage form. -/
def ofValue : Value → Except Fault Cell
  | .boolean (some b) => ofInteger (if b then 1 else 0)
  | .integer _ (some n) => ofInteger n.val
  | .float .single (some x) => .ok (real (x.convert .double))
  | .float .double (some x) => .ok (real x)
  | .decimal (some d) _ _ => .ok (ofText d.text)
  | .text (some s) => .ok (ofText s)
  | .blob (some bytes) => .ok (blob bytes)
  | .date (some d) => .ok (ofText d.text)
  | .time (some t) => .ok (ofText t.text)
  | .timestamp (some t) => .ok (ofText t.text)
  | .zoned (some z) => (z.rfc3339.mapError .zonedText).map ofText
  | .uuid (some u) => .ok (ofText u.text)
  | .list (some items) element => .error (.storage (.list (some items) element))
  | _ => .ok null

/-- The cell as it is kept: what is no number is kept as NULL. -/
def kept : Cell → Cell
  | real x => match x.value with
    | .nan => null
    | _ => real x
  | cell => cell

def toValue : Cell → Except Fault Value
  | null => .ok .null
  | integer n => .ok (.integer .int64 (some n))
  | real x => .ok (.float .double (some x))
  | text bytes => ((Text.decodeUtf8 bytes).mapError .utf8).map fun s => .text (some s)
  | blob bytes => .ok (.blob (some bytes))

/-- Applies a step to each element, up to the first fault. -/
def mapAll (step : α → Except Fault β) : List α → Except Fault (List β)
  | [] => .ok []
  | a :: as => do
    let b ← step a
    let bs ← mapAll step as
    return b :: bs

/-- The storage forms of several values. -/
def ofValues : List Value → Except Fault (List Cell) := mapAll ofValue

def toValues : List Cell → Except Fault (List Value) := mapAll toValue

/-- The values after they have been stored and read back. -/
def roundTrip (values : List Value) : Except Fault (List Value) := do
  let cells ← ofValues values
  toValues (cells.map kept)

end Cell

end SqlMapper.Storage
