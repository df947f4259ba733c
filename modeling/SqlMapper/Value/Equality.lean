import SqlMapper.Value.Basic

/-!
# Equality of values

Values are equal when they have the same variant and equal contents. Floating point numbers compare
as numbers, decimals numerically together with their declared precision and scale, zoned timestamps
as instants. A value that holds no number anywhere inside is therefore not equal to itself.
-/

namespace SqlMapper

/-- Both are missing, or both are there and `same`. -/
def sameOption (same : α → α → Bool) : Option α → Option α → Bool
  | none, none => true
  | some a, some b => same a b
  | _, _ => false

namespace Value

mutual

def same : Value → Value → Bool
  | null, null => true
  | boolean v, boolean w => v == w
  | integer k v, integer l w => k == l && v.map Integer.val == w.map Integer.val
  | float .single v, float .single w => sameOption Binary.same v w
  | float .double v, float .double w => sameOption Binary.same v w
  | decimal v p s, decimal w q t => sameOption Decimal.same v w && p == q && s == t
  | text v, text w => v == w
  | blob v, blob w => v == w
  | date v, date w => v == w
  | time v, time w => v == w
  | timestamp v, timestamp w => v == w
  | zoned v, zoned w => sameOption Zoned.same v w
  | uuid v, uuid w => v == w
  | list none a, list none b => same a b
  | list (some xs) a, list (some ys) b => sameAll xs ys && same a b
  | _, _ => false

/-- Equality of lists of values, element by element. -/
def sameAll : List Value → List Value → Bool
  | [], [] => true
  | x :: xs, y :: ys => same x y && sameAll xs ys
  | _, _ => false

end

end Value

end SqlMapper
