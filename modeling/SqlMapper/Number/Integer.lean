/-!
# Integers of a fixed width

An `Integer k` is an integer together with the proof that the kind `k` holds it. There is no
arithmetic on it: values travel between kinds through `Int`, and `ofInt?` refuses what does not fit.
-/

namespace SqlMapper

/-- The widths of integers that columns and properties know. -/
inductive IntegerKind where
  | int8 | int16 | int32 | int64
  | uint8 | uint16 | uint32 | uint64
  deriving DecidableEq, Repr

namespace IntegerKind

/-- Width in bits. -/
def bits : IntegerKind → Nat
  | int8 | uint8 => 8
  | int16 | uint16 => 16
  | int32 | uint32 => 32
  | int64 | uint64 => 64

/-- The kind has negative numbers. -/
def signed : IntegerKind → Bool
  | int8 | int16 | int32 | int64 => true
  | uint8 | uint16 | uint32 | uint64 => false

def least : IntegerKind → Int
  | int8 => -128
  | int16 => -32768
  | int32 => -2147483648
  | int64 => -9223372036854775808
  | uint8 | uint16 | uint32 | uint64 => 0

def greatest : IntegerKind → Int
  | int8 => 127
  | int16 => 32767
  | int32 => 2147483647
  | int64 => 9223372036854775807
  | uint8 => 255
  | uint16 => 65535
  | uint32 => 4294967295
  | uint64 => 18446744073709551615

def Holds (k : IntegerKind) (n : Int) : Prop := k.least ≤ n ∧ n ≤ k.greatest

instance (k : IntegerKind) (n : Int) : Decidable (k.Holds n) :=
  inferInstanceAs (Decidable (_ ∧ _))

theorem holds_zero (k : IntegerKind) : k.Holds 0 := by cases k <;> decide

end IntegerKind

/-- An integer that the kind `k` holds. -/
structure Integer (k : IntegerKind) where
  val : Int
  holds : k.Holds val
  deriving DecidableEq

namespace Integer

variable {k : IntegerKind}

/-- The number as a member of the kind, none when the kind does not hold it. -/
def ofInt? (k : IntegerKind) (n : Int) : Option (Integer k) :=
  if h : k.Holds n then some ⟨n, h⟩ else none

/-- Zero, which every kind holds. -/
def zero (k : IntegerKind) : Integer k := ⟨0, k.holds_zero⟩

@[simp] theorem ofInt?_val (x : Integer k) : ofInt? k x.val = some x := by
  simp [ofInt?, x.holds]

theorem ofInt?_eq_some_iff {n : Int} {x : Integer k} : ofInt? k n = some x ↔ x.val = n := by
  constructor
  · intro h
    unfold ofInt? at h
    split at h
    · cases h
      rfl
    · cases h
  · rintro rfl
    exact ofInt?_val x

theorem ofInt?_eq_none_iff {n : Int} : ofInt? k n = none ↔ ¬ k.Holds n := by
  simp [ofInt?]

end Integer

end SqlMapper
