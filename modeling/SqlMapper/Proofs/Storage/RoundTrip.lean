import SqlMapper.Proofs.Calendar.Rfc3339
import SqlMapper.Proofs.Number.Decimal
import SqlMapper.Proofs.Result
import SqlMapper.Proofs.Text.Utf8
import SqlMapper.Proofs.Value.Uuid
import SqlMapper.Storage.Cell
import SqlMapper.Value.Coercion

/-! Values that are stored and read back. Numbers, bytes and texts have a storage class of their own,
all other values go through a text; the coercion into their type undoes it. -/
namespace SqlMapper

/-! ### Texts -/

namespace Ty

variable {t : Ty} {s : String}

theorem parse_eq_ok {read : String → Except ε α} {a : α} (hTrim : Text.trim s = s)
    (hRead : read s = .ok a) (wrap : ε → ReadingError) : parse t wrap read s = .ok a := by
  rw [parse, hTrim, hRead]

theorem parseLayout_eq_ok {read : String → Option α} {a : α} (hTrim : Text.trim s = s)
    (hRead : read s = some a) : parseLayout t read s = .ok a := by
  rw [parseLayout, hTrim, hRead]

/-- A stored decimal is read back. -/
theorem toDecimal_text (d : Decimal) : toDecimal (.text (some d.text)) = .ok d.asRead := by
  rw [toDecimal]
  exact parse_eq_ok (Text.trim_of_solid d.solid_text) d.read_text _

/-- A stored date is read back. -/
theorem toDate_text (d : Date) : toDate (.text (some d.text)) = .ok d := by
  rw [toDate]
  exact parseLayout_eq_ok (Text.trim_of_solid d.solid_text) d.read?_text

/-- A stored time is read back. -/
theorem toTime_text (t : Time) : toTime (.text (some t.text)) = .ok t := by
  rw [toTime]
  exact parseLayout_eq_ok (Text.trim_of_solid t.solid_text) t.read?_text

/-- A stored timestamp is read back. -/
theorem toTimestamp_text (t : Timestamp) : toTimestamp (.text (some t.text)) = .ok t := by
  rw [toTimestamp]
  exact parseLayout_eq_ok t.trim_text t.read?_text

/-- A stored zoned timestamp is read back. -/
theorem toZoned_text {z : Zoned} (h : z.rfc3339 = .ok s) : toZoned (.text (some s)) = .ok z := by
  rw [toZoned]
  exact parse_eq_ok (Zoned.trim_rfc3339 h) (Zoned.readRfc3339_rfc3339 h) _

/-- A stored UUID is read back. -/
theorem toUuid_text (u : Uuid) : toUuid (.text (some u.text)) = .ok u := by
  rw [toUuid]
  exact parse_eq_ok (Text.trim_of_solid u.solid_text) u.read_text _

end Ty

/-! ### Cells -/

namespace Storage.Cell

/-- A text comes out of storage as it went in. -/
theorem toValue_ofText (s : String) : (ofText s).toValue = .ok (.text (some s)) := by
  rw [ofText, toValue, Text.decodeUtf8_encodeUtf8]
  rfl

/-- An integer is stored as it is or not at all. -/
theorem ofInteger_eq_ok {n : Int} {c : Cell} (h : ofInteger n = .ok c) :
    ∃ i : Integer .int64, c = .integer i ∧ i.val = n := by
  rw [ofInteger] at h
  cases hInt : Integer.ofInt? .int64 n with
  | none => simp [hInt] at h
  | some i =>
      rw [hInt] at h
      exact ⟨i, (Except.ok.inj h).symm, Integer.ofInt?_eq_some_iff.mp hInt⟩

theorem ofZoned_eq_ok {z : Zoned} {c : Cell} (h : ofValue (.zoned (some z)) = .ok c) :
    ∃ s, z.rfc3339 = .ok s ∧ c = ofText s := by
  rw [ofValue] at h
  cases hText : z.rfc3339 with
  | error e =>
      rw [hText] at h
      contradiction
  | ok s =>
      rw [hText] at h
      exact ⟨s, rfl, (Except.ok.inj h).symm⟩

/-- The value that is read of the storage form of a value, NULL where there is none. -/
def reread (v : Value) : Value := ((ofValue v).bind toValue).toOption.getD .null

theorem exists_of_mapAll {α β : Type} {step : α → Except Fault β} {as : List α} {bs : List β}
    (h : mapAll step as = .ok bs) : ∀ a ∈ as, ∃ b, step a = .ok b := by
  induction as generalizing bs with
  | nil => simp
  | cons a as ih =>
      obtain ⟨b, hStep, hBind⟩ := Result.bind_eq_ok_iff.mp h
      obtain ⟨bs, hRest, -⟩ := Result.bind_eq_ok_iff.mp hBind
      rw [List.forall_mem_cons]
      exact ⟨⟨b, hStep⟩, ih hRest⟩

end Storage.Cell

/-! ### Values -/

namespace Ty

open Storage (Cell)

/-- An integer is read back whatever kind it was stored as. -/
theorem toInteger_of_val {k l : IntegerKind} {n : Integer k} {i : Integer l} (h : i.val = n.val) :
    toInteger k (.integer l (some i)) = .ok n := by
  rw [toInteger, h, Integer.ofInt?_val]
  rfl

/-- A boolean stored as an integer is read back. -/
theorem toBoolean_of_val {l : IntegerKind} {b : Bool} {i : Integer l}
    (h : i.val = if b then 1 else 0) : toBoolean (.integer l (some i)) = .ok b := by
  rw [toBoolean, h]
  cases b <;> rfl

/-- The base types that are stored without loss. -/
inductive Plain : Ty → Prop
  | boolean : Plain boolean
  | integer (k : IntegerKind) : Plain (integer k)
  | decimal : Plain decimal
  | text : Plain text
  | blob : Plain blob
  | date : Plain date
  | time : Plain time
  | timestamp : Plain timestamp
  | zoned : Plain zoned
  | uuid : Plain uuid

/-- The types that are stored without loss: the plain ones, whose values may be missing. -/
inductive Storable : Ty → Prop
  | plain {t : Ty} (h : Plain t) : Storable t
  | option {t : Ty} (h : Plain t) : Storable (option t)

/-- Both are the same value. Decimals may differ in the sign of a zero, not in the scale. -/
def Kept : (t : Ty) → t.Carrier → t.Carrier → Prop
  | decimal, x, y => Decimal.same x y = true ∧ Decimal.scale x = Decimal.scale y
  | option t, x, y => Option.Rel t.Kept x y
  | boolean, x, y | integer _, x, y | float _, x, y | text, x, y | blob, x, y | date, x, y
  | time, x, y | timestamp, x, y | zoned, x, y | uuid, x, y | vec _, x, y => x = y

variable {t : Ty} {x : t.Carrier} {c : Cell}

/-- What is stored as a text comes back if the text is read as the value. -/
theorem exists_kept_of_text {s : String} {y : t.Carrier}
    (hRead : t.ofValue (.text (some s)) = .ok y) (hKept : t.Kept x y) :
    ∃ v y, (Cell.ofText s).toValue = .ok v ∧ v.isNull = false ∧ t.ofValue v = .ok y ∧ t.Kept x y :=
  ⟨_, y, Cell.toValue_ofText s, rfl, hRead, hKept⟩

/-- A value that is stored comes back. No plain value is stored as NULL. -/
theorem Plain.exists_kept (h : Plain t) (hCell : Cell.ofValue (t.toValue x) = .ok c) :
    ∃ v y, c.toValue = .ok v ∧ v.isNull = false ∧ t.ofValue v = .ok y ∧ t.Kept x y := by
  cases h with
  | boolean =>
      obtain ⟨i, rfl, hVal⟩ := Cell.ofInteger_eq_ok hCell
      exact ⟨_, x, rfl, rfl, toBoolean_of_val hVal, rfl⟩
  | integer k =>
      obtain ⟨i, rfl, hVal⟩ := Cell.ofInteger_eq_ok hCell
      exact ⟨_, x, rfl, rfl, toInteger_of_val hVal, rfl⟩
  | decimal =>
      obtain rfl := Except.ok.inj hCell
      exact exists_kept_of_text (toDecimal_text x) ⟨Decimal.same_asRead x, rfl⟩
  | text =>
      obtain rfl := Except.ok.inj hCell
      exact exists_kept_of_text rfl rfl
  | blob =>
      obtain rfl := Except.ok.inj hCell
      exact ⟨_, x, rfl, rfl, rfl, rfl⟩
  | date =>
      obtain rfl := Except.ok.inj hCell
      exact exists_kept_of_text (toDate_text x) rfl
  | time =>
      obtain rfl := Except.ok.inj hCell
      exact exists_kept_of_text (toTime_text x) rfl
  | timestamp =>
      obtain rfl := Except.ok.inj hCell
      exact exists_kept_of_text (toTimestamp_text x) rfl
  | zoned =>
      obtain ⟨s, hText, rfl⟩ := Cell.ofZoned_eq_ok hCell
      exact exists_kept_of_text (toZoned_text hText) rfl
  | uuid =>
      obtain rfl := Except.ok.inj hCell
      exact exists_kept_of_text (toUuid_text x) rfl

theorem Plain.ofValue_null (h : Plain t) : Cell.ofValue t.null = .ok .null := by
  cases h <;> rfl

/-- What was stored comes out and is read as what is kept of it. -/
theorem Storable.exists_kept (h : Storable t) (hCell : Cell.ofValue (t.toValue x) = .ok c) :
    ∃ v y, c.toValue = .ok v ∧ t.ofValue v = .ok y ∧ t.Kept x y := by
  cases h with
  | plain hPlain =>
      obtain ⟨v, y, hValue, -, hRead, hKept⟩ := hPlain.exists_kept hCell
      exact ⟨v, y, hValue, hRead, hKept⟩
  | @option t hPlain =>
      cases x with
      | none =>
          obtain rfl := Except.ok.inj (hPlain.ofValue_null.symm.trans hCell)
          exact ⟨.null, none, rfl, rfl, .none⟩
      | some a =>
          obtain ⟨v, y, hValue, hSome, hRead, hKept⟩ := hPlain.exists_kept hCell
          have hOption : t.option.ofValue v = if v.isNull then .ok none else (t.ofValue v).map some :=
            rfl
          refine ⟨v, some y, hValue, ?_, .some hKept⟩
          rw [hOption, hSome, hRead]
          rfl

/-- Reading a stored value again gives what is kept of it. -/
theorem Storable.ofValue_reread (h : Storable t) (hCell : Cell.ofValue (t.toValue x) = .ok c) :
    ∃ y, t.ofValue (Cell.reread (t.toValue x)) = .ok y ∧ t.Kept x y := by
  obtain ⟨v, y, hValue, hRead, hKept⟩ := h.exists_kept hCell
  have hReread : Cell.reread (t.toValue x) = v := by
    rw [Cell.reread, hCell, Except.bind, hValue]
    rfl
  exact ⟨y, hReread ▸ hRead, hKept⟩

/-- Storage loses nothing: a value that has a storage form is read back from it, and an unsigned
integer that the storage class of integers does not have is refused. -/
theorem kept_or_refused :
    (∀ t : Ty, t.Storable → ∀ (x : t.Carrier) (c : Cell), Cell.ofValue (t.toValue x) = .ok c →
      ∃ v y, c.toValue = .ok v ∧ t.ofValue v = .ok y ∧ t.Kept x y) ∧
    ∀ n : Integer .uint64, IntegerKind.int64.greatest < n.val →
      Cell.ofValue (toValue (.integer .uint64) n) = .error (.integerStorage n.val) := by
  constructor
  · intro t hStorable x c hCell
    exact hStorable.exists_kept hCell
  · intro n hBeyond
    have hNone : Integer.ofInt? .int64 n.val = none := by
      rw [Integer.ofInt?_eq_none_iff]
      rintro ⟨-, hFits⟩
      omega
    change Cell.ofInteger n.val = _
    rw [Cell.ofInteger, hNone]
    rfl

/-- A missing date, a zero with a sign and two places, and the first number beyond the storage
class. -/
theorem kept_or_refused_signedZero :
    let zero : Decimal := ⟨true, 0, 2, by decide, by decide⟩
    let beyond : Integer .uint64 := ⟨9223372036854775808, by decide⟩
    (∃ v y, Cell.toValue .null = .ok v ∧ ofValue (.option .date) v = .ok y ∧
      Kept (.option .date) none y) ∧
    (∃ v y, (Cell.ofText "-0.00").toValue = .ok v ∧ ofValue .decimal v = .ok y ∧
      Kept .decimal zero y) ∧
    Cell.ofValue (toValue (.integer .uint64) beyond) = .error (.integerStorage beyond.val) := by
  intro zero beyond
  have hCell : Cell.ofValue (toValue .decimal zero) = .ok (Cell.ofText "-0.00") := by
    have hText : zero.text = "-0.00" := by decide
    rw [← hText]
    rfl
  refine ⟨?_, ?_, ?_⟩
  · exact kept_or_refused.1 (.option .date) (.option .date) none .null rfl
  · exact kept_or_refused.1 .decimal (.plain .decimal) zero _ hCell
  · exact kept_or_refused.2 beyond (by decide)

end Ty

end SqlMapper
