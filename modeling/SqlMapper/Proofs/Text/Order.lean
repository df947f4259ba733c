import SqlMapper.Proofs.Text.Utf8

/-! Texts in byte order. Texts are compared from left to right, one before all that continue it.
Where a text has only characters of one byte, it makes no difference whether characters or bytes are
compared. -/
namespace SqlMapper.Text

/-- Two outcomes of comparisons are the same if they are less in the same cases, and greater. -/
theorem ordering_eq {o p : Ordering} (hLess : o = .lt ↔ p = .lt) (hGreater : o = .gt ↔ p = .gt) :
    o = p := by
  cases o <;> cases p <;> simp_all

/-- Beginnings of one length decide first. -/
theorem compare_append {α : Type} [Ord α] {as bs : List α} (h : as.length = bs.length)
    (cs ds : List α) : compare (as ++ cs) (bs ++ ds) = (compare as bs).then (compare cs ds) := by
  induction as generalizing bs with
  | nil =>
      obtain rfl := List.eq_nil_of_length_eq_zero h.symm
      rfl
  | cons a as ih =>
      cases bs with
      | nil => simp at h
      | cons b bs =>
          rw [List.cons_append, List.cons_append, List.compare_cons_cons, List.compare_cons_cons,
            ih (Nat.succ.inj h), Ordering.then_assoc]

theorem compare_cons_self {α : Type} [Ord α] [Std.ReflOrd α] (a : α) (cs ds : List α) :
    compare (a :: cs) (a :: ds) = compare cs ds := by
  rw [List.compare_cons_cons, Std.compare_self, Ordering.eq_then]

/-- The characters are encoded in one byte each. -/
def Ascii (cs : List Char) : Prop := ∀ c ∈ cs, c.toNat < 128

theorem Ascii.append {cs ds : List Char} (hc : Ascii cs) (hd : Ascii ds) : Ascii (cs ++ ds) :=
  List.forall_mem_append.mpr ⟨hc, hd⟩

theorem Ascii.cons {c : Char} {cs : List Char} (hc : c.toNat < 128) (h : Ascii cs) :
    Ascii (c :: cs) :=
  List.forall_mem_cons.mpr ⟨hc, h⟩

theorem ascii_nil : Ascii [] := by simp [Ascii]

/-- Characters compare as their codes. -/
theorem compare_toNat (c d : Char) : compare c d = compare c.toNat d.toNat := by
  have hLess : c < d ↔ c.toNat < d.toNat := Iff.rfl
  change compareOfLessAndEq c d = compareOfLessAndEq c.toNat d.toNat
  simp only [compareOfLessAndEq, hLess, Char.toNat_inj]

theorem utf8EncodeChar_of_lt {c : Char} (h : c.toNat < 128) :
    String.utf8EncodeChar c = [UInt8.ofNat c.toNat] := by
  have hVal : c.val.toNat = c.toNat := rfl
  rw [String.utf8EncodeChar, hVal]
  exact if_pos (Nat.le_of_lt_succ h)

/-- The bytes of plain characters compare as the characters. -/
theorem compare_byte {c d : Char} (hc : c.toNat < 128) (hd : d.toNat < 128) :
    compare (UInt8.ofNat c.toNat) (UInt8.ofNat d.toNat) = compare c d := by
  rw [compare_toNat]
  apply ordering_eq
  · rw [Std.compare_eq_lt, Nat.compare_eq_lt, UInt8.lt_iff_toNat_lt,
      toNat_ofNat_byte (by omega), toNat_ofNat_byte (by omega)]
  · rw [Std.compare_eq_gt, Nat.compare_eq_gt, UInt8.lt_iff_toNat_lt,
      toNat_ofNat_byte (by omega), toNat_ofNat_byte (by omega)]

/-- A plain text is encoded character by character. -/
theorem encodeUtf8_of_ascii {s : String} (h : Ascii s.toList) :
    encodeUtf8 s = s.toList.map fun c => UInt8.ofNat c.toNat := by
  rw [encodeUtf8_eq, List.map_eq_flatMap]
  exact List.flatMap_congr fun c hc => utf8EncodeChar_of_lt (h c hc)

/-- The bytes of ASCII texts are in the order of the characters. -/
theorem compare_encodeUtf8 {s t : String} (hs : Ascii s.toList) (ht : Ascii t.toList) :
    compare (encodeUtf8 s) (encodeUtf8 t) = compare s.toList t.toList := by
  rw [encodeUtf8_of_ascii hs, encodeUtf8_of_ascii ht]
  generalize s.toList = cs at hs
  generalize t.toList = ds at ht
  induction cs generalizing ds with
  | nil => cases ds <;> rfl
  | cons c cs ih =>
      cases ds with
      | nil => rfl
      | cons d ds =>
          simp only [Ascii, List.forall_mem_cons] at hs ht
          rw [List.map_cons, List.map_cons, List.compare_cons_cons, List.compare_cons_cons,
            compare_byte hs.1 ht.1, ih hs.2 ds ht.2]

end SqlMapper.Text
