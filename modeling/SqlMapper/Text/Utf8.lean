/-!
# Reading UTF-8

Bytes that come from outside are read as text or refused with the place and the kind of the first
fault. A fault is a byte that no well-formed sequence has at that place, or an end of input inside
a sequence.
-/

namespace SqlMapper.Text

/-- Why bytes are not UTF-8. The index is that of the first byte of the faulty sequence. -/
inductive Utf8Error where
  /-- The `length` bytes from `index` on begin no well-formed sequence. -/
  | invalid (length index : Nat)
  /-- The input ends inside the sequence that starts at `index`. -/
  | incomplete (index : Nat)
  deriving DecidableEq, Repr

/-- A closed range of byte values. -/
structure ByteRange where
  low : Nat
  high : Nat
  deriving DecidableEq, Repr

/-- What a byte in the first place of a sequence says: the bits it contributes and the ranges of
the bytes that must follow. -/
structure Lead where
  bits : Nat
  following : List ByteRange
  deriving DecidableEq, Repr

/-- Any continuation byte. -/
def continuation : ByteRange := ⟨0x80, 0xBF⟩

/-- The reading of a first byte; none begins no sequence. The second byte is narrowed where the
full range would admit overlong forms, surrogates or numbers above the last code point. -/
def lead? (byte : Nat) : Option Lead :=
  if byte < 0x80 then some ⟨byte, []⟩
  else if byte < 0xC2 then none
  else if byte < 0xE0 then some ⟨byte % 0x20, [continuation]⟩
  else if byte = 0xE0 then some ⟨0, [⟨0xA0, 0xBF⟩, continuation]⟩
  else if byte = 0xED then some ⟨byte % 0x10, [⟨0x80, 0x9F⟩, continuation]⟩
  else if byte < 0xF0 then some ⟨byte % 0x10, [continuation, continuation]⟩
  else if byte = 0xF0 then some ⟨0, [⟨0x90, 0xBF⟩, continuation, continuation]⟩
  else if byte < 0xF4 then some ⟨byte % 8, [continuation, continuation, continuation]⟩
  else if byte = 0xF4 then some ⟨4, [⟨0x80, 0x8F⟩, continuation, continuation]⟩
  else none

/-- Reads on at `index`, inside the sequence that began at `start` when `awaited` is not empty. -/
def decodeFrom (index start : Nat) (awaited : List ByteRange) (value : Nat) :
    List UInt8 → Except Utf8Error (List Char)
  | [] => if awaited.isEmpty then .ok [] else .error (.incomplete start)
  | byte :: bytes =>
    match awaited with
    | [] =>
      match lead? byte.toNat with
      | none => .error (.invalid 1 index)
      | some ⟨bits, []⟩ =>
        (decodeFrom (index + 1) index [] 0 bytes).map (Char.ofNat bits :: ·)
      | some ⟨bits, next :: more⟩ => decodeFrom (index + 1) index (next :: more) bits bytes
    | range :: more =>
      if range.low ≤ byte.toNat ∧ byte.toNat ≤ range.high then
        let value := value * 64 + byte.toNat % 64
        match more with
        | [] => (decodeFrom (index + 1) start [] 0 bytes).map (Char.ofNat value :: ·)
        | next :: more => decodeFrom (index + 1) start (next :: more) value bytes
      else .error (.invalid (index - start) start)

def decodeUtf8 (bytes : List UInt8) : Except Utf8Error String :=
  (decodeFrom 0 0 [] 0 bytes).map String.ofList

def encodeUtf8 (s : String) : List UInt8 := s.toUTF8.data.toList

namespace Utf8Error

def message : Utf8Error → String
  | invalid length index =>
    "invalid utf-8 sequence of " ++ toString length ++ " bytes from index " ++ toString index
  | incomplete index => "incomplete utf-8 byte sequence from index " ++ toString index

end Utf8Error

end SqlMapper.Text
