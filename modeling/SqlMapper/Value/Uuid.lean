import SqlMapper.Number.Power
import SqlMapper.Text.Hex

/-!
# Universally unique identifiers

An identifier of 128 bits. It is written in groups of 8, 4, 4, 4 and 12 lower case digits, and read
from that form, from the 32 digits alone, between braces, or after `urn:uuid:` in any letter case.
-/

namespace SqlMapper

/-- An identifier of 128 bits. -/
structure Uuid where
  value : Nat
  value_lt : value < twoTo 128
  deriving DecidableEq

/-- Why a text or a run of bytes is not an identifier. -/
inductive UuidError where
  /-- A character that is neither a digit nor a hyphen, after `place` bytes. -/
  | character (c : Char) (place : Nat)
  /-- No form without hyphens, or no form at all, has this count of bytes. -/
  | length (n : Nat)
  | groupCount (n : Nat)
  | groupLength (group expected n : Nat)
  | byteCount (n : Nat)
  deriving DecidableEq, Repr

namespace UuidError

def message : UuidError → String
  | character c place =>
    "invalid character: found `" ++ c.toString ++ "` at " ++ toString place
  | length n => "invalid length: found " ++ toString n
  | groupCount n => "invalid group count: expected 5, found " ++ toString n
  | groupLength group expected n =>
    "invalid group length in group " ++ toString group ++ ": expected " ++ toString expected ++
      ", found " ++ toString n
  | byteCount n => "invalid length: expected 16 bytes, found " ++ toString n

end UuidError

namespace Uuid

/-- The identifier with this number, none when it has more than 128 bits. -/
def ofNat? (n : Nat) : Option Uuid := if h : n < twoTo 128 then some ⟨n, h⟩ else none

/-- The identifier whose bits are all zero. -/
def zero : Uuid := ⟨0, by decide⟩

/-- Digits per group. -/
def groupLengths : List Nat := [8, 4, 4, 4, 12]

/-- Cuts a list into runs of the given lengths. -/
def cut : (lengths : List Nat) → List Char → List (List Char)
  | [], _ => []
  | n :: lengths, cs => cs.take n :: cut lengths (cs.drop n)

/-- Runs of characters joined by hyphens. -/
def hyphenated : List (List Char) → List Char
  | [] => []
  | [run] => run
  | run :: runs => run ++ '-' :: hyphenated runs

/-- The runs between hyphens. -/
def groups : List Char → List (List Char)
  | [] => [[]]
  | c :: cs =>
    match groups cs with
    | [] => [[c]]
    | run :: runs => if c = '-' then [] :: run :: runs else (c :: run) :: runs

def text (u : Uuid) : String :=
  String.ofList (hyphenated (cut groupLengths (Text.hexDigits 32 u.value)))

def ofDigits? (cs : List Char) : Option Uuid :=
  if cs.length = 32 then (Text.readHex? cs).bind ofNat? else none

/-- The identifier behind five hyphenated groups of the right lengths. -/
def ofGroups? (cs : List Char) : Option Uuid :=
  let runs := groups cs
  if runs.map List.length = groupLengths then ofDigits? runs.flatten else none

/-- The mark before an identifier in a name, in lower case. -/
def urnMark : List Char := "urn:uuid:".toList

def byteCount (cs : List Char) : Nat := (String.ofList cs).utf8ByteSize

/-- The text without the braces or the mark of a name around it. They are taken off only where they
leave the bytes of the hyphenated form. -/
def bare (cs : List Char) : List Char :=
  if byteCount cs = 38 ∧ cs.head? = some '\x7b' ∧ cs.getLast? = some '\x7d' then (cs.drop 1).dropLast
  else if byteCount cs = 45 ∧ (cs.take urnMark.length).map Char.toLower = urnMark then
    cs.drop urnMark.length
  else cs

/-- The first character that is neither a digit nor a hyphen, with the bytes before it. -/
def strangeCharacter? (place : Nat) : List Char → Option (Char × Nat)
  | [] => none
  | c :: cs =>
    if c = '-' ∨ (Text.hexValue? c).isSome then strangeCharacter? (place + c.utf8Size) cs
    else some (c, place)

/-- The first group, counted from `i`, whose length is not the expected one. -/
def strangeGroup? (i : Nat) : (expected lengths : List Nat) → Option (Nat × Nat × Nat)
  | e :: expected, n :: lengths =>
    if e = n then strangeGroup? (i + 1) expected lengths else some (i, e, n)
  | _, _ => none

/-- The bytes of the longest form, the one after the mark of a name. -/
def longestForm : Nat := 45

/-- What is wrong with a bare text that is not an identifier. A text longer than every form is not
looked into. -/
def fault (cs : List Char) : UuidError :=
  if longestForm < byteCount cs then .length (byteCount cs)
  else
    match strangeCharacter? 0 cs with
    | some (c, place) => .character c place
    | none =>
      let lengths := (groups cs).map List.length
      if lengths.length = 1 then .length (byteCount cs)
      else if lengths.length ≠ 5 then .groupCount lengths.length
      else
        match strangeGroup? 0 (groupLengths.take 4) (lengths.take 4) with
        | some (group, expected, n) => .groupLength group expected n
        | none => .groupLength 4 12 (byteCount cs - 24)

/-- The identifier that a text denotes. -/
def read (s : String) : Except UuidError Uuid :=
  let cs := bare s.toList
  ((ofDigits? cs).orElse fun _ => ofGroups? cs).elim (.error (fault cs)) .ok

/-- The identifier with these bytes, most significant first. -/
def ofBytes (bytes : List UInt8) : Except UuidError Uuid :=
  if bytes.length = 16 then
    (ofNat? (bytes.foldl (fun n b => 256 * n + b.toNat) 0)).elim (.error (.byteCount 16)) .ok
  else .error (.byteCount bytes.length)

end Uuid

end SqlMapper
