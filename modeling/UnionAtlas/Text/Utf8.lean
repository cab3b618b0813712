import UnionAtlas.Text.Bytes

/-!
# Characters of a byte string

A byte string is read as a sequence of characters: each valid UTF-8 sequence is one, and every byte
that starts no valid sequence stands alone. Reading loses nothing: the raw bytes of the characters,
put one after the other, are the string again (`flatten_runes`).
-/

namespace UnionAtlas

/-- One character of a byte string with the bytes it was read from. -/
structure Rune where
  /-- The code point, absent for a byte that starts no valid sequence. -/
  scalar : Option Nat
  /-- The bytes it was read from, never empty. -/
  raw : Bytes
  deriving Repr, DecidableEq

/-- The code point that stands for a byte outside every valid sequence. -/
def replacement : Nat := 0xFFFD

namespace Rune

/-- The code point, with the replacement character for a stray byte. -/
def code (r : Rune) : Nat :=
  r.scalar.getD replacement

end Rune

namespace Utf8

/-- Is the byte of the form `10xxxxxx`? -/
def isContinuation (b : UInt8) : Bool :=
  0x80 ≤ b && b ≤ 0xBF

/-- The range of the second byte after a given first byte: it rules out overlong forms, surrogates
and code points above `10FFFF`. -/
def secondRange (first : UInt8) : UInt8 × UInt8 :=
  if first == 0xE0 then (0xA0, 0xBF)
  else if first == 0xED then (0x80, 0x9F)
  else if first == 0xF0 then (0x90, 0xBF)
  else if first == 0xF4 then (0x80, 0x8F)
  else (0x80, 0xBF)

/-- The low six bits of a continuation byte. -/
def payload (b : UInt8) : Nat :=
  b.toNat % 64

/-- The character at the front: its code point, if the bytes there are valid, and the number of
bytes that belong to it beyond the first. -/
def front (first : UInt8) (rest : Bytes) : Option Nat × Nat :=
  let second (b : UInt8) : Bool := (secondRange first).1 ≤ b && b ≤ (secondRange first).2
  if first < 0x80 then (some first.toNat, 0)
  else if 0xC2 ≤ first && first ≤ 0xDF then
    match rest with
    | b :: _ =>
      if isContinuation b then (some ((first.toNat - 0xC0) * 64 + payload b), 1) else (none, 0)
    | _ => (none, 0)
  else if 0xE0 ≤ first && first ≤ 0xEF then
    match rest with
    | b :: c :: _ =>
      if second b && isContinuation c then
        (some (((first.toNat - 0xE0) * 64 + payload b) * 64 + payload c), 2)
      else (none, 0)
    | _ => (none, 0)
  else if 0xF0 ≤ first && first ≤ 0xF4 then
    match rest with
    | b :: c :: d :: _ =>
      if second b && isContinuation c && isContinuation d then
        (some ((((first.toNat - 0xF0) * 64 + payload b) * 64 + payload c) * 64 + payload d), 3)
      else (none, 0)
    | _ => (none, 0)
  else (none, 0)

/-- The characters of a byte string, in order. -/
def runes : Bytes → List Rune
  | [] => []
  | b :: rest =>
    let extra := (front b rest).2
    ⟨(front b rest).1, b :: rest.take extra⟩ :: runes (rest.drop extra)
  termination_by bs => bs.length
  decreasing_by simp only [List.length_drop, List.length_cons]; omega

/-- The bytes of a sequence of characters. -/
def flatten (rs : List Rune) : Bytes :=
  rs.flatMap Rune.raw

/-- Reading loses nothing. -/
theorem flatten_runes (bs : Bytes) : flatten (runes bs) = bs := by
  fun_induction runes bs with
  | case1 => rfl
  | case2 b rest extra ih =>
    rw [flatten, List.flatMap_cons, ← flatten, ih]
    simp [extra]

/-- Is a number a code point that can be written: at most `10FFFF` and no surrogate? -/
def isScalar (n : Nat) : Bool :=
  n < 0xD800 || (0xDFFF < n && n ≤ 0x10FFFF)

/-- The bytes of a code point; a number that is none is written as the replacement character. -/
def encode (n : Nat) : Bytes :=
  let n := if isScalar n then n else replacement
  if n < 0x80 then [n.toUInt8]
  else if n < 0x800 then [(0xC0 + n / 64).toUInt8, (0x80 + n % 64).toUInt8]
  else if n < 0x10000 then
    [(0xE0 + n / 4096).toUInt8, (0x80 + n / 64 % 64).toUInt8, (0x80 + n % 64).toUInt8]
  else
    [(0xF0 + n / 262144).toUInt8, (0x80 + n / 4096 % 64).toUInt8, (0x80 + n / 64 % 64).toUInt8,
      (0x80 + n % 64).toUInt8]

/-- Is every byte part of a valid sequence? -/
def isValid (bs : Bytes) : Bool :=
  (runes bs).all fun r => r.scalar.isSome

end Utf8

end UnionAtlas
