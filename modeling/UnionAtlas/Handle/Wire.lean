import UnionAtlas.Text.Bytes

/-!
# The wire format of handles

Handles are stored as MessagePack maps. The reader takes any width for a number and any kind of
string, an absent value for zero or for the empty string, and passes over values it does not know.
Every reader returns what it read and the bytes after it, or nothing if the bytes are no such value.
-/

namespace UnionAtlas
namespace Wire

/-- Reads a fixed number of bytes. -/
def take? (n : Nat) (bs : Bytes) : Option (Bytes × Bytes) :=
  if n ≤ bs.length then some (bs.take n, bs.drop n) else none

/-- Reads a big-endian number of `n` bytes. -/
def number? (n : Nat) (bs : Bytes) : Option (Nat × Bytes) :=
  (take? n bs).map fun (front, rest) => (Bytes.ofBigEndian front, rest)

/-- A number of `n` bytes with its sign, as a sixty-four bit word. -/
def signExtend (n : Nat) (v : Nat) : UInt64 :=
  if v < Nat.pow 2 (8 * n - 1) then v.toUInt64 else v.toUInt64 - (Nat.pow 2 (8 * n)).toUInt64

/-- The length after the first byte of a string or of raw bytes; an absent value has none. -/
def stringLength? (code : UInt8) (bs : Bytes) : Option (Nat × Bytes) :=
  if code == 0xC0 then some (0, bs)
  else if 0xA0 ≤ code && code ≤ 0xBF then some (code.toNat - 0xA0, bs)
  else if code == 0xD9 || code == 0xC4 then number? 1 bs
  else if code == 0xDA || code == 0xC5 then number? 2 bs
  else if code == 0xDB || code == 0xC6 then number? 4 bs
  else none

/-- Reads a string, raw bytes, or an absent value. -/
def string? : Bytes → Option (Bytes × Bytes)
  | [] => none
  | code :: rest =>
    match stringLength? code rest with
    | some (n, rest) => take? n rest
    | none => none

/-- Reads an integer of any width as a sixty-four bit word; an absent value is zero. -/
def word? : Bytes → Option (UInt64 × Bytes)
  | [] => none
  | code :: rest =>
    let unsigned (n : Nat) := (number? n rest).map fun (v, rest) => (v.toUInt64, rest)
    let signed (n : Nat) := (number? n rest).map fun (v, rest) => (signExtend n v, rest)
    if code == 0xC0 then some (0, rest)
    else if code < 0x80 then some (code.toUInt64, rest)
    else if 0xE0 ≤ code then some (signExtend 1 code.toNat, rest)
    else if code == 0xCC then unsigned 1
    else if code == 0xCD then unsigned 2
    else if code == 0xCE then unsigned 4
    else if code == 0xCF || code == 0xD3 then unsigned 8
    else if code == 0xD0 then signed 1
    else if code == 0xD1 then signed 2
    else if code == 0xD2 then signed 4
    else none

/-- The number of entries after the first byte of a map. -/
def mapLength? (code : UInt8) (bs : Bytes) : Option (Nat × Bytes) :=
  if 0x80 ≤ code && code ≤ 0x8F then some (code.toNat - 0x80, bs)
  else if code == 0xDE then number? 2 bs
  else if code == 0xDF then number? 4 bs
  else none

/-- The number of values after the first byte of an array. -/
def arrayLength? (code : UInt8) (bs : Bytes) : Option (Nat × Bytes) :=
  if 0x90 ≤ code && code ≤ 0x9F then some (code.toNat - 0x90, bs)
  else if code == 0xDC then number? 2 bs
  else if code == 0xDD then number? 4 bs
  else none

/-- What comes after the first byte of a value: a number of bytes and then a number of values. -/
structure Body where
  bytes : Nat
  values : Nat

/-- The body of the value with the given first byte, and what is left after its lengths. -/
def body? (code : UInt8) (bs : Bytes) : Option (Body × Bytes) :=
  let raw (n : Nat) : Option (Body × Bytes) := some (⟨n, 0⟩, bs)
  let counted (width kind : Nat) : Option (Body × Bytes) :=
    (number? width bs).map fun (n, rest) => (⟨n + kind, 0⟩, rest)
  if code < 0x80 || 0xE0 ≤ code then raw 0
  else if code == 0xC0 || code == 0xC2 || code == 0xC3 then raw 0
  else if code == 0xCC || code == 0xD0 then raw 1
  else if code == 0xCD || code == 0xD1 then raw 2
  else if code == 0xCE || code == 0xD2 || code == 0xCA then raw 4
  else if code == 0xCF || code == 0xD3 || code == 0xCB then raw 8
  else if code == 0xD4 then raw 2
  else if code == 0xD5 then raw 3
  else if code == 0xD6 then raw 5
  else if code == 0xD7 then raw 9
  else if code == 0xD8 then raw 17
  else if code == 0xC7 then counted 1 1
  else if code == 0xC8 then counted 2 1
  else if code == 0xC9 then counted 4 1
  else
    match stringLength? code bs with
    | some (n, rest) => some (⟨n, 0⟩, rest)
    | none =>
      match mapLength? code bs with
      | some (n, rest) => some (⟨0, 2 * n⟩, rest)
      | none => (arrayLength? code bs).map fun (n, rest) => (⟨0, n⟩, rest)

/-- Passes over a number of values, with one unit of `fuel` for each. Every value has at least one
byte, so the number of bytes is fuel enough. -/
def skipWithin : Nat → Nat → Bytes → Option Bytes
  | _, 0, bs => some bs
  | 0, _ + 1, _ => none
  | _ + 1, _ + 1, [] => none
  | fuel + 1, pending + 1, code :: rest =>
    match body? code rest with
    | none => none
    | some (body, rest) =>
      match take? body.bytes rest with
      | none => none
      | some (_, rest) => skipWithin fuel (pending + body.values) rest

/-- Passes over one value. -/
def skip? (bs : Bytes) : Option Bytes :=
  skipWithin bs.length 1 bs

/-- Writes a string with the shortest header. -/
def putString (s : Bytes) : Bytes :=
  let n := s.length
  if n < 32 then (0xA0 + n).toUInt8 :: s
  else if n < 256 then 0xD9 :: Bytes.bigEndian 1 n ++ s
  else if n < 65536 then 0xDA :: Bytes.bigEndian 2 n ++ s
  else 0xDB :: Bytes.bigEndian 4 n ++ s

/-- Writes a number of one byte. -/
def putByte (n : Nat) : Bytes :=
  0xCC :: Bytes.bigEndian 1 n

/-- Writes a number of two bytes. -/
def putShort (n : Nat) : Bytes :=
  0xCD :: Bytes.bigEndian 2 n

end Wire
end UnionAtlas
