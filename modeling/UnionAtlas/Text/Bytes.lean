/-!
# Byte strings

Names, paths and file contents are arbitrary byte strings: nothing here asks that they be valid
UTF-8. This module holds the type, its literals, and the few list operations on it that every other
module uses: splitting, joining, padding, number text and order.
-/

namespace UnionAtlas

/-- A text as the bytes that stand in a file. -/
abbrev Bytes := List UInt8

/-- The UTF-8 bytes of a literal. -/
def text (s : String) : Bytes :=
  s.toList.flatMap String.utf8EncodeChar

namespace Bytes

/-- The byte of an ASCII character. -/
def ascii (c : Char) : UInt8 :=
  c.toNat.toUInt8

/-- The decimal digits of a number, most significant first, without leading zeros. -/
def decimal (n : Nat) : Bytes :=
  (Nat.toDigits 10 n).map ascii

/-- A signed number: a minus sign stands before the digits of a negative one. -/
def signed : Int → Bytes
  | .ofNat n => decimal n
  | .negSucc n => ascii '-' :: decimal (n + 1)

/-- The words used for a truth value. -/
def truth (b : Bool) : Bytes :=
  if b then text "true" else text "false"

/-- The lower-case hexadecimal digit of a number below sixteen. -/
def hexDigit (n : Nat) : UInt8 :=
  if n < 10 then (48 + n).toUInt8 else (87 + n).toUInt8

/-- Two lower-case hexadecimal digits per byte. -/
def hex (bs : Bytes) : Bytes :=
  bs.flatMap fun b => [hexDigit (b.toNat / 16), hexDigit (b.toNat % 16)]

/-- Exactly `width` lower-case hexadecimal digits, the most significant first. -/
def hexPadded : Nat → Nat → Bytes
  | 0, _ => []
  | width + 1, n => hexPadded width (n / 16) ++ [hexDigit (n % 16)]

/-- The value of a hexadecimal digit in either case. -/
def hexValue? (b : UInt8) : Option Nat :=
  let n := b.toNat
  if 48 ≤ n ∧ n ≤ 57 then some (n - 48)
  else if 97 ≤ n ∧ n ≤ 102 then some (n - 87)
  else if 65 ≤ n ∧ n ≤ 70 then some (n - 55)
  else none

/-- Is the byte an ASCII decimal digit? -/
def isDigit (b : UInt8) : Bool :=
  48 ≤ b && b ≤ 57

/-- The value of a run of decimal digits. -/
def digitsValue (bs : Bytes) : Nat :=
  bs.foldl (fun n b => n * 10 + (b.toNat - 48)) 0

/-- Spaces in front, up to the given number of bytes. -/
def padLeft (width : Nat) (bs : Bytes) : Bytes :=
  List.replicate (width - bs.length) 32 ++ bs

/-- Spaces behind, up to the given number of bytes. -/
def padRight (width : Nat) (bs : Bytes) : Bytes :=
  bs ++ List.replicate (width - bs.length) 32

/-- Cuts a list at every element that satisfies the test; the elements cut at are dropped and empty
pieces are kept, so there is one piece more than there are cuts. -/
def splitWhen {α : Type} (cut : α → Bool) : List α → List (List α)
  | [] => [[]]
  | a :: rest =>
    if cut a then [] :: splitWhen cut rest
    else
      match splitWhen cut rest with
      | [] => [[a]]
      | piece :: pieces => (a :: piece) :: pieces

/-- The pieces between the occurrences of a separator byte. -/
def split (sep : UInt8) (bs : Bytes) : List Bytes :=
  splitWhen (· == sep) bs

/-- The pieces with a separator between each two. -/
def join (sep : Bytes) : List Bytes → Bytes
  | [] => []
  | [piece] => piece
  | piece :: pieces => piece ++ sep ++ join sep pieces

/-- There is always at least one piece. -/
theorem splitWhen_ne_nil {α : Type} (cut : α → Bool) (l : List α) : splitWhen cut l ≠ [] := by
  cases l with
  | nil => simp [splitWhen]
  | cons a rest =>
    rw [splitWhen]
    split
    · simp
    · split <;> simp

/-- Joining the pieces gives back what was cut. -/
theorem join_split (sep : UInt8) (bs : Bytes) : join [sep] (split sep bs) = bs := by
  unfold split
  induction bs with
  | nil => rfl
  | cons b rest ih =>
    have hne := splitWhen_ne_nil (· == sep) rest
    rw [splitWhen]
    cases hs : splitWhen (· == sep) rest with
    | nil => exact absurd hs hne
    | cons piece pieces =>
      rw [hs] at ih
      by_cases h : b == sep
      · rw [if_pos h]
        have hb : b = sep := by simpa using h
        simp only [join, ih, hb, List.nil_append, List.cons_append]
      · rw [if_neg h]
        cases pieces with
        | nil => simpa [join] using ih
        | cons _ _ => simpa [join] using ih

/-- What stands before and after the first occurrence of a byte. -/
def cut? (sep : UInt8) : Bytes → Option (Bytes × Bytes)
  | [] => none
  | b :: rest =>
    if b == sep then some ([], rest)
    else (cut? sep rest).map fun (before, after) => (b :: before, after)

/-- What stands after the last occurrence of a byte: everything, when the byte is absent. -/
def afterLast (sep : UInt8) (bs : Bytes) : Bytes :=
  (bs.reverse.takeWhile (· != sep)).reverse

/-- The order of byte strings: the first differing byte decides, and a beginning comes before what
continues it. -/
def le : Bytes → Bytes → Bool
  | [], _ => true
  | _ :: _, [] => false
  | a :: as, b :: bs => a < b || (a == b && le as bs)

/-- The low bytes of a number, most significant first. -/
def bigEndian : Nat → Nat → Bytes
  | 0, _ => []
  | width + 1, n => bigEndian width (n / 256) ++ [n.toUInt8]

/-- The number whose bytes are given, most significant first. -/
def ofBigEndian (bs : Bytes) : Nat :=
  bs.foldl (fun n b => n * 256 + b.toNat) 0

end Bytes

end UnionAtlas
