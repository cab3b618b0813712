import UnionAtlas.Text.Printable
import UnionAtlas.Text.Utf8

/-!
# Hexadecimal texts

Bytes written as two digits each, in either case.
-/

namespace UnionAtlas

/-- Why a text is no sequence of digit pairs. -/
inductive HexError where
  | invalidByte (b : UInt8)
  | oddLength
  deriving Repr, DecidableEq

namespace HexError

/-- A code point by number and, if it can be shown, by itself. -/
def shown (c : Nat) : Bytes :=
  let digits := (Nat.toDigits 16 c).map fun d => Bytes.ascii d.toUpper
  text "U+" ++ List.replicate (4 - digits.length) 48 ++ digits
    ++ if isPrintable c then text " '" ++ Utf8.encode c ++ text "'" else []

/-- The message of a reading error. -/
def message : HexError → Bytes
  | .invalidByte b => text "encoding/hex: invalid byte: " ++ shown b.toNat
  | .oddLength => text "encoding/hex: odd length hex string"

end HexError

/-- Reads digit pairs. The first byte that is no digit is reported; only then does an odd number of
digits count. -/
def unhex : Bytes → Except HexError Bytes
  | [] => .ok []
  | [a] =>
    match Bytes.hexValue? a with
    | none => .error (.invalidByte a)
    | some _ => .error .oddLength
  | a :: b :: rest =>
    match Bytes.hexValue? a, Bytes.hexValue? b with
    | none, _ => .error (.invalidByte a)
    | _, none => .error (.invalidByte b)
    | some x, some y => (unhex rest).map ((x * 16 + y).toUInt8 :: ·)

end UnionAtlas
