import UnionAtlas.Text.Printable
import UnionAtlas.Text.Utf8

/-!
# Quoted texts

A text in double quotes, as messages show names: printable characters stand for themselves, a quote
and a backslash follow a backslash, the usual controls have letters, and all else is given by number.
A byte outside every valid sequence is shown as that byte.
-/

namespace UnionAtlas
namespace Quoted

/-- The letter that stands for a control character after a backslash. -/
def controlLetter? (c : Nat) : Option Char :=
  match c with
  | 7 => some 'a'
  | 8 => some 'b'
  | 12 => some 'f'
  | 10 => some 'n'
  | 13 => some 'r'
  | 9 => some 't'
  | 11 => some 'v'
  | _ => none

/-- A code point inside quotes. -/
def codePoint (quote : Char) (c : Nat) : Bytes :=
  if c = quote.toNat ∨ c = 0x5C then [0x5C, c.toUInt8]
  else if isPrintable c then Utf8.encode c
  else
    match controlLetter? c with
    | some letter => [0x5C, Bytes.ascii letter]
    | none =>
      if c < 0x20 ∨ c = 0x7F then text "\\x" ++ Bytes.hexPadded 2 c
      else if c < 0x10000 then text "\\u" ++ Bytes.hexPadded 4 c
      else text "\\U" ++ Bytes.hexPadded 8 c

/-- One character inside quotes. -/
def rune (quote : Char) (r : Rune) : Bytes :=
  match r.scalar with
  | some c => codePoint quote c
  | none => r.raw.flatMap fun b => text "\\x" ++ Bytes.hexPadded 2 b.toNat

/-- The text between double quotes. -/
def encode (bs : Bytes) : Bytes :=
  text "\"" ++ (Utf8.runes bs).flatMap (rune '"') ++ text "\""

end Quoted
end UnionAtlas
