import UnionAtlas.Text.Utf8

/-!
# Keys

A key is the list of names on the way from the root of a document to a value. In messages the names
stand between dots, and a name with other characters than those of a bare one stands in quotes.
-/

namespace UnionAtlas
namespace Toml

/-- The names on the way to a value. -/
abbrev Key := List Bytes

/-- May the byte stand in a name without quotes? -/
def isBare (b : UInt8) : Bool :=
  (65 ≤ b && b ≤ 90) || (97 ≤ b && b ≤ 122) || Bytes.isDigit b || b == 0x5F || b == 0x2D

/-- A byte of a name in quotes. -/
def quotedByte (b : UInt8) : Bytes :=
  match b with
  | 0x22 => text "\\\""
  | 0x5C => text "\\\\"
  | 0x08 => text "\\b"
  | 0x09 => text "\\t"
  | 0x0A => text "\\n"
  | 0x0C => text "\\f"
  | 0x0D => text "\\r"
  | b => if b < 0x20 || b == 0x7F then text "\\u" ++ Bytes.hexPadded 4 b.toNat else [b]

/-- A name as messages show it. -/
def renderName (name : Bytes) : Bytes :=
  if name ≠ [] ∧ name.all isBare then name
  else text "\"" ++ name.flatMap quotedByte ++ text "\""

/-- A key as messages show it. -/
def Key.render (k : Key) : Bytes :=
  Bytes.join (text ".") (k.map renderName)

/-- The small letter that a character is another form of: the capital letters, the long s and the
sign for kelvin. -/
def foldedCode (c : Nat) : Nat :=
  if 65 ≤ c ∧ c ≤ 90 then c + 32
  else if c = 0x17F then 0x73
  else if c = 0x212A then 0x6B
  else c

/-- Are two names the same but for the case of their letters? -/
def sameName (a b : Bytes) : Bool :=
  (Utf8.runes a).map (foldedCode ·.code) == (Utf8.runes b).map (foldedCode ·.code)

/-- The name in a list that a name stands for: itself, or else the first that differs in case
only. -/
def fieldFor? (fields : List Bytes) (name : Bytes) : Option Bytes :=
  if fields.contains name then some name else fields.find? (sameName · name)

end Toml
end UnionAtlas
