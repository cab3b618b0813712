import UnionAtlas.Text.Utf8

/-!
# Blanks

The white space of Unicode, and the text without the blanks around it.
-/

namespace UnionAtlas

/-- Is the code point white space? -/
def isBlank (c : Nat) : Bool :=
  (0x09 ≤ c && c ≤ 0x0D) || c == 0x20 || c == 0x85 || c == 0xA0 || c == 0x1680
    || (0x2000 ≤ c && c ≤ 0x200A) || c == 0x2028 || c == 0x2029 || c == 0x202F || c == 0x205F
    || c == 0x3000

/-- The text without blanks at its beginning and end. -/
def trim (bs : Bytes) : Bytes :=
  let blank (r : Rune) : Bool := isBlank r.code
  Utf8.flatten ((((Utf8.runes bs).dropWhile blank).reverse.dropWhile blank).reverse)

end UnionAtlas
