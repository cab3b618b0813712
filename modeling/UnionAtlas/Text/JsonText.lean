import UnionAtlas.Text.Utf8

/-!
# JSON texts

The string form used in JSON output: quotes, backslashes and controls are escaped, and so are the
characters that would end a script or a line (`<`, `>`, `&` and the two line separators). A byte
outside every valid sequence is shown as the replacement character. It stands there itself, in its
three bytes, and not by its number `\ufffd`; what reads JSON takes both for the same character.
-/

namespace UnionAtlas
namespace JsonText

/-- A code point given by number. -/
def numbered (c : Nat) : Bytes :=
  text "\\u" ++ Bytes.hexPadded 4 c

/-- A character inside a JSON string; a byte that is none becomes the replacement character. -/
def rune (r : Rune) : Bytes :=
  match r.scalar with
  | none => Utf8.encode replacement
  | some c =>
    if c = 0x22 ∨ c = 0x5C then [0x5C, c.toUInt8]
    else if c = 8 then text "\\b"
    else if c = 12 then text "\\f"
    else if c = 10 then text "\\n"
    else if c = 13 then text "\\r"
    else if c = 9 then text "\\t"
    else if c < 0x20 ∨ c = 0x3C ∨ c = 0x3E ∨ c = 0x26 ∨ c = 0x2028 ∨ c = 0x2029 then numbered c
    else r.raw

/-- The text as a JSON string with its quotes. -/
def encode (bs : Bytes) : Bytes :=
  text "\"" ++ (Utf8.runes bs).flatMap rune ++ text "\""

end JsonText
end UnionAtlas
