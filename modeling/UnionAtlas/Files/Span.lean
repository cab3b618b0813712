import UnionAtlas.Text.Bytes

/-!
# Spans

A span is a half-open range of byte offsets in one version of a file. Offsets are thirty-two bit
words, and lengths are taken modulo `2^32`.
-/

namespace UnionAtlas

/-- The number of a file version in its file set. -/
abbrev FileId := Nat

/-- A half-open range of offsets in a file. -/
structure Span where
  file : FileId
  start : UInt32
  stop : UInt32
  deriving Repr, DecidableEq, Inhabited

namespace Span

/-- The span of a declaration without a place. -/
def none : Span := ⟨0, 0, 0⟩

/-- Does the span hold no byte? -/
def isEmpty (s : Span) : Bool :=
  s.start == s.stop

/-- The number of bytes, modulo `2^32`. -/
def length (s : Span) : UInt32 :=
  s.stop - s.start

/-- Does an offset fall into the span? An empty span is hit by its own offset only. -/
def contains (s : Span) (off : UInt32) : Bool :=
  if s.isEmpty then off == s.start else s.start ≤ off && off < s.stop

/-- The least span that holds both, if they are in one file; the first one otherwise. -/
def cover (s t : Span) : Span :=
  if s.file = t.file then
    { s with
      start := if t.start < s.start then t.start else s.start
      stop := if s.stop < t.stop then t.stop else s.stop }
  else s

/-- The text of a span: file, first offset and end. -/
def render (s : Span) : Bytes :=
  Bytes.decimal s.file ++ text ":" ++ Bytes.decimal s.start.toNat ++ text "-"
    ++ Bytes.decimal s.stop.toNat

end Span
end UnionAtlas
