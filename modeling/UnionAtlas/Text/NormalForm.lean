import UnionAtlas.Text.Decomposition
import UnionAtlas.Text.Utf8

/-!
# Composed normal form

Two spellings of one name are made equal by canonical composition: every character is decomposed,
the marks after a character are put in the order of their combining classes, and pairs are composed
again. A run of more than thirty marks is cut by an inserted joiner, so that a segment has bounded
length. Bytes outside every valid sequence are kept as they are and separate segments.
-/

namespace UnionAtlas
namespace NormalForm

/-- A composed syllable of the Korean script. -/
def isSyllable (c : Nat) : Bool :=
  0xAC00 ≤ c && c < 0xD7A4

/-- The two or three letters of a composed syllable. -/
def syllableParts (c : Nat) : List Nat :=
  let i := c - 0xAC00
  let tail := i % 28
  [0x1100 + i / 588, 0x1161 + i % 588 / 28] ++ if tail = 0 then [] else [0x11A7 + tail]

/-- Full decomposition; no chain of decompositions is longer than the depth it is called with. -/
def expandDepth : Nat → Nat → List Nat
  | 0, c => [c]
  | depth + 1, c =>
    match decompositionMap[c]? with
    | some parts => parts.flatMap (expandDepth depth)
    | none => [c]

/-- The full canonical decomposition of a character. -/
def expand (c : Nat) : List Nat :=
  if c < 0xC0 then [c]
  else if isSyllable c then syllableParts c
  else expandDepth 5 c

/-- Can the character be the second of a composed pair? -/
def composesBack (c : Nat) : Bool :=
  (0x1161 ≤ c && c ≤ 0x1175) || (0x11A8 ≤ c && c ≤ 0x11C2) || secondMap.contains c

/-- Does the character belong to the one before it? -/
def isMark (c : Nat) : Bool :=
  0x300 ≤ c && (combiningClass c != 0 || composesBack c)

/-- The number of marks that a character begins with. -/
def leadingMarks (c : Nat) : Nat :=
  if c < 0xC0 || isSyllable c then 0
  else
    match markCounts.value? c with
    | some counts => counts / 16
    | none => ((expand c).takeWhile isMark).length

/-- The number of marks that a character ends with. -/
def trailingMarks (c : Nat) : Nat :=
  if c < 0x80 then 0
  else if isSyllable c then (syllableParts c).length - 1
  else
    match markCounts.value? c with
    | some counts => counts % 16
    | none => ((expand c).reverse.takeWhile isMark).length

/-- What a byte string is made of for normalisation. -/
inductive Item where
  /-- A valid character. -/
  | char (code : Nat)
  /-- Bytes that are copied. -/
  | raw (bytes : Bytes)

/-- The number of bytes that a first byte announces. -/
def announced (b : UInt8) : Nat :=
  if b < 0xC2 then 1
  else if b < 0xE0 then 2
  else if b < 0xF0 then 3
  else if b < 0xF8 then 4
  else 1

/-- The characters of a byte string. A first byte that announces more bytes than are left makes the
rest one raw item. -/
def items : Bytes → List Item
  | [] => []
  | b :: rest =>
    if rest.length + 1 < announced b then [.raw (b :: rest)]
    else
      match (Utf8.front b rest).1 with
      | some c => .char c :: items (rest.drop (Utf8.front b rest).2)
      | none => .raw [b] :: items rest
  termination_by bs => bs.length
  decreasing_by
    all_goals simp only [List.length_drop, List.length_cons]; omega

/-- The joiner put between two parts of an overlong run of marks. -/
def joiner : Nat := 0x34F

/-- The greatest number of marks in a row. -/
def maxMarks : Nat := 30

/-- A piece of the text that is normalised on its own. -/
inductive Segment where
  /-- A character with the marks that belong to it. -/
  | chars (codes : List Nat)
  /-- Bytes that are copied. -/
  | raw (bytes : Bytes)

/-- Cuts the text into segments. `current` is the open segment and `marks` the number of marks it
ends with. -/
def segments (current : List Nat) (marks : Nat) : List Item → List Segment
  | [] => [.chars current]
  | .raw bytes :: rest => .chars current :: .raw bytes :: segments [] 0 rest
  | .char c :: rest =>
    let lead := leadingMarks c
    if maxMarks < marks + lead then
      .chars (current ++ [joiner]) :: segments [c] lead rest
    else if lead = 0 then .chars current :: segments [c] (trailingMarks c) rest
    else segments (current ++ [c]) (marks + lead) rest

/-- Puts a mark into a list that ends with the last mark first, before all marks of a higher class
that follow the last character of class zero. -/
def insertMark (c : Nat) : List Nat → List Nat
  | [] => [c]
  | d :: rest =>
    if combiningClass c ≠ 0 ∧ combiningClass c < combiningClass d then d :: insertMark c rest
    else c :: d :: rest

/-- The marks in canonical order; marks of one class keep their order. -/
def reorder (cs : List Nat) : List Nat :=
  (cs.foldl (fun done c => insertMark c done) []).reverse

/-- The character that a pair is composed into. -/
def pair? (a b : Nat) : Option Nat :=
  if 0x1100 ≤ a ∧ a < 0x1113 ∧ 0x1161 ≤ b ∧ b < 0x1176 then
    some (0xAC00 + (a - 0x1100) * 588 + (b - 0x1161) * 28)
  else if isSyllable a ∧ 0x11A7 < b ∧ b < 0x11C3 ∧ (a - 0xAC00) % 28 = 0 then
    some (a + (b - 0x11A7))
  else compositionMap[(a, b)]?

/-- Composes the first character of a segment with the marks that nothing blocks from it. `kept`
holds the marks that stayed, the last one first. -/
def composeWith (first : Nat) (kept : List Nat) : List Nat → List Nat
  | [] => first :: kept.reverse
  | c :: rest =>
    let blocked :=
      match kept with
      | [] => false
      | d :: _ => combiningClass d == 0 || combiningClass c ≤ combiningClass d
    match blocked, pair? first c with
    | false, some whole => composeWith whole kept rest
    | _, _ => composeWith first (c :: kept) rest

/-- The composed form of a segment. -/
def compose (cs : List Nat) : List Nat :=
  match reorder (cs.flatMap expand) with
  | [] => []
  | first :: rest => composeWith first [] rest

/-- The bytes of a normalised segment. -/
def Segment.render : Segment → Bytes
  | .chars cs => (compose cs).flatMap Utf8.encode
  | .raw bytes => bytes

/-- The composed normal form of a text. -/
def normalize (bs : Bytes) : Bytes :=
  (segments [] 0 (items bs)).flatMap Segment.render

end NormalForm
end UnionAtlas
