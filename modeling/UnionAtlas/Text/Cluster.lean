import UnionAtlas.Text.CellWidth
import UnionAtlas.Text.ClusterClass
import UnionAtlas.Text.Utf8

/-!
# Clusters and their width

A text is shown as a sequence of clusters: a character with the marks, joined pictures and syllable
parts that belong to it. The width of a cluster is the width of its first character that is shown at
all, and the width of a text is the sum over its clusters.
-/

namespace UnionAtlas
namespace Cluster

/-- A piece that the cluster rules look at. -/
inductive Piece where
  /-- Bytes of one class. -/
  | unit (kind : ClusterClass) (raw : Bytes)
  /-- A sequence cut off by the end of the text. -/
  | cutOff (raw : Bytes)

/-- How many of the bytes after a first byte belong to it, up to the number announced; `none` when
the text ends too early. A byte that continues nothing ends the count. -/
def following (b : UInt8) (rest : Bytes) : Option Nat :=
  let run := (rest.takeWhile Utf8.isContinuation).length
  let need (n : Nat) : Option Nat := if rest.length < n then none else some (min run n)
  if b < 0xC2 then some 0
  else if b < 0xE0 then need 1
  else if b < 0xF0 then need 2
  else if b < 0xF8 then need 3
  else some 0

/-- The class of the bytes at the front: bytes that form no valid character have no class of their
own. -/
def frontClass (b : UInt8) (rest : Bytes) : ClusterClass :=
  match (Utf8.front b rest).1 with
  | some c => ClusterClass.ofCode c
  | none => .other

/-- The pieces of a text. -/
def pieces : Bytes → List Piece
  | [] => []
  | b :: rest =>
    match following b rest with
    | none => [.cutOff (b :: rest)]
    | some n => .unit (frontClass b rest) (b :: rest.take n) :: pieces (rest.drop n)
  termination_by bs => bs.length
  decreasing_by simp only [List.length_drop, List.length_cons]; omega

/-- What the rules remember of an open cluster. -/
structure Walk where
  /-- The class of the last character. -/
  last : ClusterClass
  /-- The class of the last character that is no extending mark. -/
  solid : ClusterClass
  /-- The class of the one before it. -/
  earlier : ClusterClass
  /-- The number of regional pairs so far. -/
  regionalPairs : Nat

/-- The memory of a cluster of one character. -/
def Walk.start (k : ClusterClass) : Walk :=
  if k = .extend then ⟨k, .other, .other, 0⟩ else ⟨k, k, .other, 0⟩

/-- The memory after one more character. -/
def Walk.push (w : Walk) (k : ClusterClass) : Walk :=
  let pairs := if w.last = .regional ∧ k = .regional then w.regionalPairs + 1 else w.regionalPairs
  if k = .extend then ⟨k, w.solid, w.earlier, pairs⟩ else ⟨k, k, w.solid, pairs⟩

/-- Ends a line or is a control: nothing joins it. -/
def standsAlone (k : ClusterClass) : Bool :=
  k == .control || k == .carriageReturn || k == .lineFeed

/-- Does a character of the given class continue the open cluster? -/
def joins (w : Walk) (k : ClusterClass) : Bool :=
  if w.last = .carriageReturn ∧ k = .lineFeed then true
  else if standsAlone w.last || standsAlone k then false
  else
    (w.last == .leading && (k == .leading || k == .vowel || k == .openSyllable
        || k == .closedSyllable))
      || ((w.last == .openSyllable || w.last == .vowel) && (k == .vowel || k == .trailing))
      || ((w.last == .closedSyllable || w.last == .trailing) && k == .trailing)
      || k == .extend || k == .joiner || k == .spacing
      || w.last == .prepend
      || (k == .pictograph && w.last == .joiner && w.earlier == .pictograph)
      || (k == .regional && w.last == .regional && w.regionalPairs % 2 == 0)

/-- The clusters that follow an open one. -/
def gather (current : Bytes) (w : Walk) : List Piece → List Bytes
  | [] => [current]
  | .cutOff raw :: _ => [current ++ raw]
  | .unit k raw :: rest =>
    if joins w k then gather (current ++ raw) (w.push k) rest
    else current :: gather raw (.start k) rest

/-- The clusters of a text. -/
def ofBytes (bs : Bytes) : List Bytes :=
  match pieces bs with
  | [] => []
  | .cutOff raw :: _ => [raw]
  | .unit k raw :: rest => gather raw (.start k) rest

/-- The cells of a cluster. -/
def width (cluster : Bytes) : Nat :=
  (((Utf8.runes cluster).map fun r => codeWidth r.code).find? (0 < ·)).getD 0

end Cluster

/-- The terminal cells of a text. -/
def cellWidth (bs : Bytes) : Nat :=
  (Cluster.ofBytes bs).foldr (fun cluster cells => Cluster.width cluster + cells) 0

/-- The longest run of first clusters that fits into a number of cells. -/
def takeCells (limit : Int) : List Bytes → Bytes
  | [] => []
  | c :: rest =>
    if limit < Cluster.width c then []
    else c ++ takeCells (limit - Cluster.width c) rest

/-- The text itself if it fits, else its beginning and the given tail. -/
def truncateCells (bs : Bytes) (limit : Int) (tail : Bytes) : Bytes :=
  if (cellWidth bs : Int) ≤ limit then bs
  else takeCells (limit - cellWidth tail) (Cluster.ofBytes bs) ++ tail

/-- Spaces behind, up to a number of cells. -/
def fillCells (bs : Bytes) (cells : Nat) : Bytes :=
  bs ++ List.replicate (cells - cellWidth bs) 32

end UnionAtlas
