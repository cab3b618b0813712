import UnionAtlas.Text.Bytes

/-!
# Paths

Slash-separated paths as texts: the shortest equal spelling, joining, and the parts of a path. All
of it is lexical; no file is looked at.
-/

namespace UnionAtlas
namespace Path

/-- The byte between two parts of a path. -/
def slash : UInt8 := 0x2F

/-- Does the path start at the root? -/
def isRooted (p : Bytes) : Bool :=
  p.head? == some slash

/-- Takes one part onto the parts before it, the last of them first. -/
def cleanStep (rooted : Bool) (done : List Bytes) (part : Bytes) : List Bytes :=
  if part == [] || part == text "." then done
  else if part == text ".." then
    match done with
    | [] => if rooted then [] else [part]
    | last :: before => if last == text ".." then part :: done else before
  else part :: done

/-- The shortest spelling of a path: no empty part, no dot, and no part that two dots take back. -/
def clean (p : Bytes) : Bytes :=
  let rooted := isRooted p
  let parts := ((Bytes.split slash p).foldl (cleanStep rooted) []).reverse
  let body := Bytes.join [slash] parts
  if rooted then slash :: body else if body.isEmpty then text "." else body

/-- The clean path of several pieces, of which empty ones do not count. -/
def join (pieces : List Bytes) : Bytes :=
  match pieces.filter (fun p => !p.isEmpty) with
  | [] => []
  | kept => clean (Bytes.join [slash] kept)

/-- The clean path of the directory that holds the last part. -/
def directory (p : Bytes) : Bytes :=
  clean (p.reverse.dropWhile (· != slash)).reverse

/-- The last part from its last dot on: empty, when it has no dot. -/
def suffix (p : Bytes) : Bytes :=
  let name := Bytes.afterLast slash p
  if name.contains 0x2E then 0x2E :: Bytes.afterLast 0x2E name else []

/-- The clean path as seen from the root. -/
def absolute (current p : Bytes) : Bytes :=
  if isRooted p then clean p else join [current, p]

end Path
end UnionAtlas
