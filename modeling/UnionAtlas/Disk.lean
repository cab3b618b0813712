import UnionAtlas.Path

/-!
# Files on disk

The part of a file system that a run can see: files and directories by their place, and the current
directory. Paths are followed part by part, so a missing or wrong part is noticed where it stands.
Errors name the call, the path as it was given, and the cause.
-/

namespace UnionAtlas

/-- What stands at a place. -/
inductive Node where
  | file (content : Bytes)
  | directory
  deriving Repr, DecidableEq

/-- Why a file cannot be reached. -/
inductive DiskCause where
  | notExist
  | notDirectory
  | isDirectory
  | nameTooLong
  | invalidArgument
  | closed
  deriving Repr, DecidableEq

/-- A failed call on a path. -/
structure DiskError where
  call : String
  path : Bytes
  cause : DiskCause
  deriving Repr, DecidableEq

namespace DiskError

/-- The words for a cause. -/
def causeText : DiskCause → Bytes
  | .notExist => text "no such file or directory"
  | .notDirectory => text "not a directory"
  | .isDirectory => text "is a directory"
  | .nameTooLong => text "file name too long"
  | .invalidArgument => text "invalid argument"
  | .closed => text "file already closed"

/-- The message of a failed call. -/
def message (e : DiskError) : Bytes :=
  text e.call ++ text " " ++ e.path ++ text ": " ++ causeText e.cause

end DiskError

/-- A place: the parts of its path from the root on. -/
abbrev Place := List Bytes

/-- Files and directories by place; the root and the current directory always exist. -/
structure Disk where
  /-- The current directory. -/
  current : Place
  nodes : List (Place × Node)
  deriving Repr, DecidableEq

namespace Disk

/-- A disk with an empty current directory. -/
def empty (current : Place) : Disk := ⟨current, []⟩

/-- The path of the current directory. -/
def currentPath (d : Disk) : Bytes :=
  Path.slash :: Bytes.join [Path.slash] d.current

/-- What stands at a place. -/
def node? (d : Disk) (place : Place) : Option Node :=
  if place.isPrefixOf d.current then some .directory
  else (d.nodes.find? (·.1 == place)).map (·.2)

/-- Puts a node at a place. -/
def put (d : Disk) (place : Place) (n : Node) : Disk :=
  { d with nodes := (place, n) :: d.nodes.filter (·.1 != place) }

/-- All places above a place, from the root on. -/
def above (place : Place) : List Place :=
  (List.range place.length).map fun n => place.take n

/-- Puts a node at a place and makes the directories above it. -/
def putDeep (d : Disk) (place : Place) (n : Node) : Disk :=
  ((above place).foldl
    (fun d p => if (d.node? p).isSome then d else d.put p .directory) d).put place n

/-- The longest name of one part. -/
def maxName : Nat := 255

/-- Follows the parts of a path from a place whose node is known. -/
def walk (d : Disk) (place : Place) (n : Node) : List Bytes → Except DiskCause (Place × Node)
  | [] => .ok (place, n)
  | part :: parts =>
    match n with
    | .file _ => .error .notDirectory
    | .directory =>
      if part == [] || part == text "." then d.walk place .directory parts
      else if part == text ".." then d.walk place.dropLast .directory parts
      else if maxName < part.length then .error .nameTooLong
      else
        match d.node? (place ++ [part]) with
        | none => .error .notExist
        | some n => d.walk (place ++ [part]) n parts

/-- The length from which on a path is too long. -/
def maxPath : Nat := 4096

/-- What is wrong with a path before it is followed. -/
def pathFault? (path : Bytes) : Option DiskCause :=
  if path.contains 0 then some .invalidArgument
  else if path.isEmpty then some .notExist
  else if maxPath ≤ path.length then some .nameTooLong
  else none

/-- The place that a path starts from. -/
def origin (d : Disk) (path : Bytes) : Place :=
  if Path.isRooted path then [] else d.current

/-- The place and node of a path. -/
def find (d : Disk) (path : Bytes) : Except DiskCause (Place × Node) :=
  match pathFault? path with
  | some cause => .error cause
  | none => d.walk (d.origin path) .directory (Bytes.split Path.slash path)

/-- Does the path lead to something? -/
def stat (d : Disk) (path : Bytes) : Except DiskError Node :=
  match d.find path with
  | .ok (_, n) => .ok n
  | .error cause => .error ⟨"stat", path, cause⟩

/-- The content of a file. -/
def content (d : Disk) (path : Bytes) : Except DiskError Bytes :=
  match d.find path with
  | .ok (_, .file bytes) => .ok bytes
  | .ok (_, .directory) => .error ⟨"read", path, .isDirectory⟩
  | .error cause => .error ⟨"open", path, cause⟩

/-- The place where a path makes a new file, or the place of the file it empties. -/
def target (d : Disk) (path : Bytes) : Except DiskCause Place :=
  match pathFault? path with
  | some cause => .error cause
  | none =>
    let parts := Bytes.split Path.slash path
    match d.walk (d.origin path) .directory parts.dropLast with
    | .error cause => .error cause
    | .ok (_, .file _) => .error .notDirectory
    | .ok (place, .directory) =>
      let name := parts.getLast?.getD []
      if name == [] || name == text "." || name == text ".." then .error .isDirectory
      else if maxName < name.length then .error .nameTooLong
      else
        match d.node? (place ++ [name]) with
        | some .directory => .error .isDirectory
        | _ => .ok (place ++ [name])

/-- Makes an empty file, or empties one that is there. -/
def create (d : Disk) (path : Bytes) : Except DiskError (Place × Disk) :=
  match d.target path with
  | .error cause => .error ⟨"open", path, cause⟩
  | .ok place => .ok (place, d.put place (.file []))

/-- The content with bytes written over it from an offset on; a gap is filled with zeros. -/
def overwrite (content : Bytes) (offset : Nat) (bs : Bytes) : Bytes :=
  content.take offset ++ List.replicate (offset - content.length) 0 ++ bs
    ++ content.drop (offset + bs.length)

/-- Writes into the file at a place. -/
def writeAt (d : Disk) (place : Place) (offset : Nat) (bs : Bytes) : Disk :=
  match d.node? place with
  | some (.file content) => d.put place (.file (overwrite content offset bs))
  | _ => d

end Disk
end UnionAtlas
