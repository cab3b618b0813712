import UnionAtlas.Digest.Sha256
import UnionAtlas.Files.Span
import UnionAtlas.Path
import UnionAtlas.Search

/-!
# Files and their versions

A file set keeps every version of every file it is given. A version is never changed: adding a path
again makes a new version, and the latest version of a path is the one added last. Text read from
disk first loses a byte order mark at its start and the carriage returns right before line feeds.
-/

namespace UnionAtlas

/-- What is known of a file beside its content, as bits of a byte. -/
abbrev FileFlags := UInt8

namespace FileFlags

/-- The content was never on disk. -/
def inMemory : FileFlags := 1
/-- A byte order mark was removed. -/
def hadMark : FileFlags := 2
/-- Carriage returns before line feeds were removed. -/
def hadReturns : FileFlags := 4
/-- The file is outside every project module. -/
def misc : FileFlags := 8

end FileFlags

/-- One version of a file. -/
structure SourceFile where
  id : FileId
  path : Bytes
  content : Bytes
  /-- The offsets of the line feeds. -/
  lines : List UInt32
  digest : Bytes
  flags : FileFlags
  deriving Repr, DecidableEq

/-- A position for people, counted from one. -/
structure LineCol where
  line : UInt32
  col : UInt32
  deriving Repr, DecidableEq

/-- The offsets of the line feeds of a text whose first byte has the given offset. -/
def newlineOffsets (offset : Nat) : Bytes → List UInt32
  | [] => []
  | b :: rest =>
    if b == 0x0A then offset.toUInt32 :: newlineOffsets (offset + 1) rest
    else newlineOffsets (offset + 1) rest

/-- Line and column of an offset, given the offsets of the line feeds. A line feed belongs to the
line it ends. At the last offset of all, after `2 ^ 32 - 1` line feeds, the number of the line is
one more than words hold: here it wraps to zero, where a program has no position to tell and gives
up. -/
def LineCol.ofOffset (lines : List UInt32) (off : UInt32) : LineCol :=
  match Search.first (off ≤ ·) lines with
  | 0 => ⟨1, off + 1⟩
  | before + 1 =>
    let start := lines.getD before 0 + 1
    ⟨(before + 2).toUInt32, off - start + 1⟩

/-- The three bytes of a byte order mark. -/
def byteOrderMark : Bytes := [0xEF, 0xBB, 0xBF]

/-- The content without a byte order mark, and whether there was one. -/
def dropMark (content : Bytes) : Bytes × Bool :=
  if byteOrderMark.isPrefixOf content then (content.drop byteOrderMark.length, true)
  else (content, false)

/-- The content without the carriage returns that stand right before a line feed. -/
def dropReturns : Bytes → Bytes
  | [] => []
  | b :: rest =>
    if b == 0x0D && rest.head? == some 0x0A then dropReturns rest else b :: dropReturns rest

/-- Does a carriage return stand right before a line feed somewhere? -/
def hasReturns : Bytes → Bool
  | [] => false
  | b :: rest => (b == 0x0D && rest.head? == some 0x0A) || hasReturns rest

/-- Is the file outside every project module? -/
def SourceFile.isMisc (f : SourceFile) : Bool :=
  f.flags &&& FileFlags.misc != 0

/-- All versions of all files, by number. -/
structure FileSet where
  files : List SourceFile
  /-- The numbers of the latest versions by path; of a path, the entry in front counts. -/
  index : List (Bytes × FileId)
  deriving Repr, DecidableEq

namespace FileSet

/-- The set without files. -/
def empty : FileSet := ⟨[], []⟩

/-- The number of versions. -/
def size (fs : FileSet) : Nat :=
  fs.files.length

/-- The set with one more version, which becomes the latest one of its path. -/
def push (fs : FileSet) (f : SourceFile) : FileSet :=
  ⟨fs.files ++ [f], (f.path, f.id) :: fs.index⟩

/-- A new version of a path. -/
def add (fs : FileSet) (path content : Bytes) (flags : FileFlags) : FileId × FileSet :=
  let id := fs.files.length
  (id, fs.push
    { id, path := Path.clean path, content, lines := newlineOffsets 0 content,
      digest := Sha256.digest content, flags })

/-- A new version from the bytes of a file on disk. -/
def addLoaded (fs : FileSet) (path onDisk : Bytes) (flags : FileFlags) : FileId × FileSet :=
  let (content, marked) := dropMark onDisk
  let returns := hasReturns content
  let flags := if marked then flags ||| FileFlags.hadMark else flags
  let flags := if returns then flags ||| FileFlags.hadReturns else flags
  fs.add path (dropReturns content) flags

/-- The version with a number. -/
def get? (fs : FileSet) (id : FileId) : Option SourceFile :=
  fs.files[id]?

/-- The latest version of a path in its clean spelling. -/
def latestOfClean? (fs : FileSet) (path : Bytes) : Option FileId :=
  (fs.index.find? (·.1 == path)).map (·.2)

/-- The latest version of a path. -/
def latest? (fs : FileSet) (path : Bytes) : Option FileId :=
  fs.latestOfClean? (Path.clean path)

/-- Is the version the latest one of its path? -/
def isLatest (fs : FileSet) (id : FileId) : Bool :=
  match fs.get? id with
  | none => false
  | some f => fs.latestOfClean? f.path == some id

/-- Line and column of both ends of a span; zeros for an unknown file. -/
def resolve (fs : FileSet) (s : Span) : LineCol × LineCol :=
  match fs.get? s.file with
  | none => (⟨0, 0⟩, ⟨0, 0⟩)
  | some f => (.ofOffset f.lines s.start, .ofOffset f.lines s.stop)

end FileSet
end UnionAtlas
