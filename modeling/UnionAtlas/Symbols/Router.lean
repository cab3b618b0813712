import UnionAtlas.Files.FileSet
import UnionAtlas.Text.LowerCase

/-!
# Which files have symbols

Only the files of a project are bound. A file is outside when it is marked so, or when its path ends
in one of the listed endings; an unknown file is outside as well.
-/

namespace UnionAtlas

/-- Where a file belongs. -/
inductive FileKind where
  | project
  | misc
  deriving Repr, DecidableEq

namespace FileKind

/-- The kind with a number: every number but one stands for a project file. -/
def ofCode (n : UInt8) : FileKind :=
  if n = 1 then .misc else .project

/-- The word for a kind. -/
def render : FileKind → Bytes
  | .project => text "project"
  | .misc => text "misc"

end FileKind

/-- How files are sorted. -/
inductive Classifier where
  /-- By their mark alone. -/
  | marks
  /-- By their mark and the ending of their path, in any case. -/
  | endings (listed : List Bytes)
  deriving Repr, DecidableEq

namespace Classifier

/-- Where a known file belongs. -/
def kind (c : Classifier) (f : SourceFile) : FileKind :=
  if f.isMisc then .misc
  else
    match c with
    | .marks => .project
    | .endings listed =>
      if (listed.map lowerCase).contains (lowerCase (Path.suffix f.path)) then .misc else .project

end Classifier

/-- Sends the questions about each file to where they are answered. -/
structure Router where
  classifier : Classifier
  /-- Is there a cache for project files? -/
  hasProject : Bool
  deriving Repr, DecidableEq

namespace Router

/-- Where a file belongs. -/
def kind (r : Router) (files : FileSet) (id : FileId) : FileKind :=
  match files.get? id with
  | none => .misc
  | some f => r.classifier.kind f

/-- Are the questions about a file answered by the cache? -/
def toCache (r : Router) (files : FileSet) (id : FileId) : Bool :=
  r.hasProject && r.kind files id = .project

end Router

/-- The way that a question or an invalidation takes. -/
inductive Route where
  /-- Straight to the cache. -/
  | cache
  /-- Through the router. -/
  | router
  /-- To nobody: the answer is always without symbols. -/
  | nobody
  deriving Repr, DecidableEq

namespace Route

/-- Does a question about a file reach the cache? -/
def reaches (way : Route) (r : Router) (files : FileSet) (id : FileId) : Bool :=
  match way with
  | .cache => true
  | .router => r.toCache files id
  | .nobody => false

/-- Do invalidations reach the cache? -/
def notifies (way : Route) (r : Router) : Bool :=
  match way with
  | .cache => true
  | .router => r.hasProject
  | .nobody => false

end Route
end UnionAtlas
