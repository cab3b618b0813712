import UnionAtlas.Files.Loading
import UnionAtlas.Identifier
import UnionAtlas.Symbols.Binder
import UnionAtlas.Workspace.Description

/-!
# Workspaces

A workspace is what a description stands for: a model with its unions, a file set, and a binder that
serves the described uses. References are looked up when a file is bound, so a bind sees the model
as it is then.
-/

namespace UnionAtlas

/-- A use of a file that a workspace describes. -/
structure Binding where
  ref : Bytes
  span : Span
  isDecl : Bool
  deriving Repr, DecidableEq

/-- A workspace. -/
structure Workspace where
  /-- The file it was described in. -/
  path : Bytes
  model : Model
  files : FileSet
  /-- The unions in the order they are described. -/
  unions : List TypeId
  /-- The files in the order they are described. -/
  order : List FileId
  /-- The uses of each path; the latest description of a path comes first. -/
  bindings : List (Bytes × List Binding)
  deriving Repr, DecidableEq

/-- What is wrong with the description of a union. -/
inductive UnionFault where
  | missingName
  | duplicate (name : Bytes)
  | emptyCase (union : Bytes)
  | reservedCase (union case : Bytes)
  | duplicateCase (union case : Bytes)
  deriving Repr, DecidableEq

/-- What is wrong with the description of a file. -/
inductive FileFault where
  | missingPath
  | exclusive (path : Bytes)
  | load (path : Bytes) (e : DiskError)
  | tooLarge (path : Bytes)
  | noRef (path : Bytes) (offset : UInt32)
  | refTooLong (path : Bytes)
  | pastEnd (path ref : Bytes) (offset : UInt32)
  deriving Repr, DecidableEq

/-- Why a description stands for no workspace. -/
inductive DescriptionError where
  | document (e : Toml.DocumentError)
  /-- The unions are counted from one. -/
  | union (number : Nat) (fault : UnionFault)
  /-- The files are counted from one. -/
  | file (number : Nat) (fault : FileFault)
  deriving Repr, DecidableEq

/-- Why a workspace cannot be loaded. -/
inductive WorkspaceError where
  | notFound (path : Bytes)
  | unreadable (e : DiskError)
  | description (path : Bytes) (e : DescriptionError)
  deriving Repr, DecidableEq

namespace UnionFault

/-- The message of a fault in a union. -/
def message : UnionFault → Bytes
  | .missingName => text "missing name"
  | .duplicate name => text "duplicate union " ++ Quoted.encode name
  | .emptyCase union => union ++ text ": empty case name"
  | .reservedCase union case =>
    union ++ text ": case name " ++ Quoted.encode case ++ text " is reserved"
  | .duplicateCase union case => union ++ text ": duplicate case " ++ Quoted.encode case

end UnionFault

namespace FileFault

/-- The message of a fault in a file. -/
def message : FileFault → Bytes
  | .missingPath => text "missing path"
  | .exclusive path => path ++ text ": source and content are exclusive"
  | .load path e => path ++ text ": " ++ e.message
  | .tooLarge path => path ++ text ": file too large: out of range"
  | .noRef path off => path ++ text ": use at " ++ Bytes.decimal off.toNat ++ text " has no ref"
  | .refTooLong path => path ++ text ": out of range"
  | .pastEnd path ref off =>
    path ++ text ": use " ++ Quoted.encode ref ++ text " at " ++ Bytes.decimal off.toNat
      ++ text " is past the end of the file"

end FileFault

namespace DescriptionError

/-- The message for a description that stands for no workspace. -/
def message : DescriptionError → Bytes
  | .document e => e.message
  | .union n fault => text "union #" ++ Bytes.decimal n ++ text ": " ++ fault.message
  | .file n fault => text "file #" ++ Bytes.decimal n ++ text ": " ++ fault.message

end DescriptionError

namespace WorkspaceError

/-- The message for a workspace that cannot be loaded. -/
def message : WorkspaceError → Bytes
  | .notFound path => text "workspace file not found: " ++ path
  | .unreadable e => text "read workspace: " ++ e.message
  | .description path e => path ++ text ": " ++ e.message

end WorkspaceError

namespace Workspace

/-- A workspace without unions and files. -/
def empty : Workspace := ⟨[], .new 0, .empty, [], [], []⟩

/-- Adds the cases of a union one by one, given the names that it already has. -/
def addCases (union : Bytes) (id : TypeId) (seen : List Bytes) (m : Model) :
    List Bytes → Except UnionFault Model
  | [] => .ok m
  | written :: rest =>
    let case := identifier written
    if case = [] then .error (.emptyCase union)
    else if case = tagsName then .error (.reservedCase union case)
    else if seen.contains case then .error (.duplicateCase union case)
    else
      let (name, names) := m.names.intern case
      let (_, types) := m.types.addCase id name .none
      addCases union id (case :: seen) ⟨names, types⟩ rest

/-- Adds a union. -/
def addUnion (ws : Workspace) (u : UnionEntry) : Except UnionFault Workspace :=
  let name := identifier u.name
  if name = [] then .error .missingName
  else
    let (nameId, names) := ws.model.names.intern name
    if (ws.model.types.unionByName? nameId).isSome then .error (.duplicate name)
    else
      let (id, types) := ws.model.types.registerUnion nameId .none
      (addCases name id [] ⟨names, types⟩ u.cases).map fun model =>
        { ws with model, unions := ws.unions ++ [id] }

/-- The part of a reference after its last dot. -/
def shortRef (ref : Bytes) : Bytes :=
  Bytes.afterLast 0x2E ref

/-- The place of a use: as long as the last part of its reference, and inside the file. The file is
taken to be short enough for offsets of thirty-two bits. -/
def bindingOf (path : Bytes) (f : SourceFile) (u : UseEntry) : Except FileFault Binding :=
  let ref := identifier u.ref
  if ref = [] then .error (.noRef path u.offset)
  else if UInt32.size ≤ (shortRef ref).length then .error (.refTooLong path)
  else
    let stop := u.offset + (shortRef ref).length.toUInt32
    if f.content.length.toUInt32 < stop ∨ stop < u.offset then
      .error (.pastEnd path ref u.offset)
    else .ok ⟨ref, ⟨f.id, u.offset, stop⟩, u.isDecl⟩

/-- Adds the version that an entry describes to a file set. -/
def addVersion (disk : Disk) (base : Bytes) (files : FileSet) (f : FileEntry) :
    Except FileFault (FileId × FileSet) :=
  let flags : FileFlags := if f.misc then FileFlags.misc else 0
  if f.source ≠ [] ∧ f.content ≠ [] then .error (.exclusive f.path)
  else if f.source ≠ [] then
    (files.load disk f.path (Path.join [base, f.source]) flags).mapError (.load f.path)
  else .ok (files.add f.path f.content flags)

/-- Adds a file. -/
def addFile (disk : Disk) (base : Bytes) (ws : Workspace) (f : FileEntry) :
    Except FileFault Workspace :=
  if trim f.path = [] then .error .missingPath
  else do
    let (id, files) ← addVersion disk base ws.files f
    match files.get? id with
    | none => return { ws with files }
    | some file =>
      if UInt32.size ≤ file.content.length then throw (.tooLarge f.path)
      else
        let bindings ← f.uses.mapM (bindingOf f.path file)
        return { ws with
          files
          order := ws.order ++ [id]
          bindings := (file.path, bindings) :: ws.bindings }

/-- Adds unions, the first of which has the given number. -/
def addUnions (ws : Workspace) (number : Nat) :
    List UnionEntry → Except DescriptionError Workspace
  | [] => .ok ws
  | u :: us =>
    match ws.addUnion u with
    | .error fault => .error (.union number fault)
    | .ok ws => ws.addUnions (number + 1) us

/-- Adds files, the first of which has the given number. -/
def addFiles (disk : Disk) (base : Bytes) (ws : Workspace) (number : Nat) :
    List FileEntry → Except DescriptionError Workspace
  | [] => .ok ws
  | f :: fs =>
    match addFile disk base ws f with
    | .error fault => .error (.file number fault)
    | .ok ws => addFiles disk base ws (number + 1) fs

/-- The workspace that a description stands for. Sources are looked for from a base directory on. -/
def ofDescription (disk : Disk) (base : Bytes) (d : Description) :
    Except DescriptionError Workspace :=
  (empty.addUnions 1 d.unions).bind fun ws => addFiles disk base ws 1 d.files

/-- The workspace that a text describes. -/
def parse (disk : Disk) (base content : Bytes) : Except DescriptionError Workspace :=
  match Toml.read content Description.reader with
  | .error e => .error (.document e)
  | .ok (d, _) => ofDescription disk base d

/-- The workspace of the file at a path. -/
def load (disk : Disk) (path : Bytes) : Except WorkspaceError Workspace :=
  match disk.content path with
  | .error e => .error (if e.cause = .notExist then .notFound path else .unreadable e)
  | .ok content =>
    match parse disk (Path.directory path) content with
    | .error e => .error (.description path e)
    | .ok ws => .ok { ws with path }

/-- The described uses of a path. -/
def bindingsOf (ws : Workspace) (path : Bytes) : List Binding :=
  ((ws.bindings.find? (·.1 == path)).map (·.2)).getD []

/-- Binds uses one by one. The uses of a caller that has gone away are not bound. -/
def bindAll (cancelled : Bool) (f : SourceFile) (m : Model) :
    List Binding → Except BindError (List SymbolUse) × Model
  | [] => (.ok [], m)
  | b :: bs =>
    if cancelled then (.error .cancelled, m)
    else
      match m.resolveReference b.ref with
      | (none, m) => (.error (.unresolved f.path b.ref), m)
      | (some element, m) =>
        let use : SymbolUse :=
          ⟨element.shortName m, { b.span with file := f.id }, some element, b.isDecl⟩
        match bindAll cancelled f m bs with
        | (.error e, m) => (.error e, m)
        | (.ok uses, m) => (.ok (use :: uses), m)

/-- Binds a file. -/
def bind (ws : Workspace) (cancelled : Bool) (f : SourceFile) (m : Model) :
    Except BindError (List SymbolUse) × Model :=
  bindAll cancelled f m (ws.bindingsOf f.path)

/-- The binder that serves the described uses. -/
def binder (ws : Workspace) : Binder :=
  ws.bind false

end Workspace
end UnionAtlas
