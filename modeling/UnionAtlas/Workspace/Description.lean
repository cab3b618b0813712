import UnionAtlas.Toml.Reader

/-!
# Workspace descriptions

What a workspace file says: the unions with their cases, and the files with the places where names
stand in them.
-/

namespace UnionAtlas

/-- A union and the names of its cases. -/
structure UnionEntry where
  name : Bytes := []
  cases : List Bytes := []
  deriving Repr, DecidableEq

/-- A place where a reference stands. -/
structure UseEntry where
  ref : Bytes := []
  offset : UInt32 := 0
  isDecl : Bool := false
  deriving Repr, DecidableEq

/-- A file, with its content or the place on disk where it is. -/
structure FileEntry where
  path : Bytes := []
  source : Bytes := []
  content : Bytes := []
  misc : Bool := false
  uses : List UseEntry := []
  deriving Repr, DecidableEq

/-- What a workspace file says. -/
structure Description where
  unions : List UnionEntry := []
  files : List FileEntry := []
  deriving Repr, DecidableEq

namespace Description

open Toml Toml.Reader

/-- Reads a union. -/
def unionReader : Reader UnionEntry :=
  record {}
    [.set "name" string fun u v => { u with name := v },
     .set "cases" (list string) fun u v => { u with cases := v }]

/-- Reads an offset of thirty-two bits. -/
def offsetReader : Reader UInt32 := fun key v =>
  (integer 0 4294967295 key v).map fun (n, used) => (n.toNat.toUInt32, used)

/-- Reads a use. -/
def useReader : Reader UseEntry :=
  record {}
    [.set "ref" string fun u v => { u with ref := v },
     .set "offset" offsetReader fun u v => { u with offset := v },
     .set "decl" boolean fun u v => { u with isDecl := v }]

/-- Reads a file. -/
def fileReader : Reader FileEntry :=
  record {}
    [.set "path" string fun f v => { f with path := v },
     .set "source" string fun f v => { f with source := v },
     .set "content" string fun f v => { f with content := v },
     .set "misc" boolean fun f v => { f with misc := v },
     .set "use" (list useReader) fun f v => { f with uses := v }]

/-- Reads a workspace file. -/
def reader : Reader Description :=
  record {}
    [.set "union" (list unionReader) fun d v => { d with unions := v },
     .set "file" (list fileReader) fun d v => { d with files := v }]

end Description
end UnionAtlas
