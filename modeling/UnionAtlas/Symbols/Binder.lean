import UnionAtlas.Files.FileSet
import UnionAtlas.Model
import UnionAtlas.Symbols.FileSymbols
import UnionAtlas.Text.Quoted

/-!
# Binders

A binder computes the uses of one file. It sees the model and may add to it, for the tags class of
a union is made when it is first asked for. The word binder is the simplest one: it takes every word
of a file as the use of a name.
-/

namespace UnionAtlas

/-- Why a bind fails. -/
inductive BindError where
  /-- A word asked for the failure. -/
  | refused (place : Span)
  /-- A reference names nothing. -/
  | unresolved (path ref : Bytes)
  /-- The caller went away. -/
  | cancelled
  deriving Repr, DecidableEq

namespace BindError

/-- The message of a failed bind. -/
def message : BindError → Bytes
  | .refused s => text "bind failed at " ++ s.render
  | .unresolved path ref => path ++ text ": unresolved reference " ++ Quoted.encode ref
  | .cancelled => text "context canceled"

end BindError

/-- The computation of the uses of one file. -/
abbrev Binder := SourceFile → Model → Except BindError (List SymbolUse) × Model

/-- Do words end at this byte? -/
def isWordBreak (b : UInt8) : Bool :=
  b == 0x20 || b == 0x0A

/-- Words with the offset of their first byte; empty words are dropped. -/
def placeWords (offset : Nat) : List Bytes → List (Nat × Bytes)
  | [] => []
  | w :: ws =>
    if w.isEmpty then placeWords (offset + 1) ws
    else (offset, w) :: placeWords (offset + w.length + 1) ws

/-- The use that a word stands for: a plus sign marks a declaration. -/
def wordUse (file : FileId) (offset : Nat) (w : Bytes) : Except BindError SymbolUse :=
  let span : Span := ⟨file, offset.toUInt32, (offset + w.length).toUInt32⟩
  if w = text "FAIL" then .error (.refused span)
  else
    match w with
    | 0x2B :: name => .ok ⟨name, span, none, true⟩
    | _ => .ok ⟨w, span, none, false⟩

/-- The binder that takes every word as the use of a name, and fails at the first word that asks for
it. -/
def wordBinder : Binder := fun f m =>
  ((placeWords 0 (Bytes.splitWhen isWordBreak f.content)).mapM fun (off, w) => wordUse f.id off w,
    m)

end UnionAtlas
