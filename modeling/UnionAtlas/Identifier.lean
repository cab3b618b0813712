import UnionAtlas.Handle.Codec
import UnionAtlas.Text.Blank
import UnionAtlas.Text.NormalForm
import UnionAtlas.Text.Quoted

/-!
# Identifiers and references

Names are compared in one normal form, without blanks around them. A reference is written with dots:
a union, a case of a union, the tags class of a union, or a tag.
-/

namespace UnionAtlas

/-- The form in which names are compared. -/
def identifier (s : Bytes) : Bytes :=
  NormalForm.normalize (trim s)

namespace Model

/-- The union that now has a name. -/
def unionNamed? (m : Model) (name : Bytes) : Option TypeId :=
  (m.names.find? name).bind m.types.unionByName?

/-- What a written reference denotes in the model as it is now. Asking for a tags class or a tag
makes the tags class. -/
def resolveReference (m : Model) (ref : Bytes) : Option Element × Model :=
  let parts := Bytes.split 0x2E (identifier ref)
  match m.unionNamed? (parts.headD []) with
  | none => (none, m)
  | some union =>
    match parts with
    | [_] => (some (.union union), m)
    | [first, second] =>
      if second = tagsName then
        let (tags?, m) := m.tagsClass union
        (tags?.map .tagsClass, m)
      else ((m.resolveCase? first second).map .unionCase, m)
    | [_, second, third] =>
      if second = tagsName then
        let (tags?, m) := m.tagsClass union
        (tags?.bind fun tags => (m.tagMember? tags third).map .tag, m)
      else (none, m)
    | _ => (none, m)

end Model

/-- Why a text does not name a case. -/
structure CaseRefError where
  written : Bytes
  deriving Repr, DecidableEq

namespace CaseRefError

/-- The message for a text that does not name a case. -/
def message (e : CaseRefError) : Bytes :=
  text "expected Union.Case, got " ++ Quoted.encode e.written

end CaseRefError

/-- The two names of a case that is written with a dot between them. -/
def parseCaseRef (s : Bytes) : Except CaseRefError (Bytes × Bytes) :=
  let ref := identifier s
  match Bytes.cut? 0x2E ref with
  | none => .error ⟨ref⟩
  | some (union, case) =>
    if union = [] ∨ case = [] ∨ case.contains 0x2E then .error ⟨ref⟩ else .ok (union, case)

end UnionAtlas
