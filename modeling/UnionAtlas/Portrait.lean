import UnionAtlas.Element

/-!
# Portraits of elements

A portrait gathers everything that can be said of an element in one state of its model. To portray
a union or a tag is to ask for the tags class, which is made if there is none yet; a union case is
portrayed without it.
-/

namespace UnionAtlas

/-- A type that holds other elements. -/
structure Holder where
  kind : ElementKind
  name : Bytes
  id : TypeId
  deriving Repr, DecidableEq

/-- A tags class as a member of its union. -/
structure ClassMember where
  kind : ElementKind
  name : Bytes
  containing : Holder
  traits : MemberTraits
  substitution : Substitution
  deriving Repr, DecidableEq

/-- What is said of a tag alone. -/
structure TagFacts where
  path : Bytes
  /-- The case that the tag was made from. -/
  origin : UnionCase
  originKind : ElementKind
  index : Option Nat
  constant : Constant
  declaredType : TypeId
  /-- The tags class as a type and as a member; none while the case belongs to no union. -/
  containing : Option (Holder × ClassMember)
  traits : MemberTraits
  bufferSize : Option Nat
  substitution : Substitution
  deriving Repr, DecidableEq

/-- What is said of an element beside its name, by its kind. -/
inductive Facts where
  | union (id : TypeId) (cases : List Bytes) (tags : Option TypeId)
  | tagsClass (id owner : TypeId) (member : ClassMember) (members : List Bytes)
  | unionCase (uc : UnionCase) (containing : Holder)
  | tag (facts : TagFacts)
  deriving Repr, DecidableEq

/-- Everything that can be said of an element. -/
structure Portrait where
  kind : ElementKind
  name : Bytes
  hash : UInt64
  shown : Bytes
  facts : Facts
  deriving Repr, DecidableEq

namespace Model

/-- A union as the holder of its cases. -/
def unionHolder (m : Model) (union : TypeId) : Holder :=
  ⟨.union, m.unionName union, union⟩

/-- The union of a tags class; no type, if it has none. -/
def ownerOf (m : Model) (tags : TypeId) : TypeId :=
  (m.types.tagsOwner? tags).getD 0

/-- A tags class as a member of its union. -/
def classMember (m : Model) (tags : TypeId) : ClassMember :=
  ⟨.tagsClass, tagsName, m.unionHolder (m.ownerOf tags), tagsClassTraits, .empty⟩

/-- What is said of a tag, whose tags class is given. -/
def tagFacts (m : Model) (uc : UnionCase) (tags : Option TypeId) : TagFacts where
  path := m.tagPath uc
  origin := uc
  originKind := (Element.unionCase uc).kind
  index := m.tagIndex? uc
  constant := m.tagConstant uc
  declaredType := tagType
  containing := tags.map fun id => (⟨.tagsClass, tagsName, id⟩, m.classMember id)
  traits := tagTraits
  bufferSize := tagBufferSize
  substitution := .empty

/-- What is said of an element beside its name. -/
def facts (m : Model) : Element → Facts × Model
  | .union id =>
    let (tags, m) := m.tagsClass id
    (.union id ((m.types.cases id).map fun uc => m.nameOf uc.name) tags, m)
  | .tagsClass id =>
    (.tagsClass id (m.ownerOf id) (m.classMember id)
      ((m.tagMembers id).map fun uc => m.nameOf uc.name), m)
  | .unionCase uc => (.unionCase uc (m.unionHolder uc.union), m)
  | .tag uc =>
    let (tags, m) := m.tagsClass uc.union
    (.tag (m.tagFacts uc tags), m)

/-- Everything that can be said of an element now. -/
def portray (m : Model) (e : Element) : Portrait × Model :=
  let (facts, m) := m.facts e
  (⟨e.kind, e.shortName m, e.hash m, e.render m, facts⟩, m)

end Model
end UnionAtlas
