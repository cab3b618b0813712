import UnionAtlas.Digest.Fnv
import UnionAtlas.Model

/-!
# Declared elements

The named things of a model: unions, the tags class of a union, the cases of a union, and the tag of
each case. A tag is the constant that holds the position of its case; it lives in the tags class. An
element is a view without state: every question goes back to the model.
-/

namespace UnionAtlas

/-- The kinds that elements are sorted by. -/
inductive ElementKind where
  | union
  | tagsClass
  | unionCase
  | constant
  | field
  | enumMember
  | other (code : UInt8)
  deriving Repr, DecidableEq

namespace ElementKind

/-- The kind with a number. -/
def ofCode (n : UInt8) : ElementKind :=
  match n with
  | 1 => .union
  | 2 => .tagsClass
  | 3 => .unionCase
  | 4 => .constant
  | 5 => .field
  | 6 => .enumMember
  | n => .other n

/-- The words for a kind. -/
def render : ElementKind → Bytes
  | .union => text "union"
  | .tagsClass => text "tags class"
  | .unionCase => text "union case"
  | .constant => text "constant"
  | .field => text "field"
  | .enumMember => text "enum member"
  | .other code => text "ElementKind(" ++ Bytes.decimal code.toNat ++ text ")"

end ElementKind

/-- A typed constant, or the mark of a value that cannot be told. -/
inductive Constant where
  | bad
  | value (v : Int) (type : TypeId)
  deriving Repr, DecidableEq

namespace Constant

/-- A thirty-two bit constant; bad, when the value does not fit. -/
def int32 (v : Int) (type : TypeId) : Constant :=
  if -2147483648 ≤ v ∧ v ≤ 2147483647 then .value v type else .bad

/-- The type; none for the bad value. -/
def type : Constant → TypeId
  | .bad => 0
  | .value _ type => type

/-- The text of a constant. -/
def render : Constant → Bytes
  | .bad => text "<bad>"
  | .value v _ => Bytes.signed v

end Constant

/-- What can be said of a member without looking at its model. -/
structure MemberTraits where
  isConstant : Bool
  isField : Bool
  isEnumMember : Bool
  isStatic : Bool
  isReadonly : Bool
  deriving Repr, DecidableEq

/-- A tag is a constant and nothing else, and can be neither changed nor reached through a value. -/
def tagTraits : MemberTraits := ⟨true, false, false, true, true⟩

/-- A tags class is a static container. -/
def tagsClassTraits : MemberTraits := ⟨false, false, false, true, false⟩

/-- A tag is never a buffer of fixed size. -/
def tagBufferSize : Option Nat := none

/-- Types in the place of type parameters. -/
structure Substitution where
  pairs : List (TypeId × TypeId)
  deriving Repr, DecidableEq

namespace Substitution

/-- The substitution of a member without type parameters. -/
def empty : Substitution := ⟨[]⟩

/-- The type that stands for another. -/
def apply (s : Substitution) (t : TypeId) : TypeId :=
  ((s.pairs.find? (·.1 == t)).map (·.2)).getD t

/-- Does the substitution change no type? -/
def isIdentity (s : Substitution) : Bool :=
  s.pairs.all fun p => s.apply p.1 == p.1

end Substitution

/-- A declared element of a model. -/
inductive Element where
  | union (id : TypeId)
  | tagsClass (id : TypeId)
  | unionCase (uc : UnionCase)
  | tag (uc : UnionCase)
  deriving Repr, DecidableEq

namespace Model

/-- The position of a tag's case in the case list of its union, if it is listed. -/
def tagIndex? (m : Model) (uc : UnionCase) : Option Nat :=
  m.types.indexOf? uc

/-- The type of every tag. -/
def tagType : TypeId := builtins.int32

/-- The value of a tag: the position of its case, bad while the case is not listed. -/
def tagConstant (m : Model) (uc : UnionCase) : Constant :=
  match m.tagIndex? uc with
  | none => .bad
  | some i => .int32 i tagType

/-- The full name of a tag. -/
def tagPath (m : Model) (uc : UnionCase) : Bytes :=
  let union :=
    match m.types.info? uc.union with
    | some info => m.nameOf info.name
    | none => text "?"
  union ++ text "." ++ tagsName ++ text "." ++ m.nameOf uc.name

/-- The cases whose tags a tags class holds. -/
def tagMembers (m : Model) (tags : TypeId) : List UnionCase :=
  match m.types.tagsOwner? tags with
  | some owner => m.types.cases owner
  | none => []

/-- The first case in a tags class whose name is given. -/
def tagMember? (m : Model) (tags : TypeId) (name : Bytes) : Option UnionCase :=
  (m.tagMembers tags).find? fun uc => m.nameOf uc.name == name

end Model

namespace Element

/-- The kind of an element. -/
def kind : Element → ElementKind
  | .union _ => .union
  | .tagsClass _ => .tagsClass
  | .unionCase _ => .unionCase
  | .tag _ => .constant

/-- The last part of an element's name. -/
def shortName (m : Model) : Element → Bytes
  | .union id => m.unionName id
  | .tagsClass _ => tagsName
  | .unionCase uc => m.nameOf uc.name
  | .tag uc => m.nameOf uc.name

/-- The hash of an element; for all but a tags class it depends on the short name only. -/
def hash (m : Model) : Element → UInt64
  | .tagsClass id => fnv1a tagsName ^^^ id.toUInt64
  | e => fnv1a (e.shortName m)

/-- The text for people: the full name of a tag, the short name of the rest. -/
def render (m : Model) : Element → Bytes
  | .tag uc => m.tagPath uc
  | e => e.shortName m

end Element
end UnionAtlas
