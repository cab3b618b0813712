import UnionAtlas.TypeTable

/-!
# Models

A model is a type table together with the names that its unions and cases are called by. Its types
have labels for people.
-/

namespace UnionAtlas

/-- A type table and its names. -/
structure Model where
  names : NameTable
  types : TypeTable
  deriving Repr, DecidableEq

instance : Inhabited Model := ⟨⟨default, default⟩⟩

/-- The last part of the name of every tags class. -/
def tagsName : Bytes := text "Tags"

namespace Model

/-- A model without unions. -/
def new (ident : Nat) : Model := ⟨.empty, .new ident⟩

/-- The name with a number; empty for an unknown number. -/
def nameOf (m : Model) (id : NameId) : Bytes :=
  (m.names.lookup? id).getD []

/-- The name of a union; empty for what is no union. -/
def unionName (m : Model) (id : TypeId) : Bytes :=
  match m.types.info? id with
  | some info => m.nameOf info.name
  | none => []

/-- The tags class of a union, which is made if there is none yet. -/
def tagsClass (m : Model) (union : TypeId) : Option TypeId × Model :=
  let (id, types) := m.types.tagsClass union
  (id, { m with types })

/-- A number type: its word and its width, if it has one. -/
def numberLabel (word : String) (width : UInt8) : Bytes :=
  text word ++ if width = 0 then [] else Bytes.decimal width.toNat

/-- The label of a type, through at most `depth` nested owners. -/
def labelWithin (m : Model) : Nat → TypeId → Bytes
  | 0, _ => text "?"
  | depth + 1, id =>
    match m.types.lookup? id with
    | none => text "?"
    | some d =>
      match d.kind with
      | .unit => text "()"
      | .bool => text "bool"
      | .string => text "string"
      | .int => numberLabel "int" d.width
      | .uint => numberLabel "uint" d.width
      | .float => numberLabel "float" d.width
      | .union =>
        match m.types.info? id with
        | none => text "?"
        | some info => if m.nameOf info.name = [] then text "?" else m.nameOf info.name
      | .tagsClass =>
        match m.types.tagsOwner? id with
        | none => text "?"
        | some owner => m.labelWithin depth owner ++ text ".Tags"
      | kind => kind.render

/-- The label of a type for people. -/
def label (m : Model) (id : TypeId) : Bytes :=
  m.labelWithin (m.types.types.length + 1) id

end Model
end UnionAtlas
