import UnionAtlas.Files.Span
import UnionAtlas.NameTable

/-!
# Types and unions

A type table gives every type a number and owns the unions. Number zero is no type. Unions are
nominal: each registration makes a new type, and the list of its cases is edited in place. A case is
a record with an identity of its own, so a case that was taken out of its union, or replaced by
a record of the same name, is listed no more. Each union has one tags class, made when it is first
asked for.
-/

namespace UnionAtlas

/-- The number of a type; zero is no type. -/
abbrev TypeId := Nat

/-- The kinds of types. -/
inductive TypeKind where
  | invalid
  | unit
  | bool
  | string
  | int
  | uint
  | float
  | union
  | tagsClass
  | other (code : UInt8)
  deriving Repr, DecidableEq

namespace TypeKind

/-- The kind with a number. -/
def ofCode (n : UInt8) : TypeKind :=
  match n with
  | 0 => .invalid
  | 1 => .unit
  | 2 => .bool
  | 3 => .string
  | 4 => .int
  | 5 => .uint
  | 6 => .float
  | 7 => .union
  | 8 => .tagsClass
  | n => .other n

/-- The word for a kind. -/
def render : TypeKind → Bytes
  | .invalid => text "invalid"
  | .unit => text "unit"
  | .bool => text "bool"
  | .string => text "string"
  | .int => text "int"
  | .uint => text "uint"
  | .float => text "float"
  | .union => text "union"
  | .tagsClass => text "tags"
  | .other code => text "Kind(" ++ Bytes.decimal code.toNat ++ text ")"

end TypeKind

/-- What a type is: its kind, the width of a number, and the place of a nominal type in its list. -/
structure TypeDesc where
  kind : TypeKind
  width : UInt8 := 0
  payload : Nat := 0
  deriving Repr, DecidableEq

namespace TypeDesc

/-- A signed integer type; width zero is the one without a width. -/
def int (width : UInt8) : TypeDesc := { kind := .int, width }

/-- An unsigned integer type. -/
def uint (width : UInt8) : TypeDesc := { kind := .uint, width }

/-- A floating-point type. -/
def float (width : UInt8) : TypeDesc := { kind := .float, width }

end TypeDesc

/-- The identity of a case record: the table that made it and the number it had there. -/
structure CaseKey where
  table : Nat
  serial : Nat
  deriving Repr, DecidableEq

/-- A case of a union. -/
structure UnionCase where
  key : CaseKey
  name : NameId
  union : TypeId
  decl : Span
  deriving Repr, DecidableEq

/-- What is known of a union. -/
structure UnionInfo where
  name : NameId
  decl : Span
  /-- The cases in declaration order. -/
  cases : List UnionCase
  /-- The tags class, once it was asked for. -/
  tags : Option TypeId
  deriving Repr, DecidableEq

/-- The types of one model. -/
structure TypeTable where
  /-- The identity of the table among others. -/
  ident : Nat
  /-- Descriptors by type number. -/
  types : List TypeDesc
  /-- Unions by place; places are counted from one. -/
  unions : List UnionInfo
  /-- The union that each tags class belongs to; places are counted from one. -/
  tagsOwners : List TypeId
  /-- Registrations by name, the latest first. -/
  registered : List (NameId × TypeId)
  /-- The serial number of the next case record. -/
  nextSerial : Nat
  deriving Repr, DecidableEq

/-- The numbers of the types that every table starts with. -/
structure Builtins where
  invalid : TypeId
  unit : TypeId
  bool : TypeId
  string : TypeId
  int : TypeId
  int32 : TypeId
  uint : TypeId
  float : TypeId
  deriving Repr, DecidableEq

/-- The types that every table starts with have the first numbers. -/
def builtins : Builtins := ⟨0, 1, 2, 3, 4, 5, 6, 7⟩

namespace TypeTable

/-- A table with the built-in types only. -/
def new (ident : Nat) : TypeTable where
  ident
  types := [{ kind := .invalid }, { kind := .unit }, { kind := .bool }, { kind := .string },
    .int 0, .int 32, .uint 0, .float 0]
  unions := []
  tagsOwners := []
  registered := []
  nextSerial := 0

instance : Inhabited TypeTable := ⟨new 0⟩

/-- The descriptor of a type. -/
def lookup? (t : TypeTable) (id : TypeId) : Option TypeDesc :=
  if id = 0 then none else t.types[id]?

/-- Adds a descriptor under a new number. -/
def append (t : TypeTable) (d : TypeDesc) : TypeId × TypeTable :=
  (t.types.length, { t with types := t.types ++ [d] })

/-- The number that was given to a descriptor last. -/
def findLast? (t : TypeTable) (d : TypeDesc) : Option TypeId :=
  (t.types.reverse.findIdx? (· == d)).map fun i => t.types.length - 1 - i

/-- The number of a descriptor, which is added if it is new. The invalid kind has number zero. -/
def intern (t : TypeTable) (d : TypeDesc) : TypeId × TypeTable :=
  if d.kind = .invalid then (0, t)
  else
    match t.findLast? d with
    | some id => (id, t)
    | none => t.append d

/-- The place of a union in the list of unions. -/
def unionPlace? (t : TypeTable) (id : TypeId) : Option Nat :=
  match t.lookup? id with
  | some d => if d.kind = .union ∧ d.payload ≠ 0 ∧ d.payload ≤ t.unions.length
      then some (d.payload - 1) else none
  | none => none

/-- What is known of a union. -/
def info? (t : TypeTable) (id : TypeId) : Option UnionInfo :=
  (t.unionPlace? id).bind fun place => t.unions[place]?

/-- Changes what is known of the union at a place. -/
def modifyUnion (t : TypeTable) (place : Nat) (f : UnionInfo → UnionInfo) : TypeTable :=
  { t with unions := t.unions.modify place f }

/-- Changes the case list of the union at a place. -/
def modifyCases (t : TypeTable) (place : Nat) (f : List UnionCase → List UnionCase) : TypeTable :=
  t.modifyUnion place fun info => { info with cases := f info.cases }

/-- A new union without cases. By its name, a later union hides an earlier one. -/
def registerUnion (t : TypeTable) (name : NameId) (decl : Span) : TypeId × TypeTable :=
  let place := t.unions.length + 1
  let listed : TypeTable := { t with unions := t.unions ++ [⟨name, decl, [], none⟩] }
  let (id, t) := listed.append { kind := .union, payload := place }
  (id, { t with registered := (name, id) :: t.registered })

/-- The union that was registered last under a name. -/
def unionByName? (t : TypeTable) (name : NameId) : Option TypeId :=
  (t.registered.find? (·.1 == name)).map (·.2)

/-- A new case record that no union lists. -/
def draftCase (t : TypeTable) (union : TypeId) (name : NameId) (decl : Span) :
    UnionCase × TypeTable :=
  (⟨⟨t.ident, t.nextSerial⟩, name, union, decl⟩, { t with nextSerial := t.nextSerial + 1 })

/-- A new case at the end of a union's list; nothing happens if the type is no union. -/
def addCase (t : TypeTable) (union : TypeId) (name : NameId) (decl : Span) :
    Option UnionCase × TypeTable :=
  match t.unionPlace? union with
  | none => (none, t)
  | some place =>
    let (uc, t) := t.draftCase union name decl
    (some uc, t.modifyCases place (· ++ [uc]))

/-- The cases of a union in declaration order. -/
def cases (t : TypeTable) (union : TypeId) : List UnionCase :=
  match t.info? union with
  | none => []
  | some info => info.cases

/-- The position of a case record in the list of its union. -/
def indexOf? (t : TypeTable) (uc : UnionCase) : Option Nat :=
  (t.cases uc.union).idxOf? uc

/-- Edits the list that holds a case record; false if no list does. -/
def editCase (t : TypeTable) (uc : UnionCase) (f : List UnionCase → List UnionCase) :
    Bool × TypeTable :=
  match t.unionPlace? uc.union, t.indexOf? uc with
  | some place, some _ => (true, t.modifyCases place f)
  | _, _ => (false, t)

/-- Takes a case out of its union. -/
def removeCase (t : TypeTable) (uc : UnionCase) : Bool × TypeTable :=
  t.editCase uc (·.erase uc)

/-- The position nearest to an integer in a list of the given length. -/
def clampPosition (target : Int) (length : Nat) : Nat :=
  (max 0 (min target length)).toNat

/-- A list with one of its members taken out and put in again at another position. -/
def moveTo (uc : UnionCase) (target : Int) (cs : List UnionCase) : List UnionCase :=
  let others := cs.erase uc
  others.insertIdx (clampPosition target others.length) uc

/-- Moves a case to another position of its union. -/
def moveCase (t : TypeTable) (uc : UnionCase) (target : Int) : Bool × TypeTable :=
  t.editCase uc (moveTo uc target)

/-- New case records, one for each name. -/
def draftCases (t : TypeTable) (union : TypeId) : List NameId → List UnionCase × TypeTable
  | [] => ([], t)
  | name :: names =>
    let (uc, t) := t.draftCase union name .none
    let (ucs, t) := t.draftCases union names
    (uc :: ucs, t)

/-- Puts new records in the place of all cases of a union. -/
def replaceCases (t : TypeTable) (union : TypeId) (names : List NameId) :
    List UnionCase × TypeTable :=
  match t.unionPlace? union with
  | none => ([], t)
  | some place =>
    let (ucs, t) := t.draftCases union names
    (ucs, t.modifyCases place fun _ => ucs)

/-- The numbers of all types of kind union, in order. -/
def unionIds (t : TypeTable) : List TypeId :=
  (t.types.zipIdx.filter fun p => p.1.kind = .union).map (·.2)

/-- The tags class of a union, which is made if there is none yet; none for what is no union. -/
def tagsClass (t : TypeTable) (union : TypeId) : Option TypeId × TypeTable :=
  match t.unionPlace? union with
  | none => (none, t)
  | some place =>
    match (t.unions[place]?).bind (·.tags) with
    | some tags => (some tags, t)
    | none =>
      let owned : TypeTable := { t with tagsOwners := t.tagsOwners ++ [union] }
      let (id, t) := owned.append { kind := .tagsClass, payload := t.tagsOwners.length + 1 }
      (some id, t.modifyUnion place fun info => { info with tags := some id })

/-- The union that a tags class belongs to. -/
def tagsOwner? (t : TypeTable) (tags : TypeId) : Option TypeId :=
  match t.lookup? tags with
  | some d => if d.kind = .tagsClass ∧ d.payload ≠ 0 then t.tagsOwners[d.payload - 1]? else none
  | none => none

end TypeTable
end UnionAtlas
