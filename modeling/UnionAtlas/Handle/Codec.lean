import UnionAtlas.Element
import UnionAtlas.Handle.Wire

/-!
# Handles

A handle is what is stored of a case or of a tag between sessions: the name of the union and the
name of the case. It is resolved in a later state of the model, where the case may have moved or be
another record of the same name. This module holds handles, how they are resolved, and the map of
four fields that they are stored as.
-/

namespace UnionAtlas

/-- Does a handle stand for a case or for its tag? -/
inductive HandleKind where
  | unionCase
  | tag
  deriving Repr, DecidableEq

/-- What is stored of a case or of a tag. -/
structure Handle where
  kind : HandleKind
  union : Bytes
  case : Bytes
  deriving Repr, DecidableEq

/-- The version of the stored form. -/
def handleSchema : Nat := 1

/-- Why stored bytes are no handle. -/
inductive HandleError where
  /-- They are no map of the expected form. -/
  | malformed
  /-- They were stored in another version. -/
  | schema (version : Nat)
  /-- They stand for something that is neither a case nor a tag. -/
  | kind (code : Nat)
  deriving Repr, DecidableEq

namespace HandleError

/-- The message of a decoding error. What exactly is wrong with the bytes is not told. -/
def message : HandleError → Bytes
  | .malformed => text "decode pointer: malformed"
  | .schema v => text "unknown pointer schema: " ++ Bytes.decimal v
  | .kind k => text "unknown pointer kind: " ++ Bytes.decimal k

end HandleError

namespace Model

/-- The handle of a case or of its tag. -/
def handleOf (m : Model) (kind : HandleKind) (uc : UnionCase) : Handle :=
  ⟨kind, m.unionName uc.union, m.nameOf uc.name⟩

/-- The first case with the stored name in the union that now has the stored name. -/
def resolveCase? (m : Model) (union case : Bytes) : Option UnionCase := do
  let unionName ← m.names.find? union
  let id ← m.types.unionByName? unionName
  let caseName ← m.names.find? case
  (m.types.cases id).find? (·.name == caseName)

/-- The element that a handle stands for now. -/
def resolveHandle? (m : Model) (h : Handle) : Option Element :=
  (m.resolveCase? h.union h.case).map fun uc =>
    match h.kind with
    | .unionCase => .unionCase uc
    | .tag => .tag uc

end Model

namespace Handle

/-- The four stored fields. -/
structure Fields where
  version : Nat := 0
  kind : Nat := 0
  union : Bytes := []
  case : Bytes := []
  deriving Repr, DecidableEq

/-- The names of the fields in stored order. -/
inductive Field where
  | version
  | kind
  | union
  | case
  deriving Repr, DecidableEq

/-- The field with a key. -/
def Field.ofKey? (key : Bytes) : Option Field :=
  if key = text "v" then some .version
  else if key = text "k" then some .kind
  else if key = text "u" then some .union
  else if key = text "c" then some .case
  else none

/-- Reads the value of a field. Numbers keep the bits that their field has room for. -/
def Fields.read? (f : Fields) (field : Field) (bs : Bytes) : Option (Fields × Bytes) :=
  match field with
  | .version =>
    (Wire.word? bs).map fun (v, rest) => ({ f with version := v.toNat % 65536 }, rest)
  | .kind => (Wire.word? bs).map fun (v, rest) => ({ f with kind := v.toNat % 256 }, rest)
  | .union => (Wire.string? bs).map fun (s, rest) => ({ f with union := s }, rest)
  | .case => (Wire.string? bs).map fun (s, rest) => ({ f with case := s }, rest)

/-- Reads the entries of a map. Unknown keys are passed over, and of two entries with one key the
later counts. -/
def Fields.readEntries? : Nat → Fields → Bytes → Option (Fields × Bytes)
  | 0, f, bs => some (f, bs)
  | n + 1, f, bs =>
    match Wire.string? bs with
    | none => none
    | some (key, rest) =>
      match Field.ofKey? key with
      | some field =>
        match f.read? field rest with
        | none => none
        | some (f, rest) => Fields.readEntries? n f rest
      | none =>
        match Wire.skip? rest with
        | none => none
        | some rest => Fields.readEntries? n f rest

/-- Reads all four fields without keys, in stored order. -/
def Fields.readValues? (fields : List Field) (f : Fields) (bs : Bytes) : Option (Fields × Bytes) :=
  match fields with
  | [] => some (f, bs)
  | field :: more =>
    match f.read? field bs with
    | none => none
    | some (f, rest) => Fields.readValues? more f rest

/-- Reads a map, an array of all four values, or nothing: an absent value and the empty array have
no field set. What follows is left alone. -/
def Fields.decode? : Bytes → Option (Fields × Bytes)
  | [] => none
  | code :: rest =>
    if code == 0xC0 then some ({}, rest)
    else
      match Wire.mapLength? code rest with
      | some (n, rest) => Fields.readEntries? n {} rest
      | none =>
        match Wire.arrayLength? code rest with
        | some (0, rest) => some ({}, rest)
        | some (4, rest) => Fields.readValues? [.version, .kind, .union, .case] {} rest
        | _ => none

/-- The number that stands for a kind. -/
def kindCode : HandleKind → Nat
  | .unionCase => 1
  | .tag => 2

/-- The stored form of a handle: a map of four entries. -/
def encode (h : Handle) : Bytes :=
  0x84 :: (Wire.putString (text "v") ++ Wire.putShort handleSchema
    ++ Wire.putString (text "k") ++ Wire.putByte (kindCode h.kind)
    ++ Wire.putString (text "u") ++ Wire.putString h.union
    ++ Wire.putString (text "c") ++ Wire.putString h.case)

/-- Reads the stored form of a handle; bytes after it do not matter. -/
def decode (bs : Bytes) : Except HandleError Handle :=
  match Fields.decode? bs with
  | none => .error .malformed
  | some (f, _) =>
    if f.version ≠ handleSchema then .error (.schema f.version)
    else if f.kind = 1 then .ok ⟨.unionCase, f.union, f.case⟩
    else if f.kind = 2 then .ok ⟨.tag, f.union, f.case⟩
    else .error (.kind f.kind)

end Handle
end UnionAtlas
