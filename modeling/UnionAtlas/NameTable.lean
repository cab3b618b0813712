import UnionAtlas.Text.Bytes

/-!
# Names and their numbers

A name table gives every name it has seen a number, counted from zero in the order of first
appearance. The empty name is in every table and has number zero.
-/

namespace UnionAtlas

/-- The number of a name. -/
abbrev NameId := Nat

/-- The names by number. -/
structure NameTable where
  names : List Bytes
  deriving Repr, DecidableEq

namespace NameTable

/-- The table that knows the empty name only. -/
def empty : NameTable := ⟨[[]]⟩

instance : Inhabited NameTable := ⟨empty⟩

/-- The number of a name that the table knows. -/
def find? (t : NameTable) (s : Bytes) : Option NameId :=
  t.names.findIdx? (· == s)

/-- The number of a name, which is added to the table if it is new. -/
def intern (t : NameTable) (s : Bytes) : NameId × NameTable :=
  match t.find? s with
  | some id => (id, t)
  | none => (t.names.length, ⟨t.names ++ [s]⟩)

/-- The name with a number. -/
def lookup? (t : NameTable) (id : NameId) : Option Bytes :=
  t.names[id]?

/-- The number of names, the empty one included. -/
def size (t : NameTable) : Nat :=
  t.names.length

/-- The numbers of several names, added in order. -/
def internAll (t : NameTable) : List Bytes → List NameId × NameTable
  | [] => ([], t)
  | s :: rest =>
    let (id, t) := t.intern s
    let (ids, t) := t.internAll rest
    (id :: ids, t)

/-- A number that was found is the number of the name. -/
theorem lookup?_of_find? {t : NameTable} {s : Bytes} {id : NameId} (h : t.find? s = some id) :
    t.lookup? id = some s := by
  obtain ⟨hlt, hs, -⟩ := List.findIdx?_eq_some_iff_getElem.1 h
  rw [lookup?, List.getElem?_eq_getElem hlt]
  simpa using hs

/-- An added name is found under its number. -/
theorem lookup?_intern (t : NameTable) (s : Bytes) :
    (t.intern s).2.lookup? (t.intern s).1 = some s := by
  unfold intern
  split
  · next id h => exact lookup?_of_find? h
  · simp [lookup?]

/-- Names are added at the end only. -/
theorem names_isPrefix_intern (t : NameTable) (s : Bytes) : t.names <+: (t.intern s).2.names := by
  unfold intern
  split
  · exact List.prefix_rfl
  · exact List.prefix_append _ _

end NameTable
end UnionAtlas
