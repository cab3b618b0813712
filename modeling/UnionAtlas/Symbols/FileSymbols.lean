import UnionAtlas.Element
import UnionAtlas.Search

/-!
# The symbols of one file

An index over the places of a file where a name is declared or used. It keeps the uses in the order
of their first offset; uses that start at the same offset stay in the order they were given in. It
answers by name, by offset, and by role: by name from the positions at which the name stands, by
offset from the last use that starts no later, found by halving.
-/

namespace UnionAtlas

/-- A place of a file where a name stands, and what it denotes. -/
structure SymbolUse where
  name : Bytes
  span : Span
  element : Option Element
  isDecl : Bool
  deriving Repr, DecidableEq

/-- One use starts no later than another. -/
def SymbolUse.startsBy (a b : SymbolUse) : Bool :=
  a.span.start ≤ b.span.start

/-- The positions at which each name stands, in their order; the names in the order of their first
positions. -/
abbrev NameIndex := List (Bytes × List Nat)

namespace NameIndex

/-- The positions of a name. -/
def positions? (index : NameIndex) (name : Bytes) : Option (List Nat) :=
  (index.find? (·.1 == name)).map (·.2)

/-- Puts a position behind those of its name. -/
def enter : NameIndex → Bytes → Nat → NameIndex
  | [], name, i => [(name, [i])]
  | (known, positions) :: rest, name, i =>
    if known == name then (known, positions ++ [i]) :: rest
    else (known, positions) :: enter rest name i

/-- The index of uses by their names. -/
def ofUses (uses : List SymbolUse) : NameIndex :=
  uses.zipIdx.foldl (fun index (u, i) => index.enter u.name i) []

end NameIndex

/-- The uses of one file, ordered by their first offset. -/
structure FileSymbols where
  uses : List SymbolUse
  deriving Repr, DecidableEq

namespace FileSymbols

/-- The index without uses. -/
def empty : FileSymbols := ⟨[]⟩

instance : Inhabited FileSymbols := ⟨empty⟩

/-- The index of a list of uses. -/
def ofUses (uses : List SymbolUse) : FileSymbols :=
  ⟨uses.mergeSort SymbolUse.startsBy⟩

/-- The number of uses. -/
def size (fs : FileSymbols) : Nat :=
  fs.uses.length

/-- Is there no use at all? -/
def isEmpty (fs : FileSymbols) : Bool :=
  fs.uses.isEmpty

/-- All uses of a name that stands somewhere. -/
def lookup? (fs : FileSymbols) (name : Bytes) : Option (List SymbolUse) :=
  ((NameIndex.ofUses fs.uses).positions? name).map (·.filterMap fun i => fs.uses[i]?)

/-- All uses of a name. -/
def lookup (fs : FileSymbols) (name : Bytes) : List SymbolUse :=
  (fs.lookup? name).getD []

/-- The use that covers an offset, among those that a test admits: of the uses that start no later
than the offset, the last one. -/
def covering? (fs : FileSymbols) (admitted : SymbolUse → Bool) (off : UInt32) : Option SymbolUse :=
  let stop := Search.first (off < ·.span.start) fs.uses
  (fs.uses.take stop).reverse.find? fun u => admitted u && u.span.contains off

/-- The use or declaration that covers an offset. -/
def useAt? (fs : FileSymbols) (off : UInt32) : Option SymbolUse :=
  fs.covering? (fun _ => true) off

/-- The declaration that covers an offset. -/
def declAt? (fs : FileSymbols) (off : UInt32) : Option SymbolUse :=
  fs.covering? SymbolUse.isDecl off

/-- The declarations. -/
def declared (fs : FileSymbols) : List SymbolUse :=
  fs.uses.filter (·.isDecl)

/-- The uses that are no declarations. -/
def resolved (fs : FileSymbols) : List SymbolUse :=
  fs.uses.filter (!·.isDecl)

@[simp] theorem size_ofUses (uses : List SymbolUse) : (ofUses uses).size = uses.length := by
  simp [ofUses, size]

end FileSymbols

/-- A question to the symbols of a file. -/
inductive Question where
  /-- All of them. -/
  | symbols
  | lookup (name : Bytes)
  | useAt (off : UInt32)
  | declAt (off : UInt32)
  deriving Repr, DecidableEq

end UnionAtlas
