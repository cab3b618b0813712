import UnionAtlas.Element

/-!
# Several models at once

A universe holds any number of models, with one name table for all or one for each. Elements of
different models can be compared. Two views of a case are equal when they show the same record. Two
tags are equal when their names are and they live in the same tags class: the value of the tag plays
no part, so equality survives edits that move a case.
-/

namespace UnionAtlas

/-- Models with their name tables. -/
structure Universe where
  /-- Do all models use the first name table? -/
  shared : Bool
  tables : List NameTable
  models : List TypeTable
  deriving Repr, DecidableEq

/-- An element and the model it is seen in. -/
structure Located where
  model : Nat
  element : Element
  deriving Repr, DecidableEq

namespace Universe

/-- A universe of empty models. -/
def new (count : Nat) (shared : Bool) : Universe where
  shared
  tables := List.replicate count .empty
  models := (List.range count).map .new

/-- The universe of one model. -/
def single (m : Model) : Universe := ⟨true, [m.names], [m.types]⟩

/-- The number of the name table that a model uses. -/
def tableOf (u : Universe) (i : Nat) : Nat :=
  if u.shared then 0 else i

/-- A model with its names. -/
def get (u : Universe) (i : Nat) : Model :=
  ⟨u.tables.getD (u.tableOf i) default, u.models.getD i default⟩

/-- Puts a model in the place of another. -/
def set (u : Universe) (i : Nat) (m : Model) : Universe :=
  { u with tables := u.tables.set (u.tableOf i) m.names, models := u.models.set i m.types }

/-- Runs a change of one model. -/
def update {α : Type} (u : Universe) (i : Nat) (f : Model → α × Model) : α × Universe :=
  let (a, m) := f (u.get i)
  (a, u.set i m)

/-- The last part of an element's name. -/
def shortName (u : Universe) (l : Located) : Bytes :=
  l.element.shortName (u.get l.model)

/-- The hash of an element. -/
def hash (u : Universe) (l : Located) : UInt64 :=
  l.element.hash (u.get l.model)

/-- The tags class that a tag lives in, which is made if there is none yet. -/
def tagsClass (u : Universe) (i : Nat) (union : TypeId) : Option TypeId × Universe :=
  u.update i fun m => m.tagsClass union

/-- Do two views denote the same symbol? To compare two tags of one name their tags classes are
asked for. Views are told apart by what they show and have no identity of their own, so two cases
are left to whoever holds the views: a tag that is compared with itself, the very same view, is
equal at once, with no tags class asked for; and a view that is missing shows nothing to compare. -/
def equal (u : Universe) (a b : Located) : Bool × Universe :=
  match a.element, b.element with
  | .union i, .union j => (a.model == b.model && i == j, u)
  | .tagsClass i, .tagsClass j => (a.model == b.model && i == j, u)
  | .unionCase x, .unionCase y => (x == y, u)
  | .tag x, .tag y =>
    if u.shortName a = u.shortName b then
      let (tx, u) := u.tagsClass a.model x.union
      let (ty, u) := u.tagsClass b.model y.union
      (tx.isSome && ty.isSome && a.model == b.model && tx == ty, u)
    else (false, u)
  | _, _ => (false, u)

end Universe
end UnionAtlas
