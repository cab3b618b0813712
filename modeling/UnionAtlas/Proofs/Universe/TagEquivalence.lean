import UnionAtlas.Proofs.Universe.Edits

/-!
# Equality of tags in several models

Two tags are compared by their names and their tags classes, and a tags class that is missing is
made for the comparison. A union has one tags class and shares it with no other union. Hence two
tags are equal exactly when they are of one model and one union and have the same name, whichever
records they stand for; and this answer is not changed by any later operation, nor by comparing.
-/

namespace UnionAtlas

/-- A tag of a universe: its case is of a union of the model, and its name is known there. -/
structure KnownTag (u : Universe) where
  model : Nat
  origin : UnionCase
  registered : ((u.get model).types.info? origin.union).isSome
  named : ((u.get model).names.lookup? origin.name).isSome

namespace KnownTag

variable {u : Universe}

def located (t : KnownTag u) : Located :=
  ⟨t.model, .tag t.origin⟩

theorem place (t : KnownTag u) :
    ∃ place, (u.get t.model).types.unionPlace? t.origin.union = some place := by
  obtain ⟨info, known⟩ := Option.isSome_iff_exists.mp t.registered
  exact TypeTable.place_of_info? known

theorem inside (t : KnownTag u) : t.model < u.models.length :=
  Universe.lt_length_of_place t.place.choose_spec

end KnownTag

namespace TypeTable

theorem isSome_info? {t : TypeTable} {id : TypeId} {place : Nat}
    (found : t.unionPlace? id = some place) : (t.info? id).isSome := by
  rw [info?, found, Option.bind_some, List.getElem?_eq_getElem (bound_of_unionPlace? found)]
  rfl

end TypeTable

namespace Universe

variable {u : Universe} {later : List (Nat × ModelEdit)}

theorem Reachable.linked {i : Nat} (reachable : u.Reachable) (inside : i < u.models.length) :
    (u.get i).types.Linked := by
  obtain ⟨edits, plain, same⟩ := reachable.get inside
  rw [same]
  exact Model.linked_editAll (TypeTable.linked_new i) plain

/-- What is compared: names, models, and the tags classes that the models give. -/
theorem equal_tag_iff (u : Universe) (i j : Nat) (x y : UnionCase) :
    (u.equal ⟨i, .tag x⟩ ⟨j, .tag y⟩).1 = true ↔
      u.shortName ⟨i, .tag x⟩ = u.shortName ⟨j, .tag y⟩ ∧ i = j ∧
        ∃ tags, (u.tagsClass i x.union).1 = some tags ∧
          ((u.tagsClass i x.union).2.tagsClass j y.union).1 = some tags := by
  by_cases named : u.shortName ⟨i, .tag x⟩ = u.shortName ⟨j, .tag y⟩
  · simp only [equal, named, if_true, true_and]
    cases (u.tagsClass i x.union).1 with
    | none => simp
    | some tags =>
      cases ((u.tagsClass i x.union).2.tagsClass j y.union).1 with
      | none => simp
      | some tags' => simp [eq_comm (a := tags)]
  · simp [equal, named]

/-- Tags that share a tags class are of one union, also if it is made for the comparison. -/
theorem union_of_shared {i : Nat} {x y : UnionCase} {tags : TypeId}
    (linked : (u.get i).types.Linked) (given : (u.tagsClass i x.union).1 = some tags)
    (given' : ((u.tagsClass i x.union).2.tagsClass i y.union).1 = some tags) :
    x.union = y.union := by
  have asked : ((u.get i).types.tagsClass x.union).1 = some tags := given
  obtain ⟨place, found, made⟩ := TypeTable.tagsClass_eq_some asked
  have adds := TypeTable.adds_tagsClass (u.get i).types x.union
  have again : ((((u.tagsClass i x.union).2).get i).types.tagsClass y.union).1 = some tags := given'
  rw [types_tagsClass found] at again
  have found' := adds.extends.unionPlace?_some linked.toRooted found
  exact ((linked.adds adds).eq_of_tagsClass found' made again).symm

theorem equal_knownTag_iff (reachable : u.Reachable) (t o : KnownTag u) :
    (u.equal t.located o.located).1 = true ↔
      t.model = o.model ∧ t.origin.union = o.origin.union ∧
        u.shortName t.located = u.shortName o.located := by
  constructor
  · intro equal
    obtain ⟨named, model, tags, given, given'⟩ := (equal_tag_iff u _ _ _ _).mp equal
    refine ⟨model, ?_, named⟩
    rw [← model] at given'
    exact union_of_shared (reachable.linked t.inside) given given'
  · rintro ⟨model, union, named⟩
    obtain ⟨place, found⟩ := t.place
    have found' := found
    rw [union] at found'
    obtain ⟨j, y, registered, interned⟩ := o
    subst model
    exact equal_tags named found found'

/-- To compare two elements is to do some operations. -/
theorem equal_snd (u : Universe) (a b : Located) :
    ∃ edits, (∀ p ∈ edits, p.2.Plain) ∧ (u.equal a b).2 = u.editAll edits := by
  obtain ⟨i, a⟩ := a
  obtain ⟨j, b⟩ := b
  cases a with
  | tag x =>
    cases b with
    | tag y =>
      by_cases named : u.shortName ⟨i, .tag x⟩ = u.shortName ⟨j, .tag y⟩
      · refine ⟨[(i, .tagsClass x.union), (j, .tagsClass y.union)], by simp [ModelEdit.Plain], ?_⟩
        simp only [equal, named, if_true]
        rfl
      · exact ⟨[], by simp, by simp [equal, named, editAll]⟩
    | _ => exact ⟨[], by simp, rfl⟩
  | _ => cases b <;> exact ⟨[], by simp, rfl⟩

end Universe

namespace KnownTag

variable {u : Universe} {later : List (Nat × ModelEdit)}

section Kept

variable (t : KnownTag u) (complete : u.Complete) (plain : ∀ p ∈ later, p.2.Plain)

include complete plain in
theorem known_editAll :
    (∃ place, ((u.editAll later).get t.model).types.unionPlace? t.origin.union = some place) ∧
      ((u.editAll later).get t.model).names.lookup? t.origin.name =
        (u.get t.model).names.lookup? t.origin.name := by
  obtain ⟨edits, -, seen⟩ := Universe.get_editAll complete t.inside plain
  obtain ⟨place, found⟩ := t.place
  obtain ⟨name, named⟩ := Option.isSome_iff_exists.mp t.named
  rw [seen, named]
  exact ⟨⟨place, Model.unionPlace?_editAll found edits⟩, Model.lookup?_editAll named edits⟩

/-- A tag that is known stays known. -/
def kept : KnownTag (u.editAll later) where
  model := t.model
  origin := t.origin
  registered := TypeTable.isSome_info? (t.known_editAll complete plain).1.choose_spec
  named := (t.known_editAll complete plain).2 ▸ t.named

theorem located_kept : (t.kept complete plain).located = t.located := rfl

include complete plain in
theorem shortName_kept : (u.editAll later).shortName t.located = u.shortName t.located := by
  have named := (t.known_editAll complete plain).2
  simp only [Universe.shortName, located, Element.shortName, Model.nameOf, named]

end Kept

end KnownTag

namespace Universe

variable {u : Universe}

theorem equal_editAll (reachable : u.Reachable) (t o : KnownTag u) {later : List (Nat × ModelEdit)}
    (plain : ∀ p ∈ later, p.2.Plain) :
    ((u.editAll later).equal t.located o.located).1 = (u.equal t.located o.located).1 := by
  have complete := reachable.complete
  have now := equal_knownTag_iff (reachable.editAll plain) (t.kept complete plain)
    (o.kept complete plain)
  rw [KnownTag.located_kept, KnownTag.located_kept, t.shortName_kept complete plain,
    o.shortName_kept complete plain] at now
  exact Bool.eq_iff_iff.mpr (now.trans (equal_knownTag_iff reachable t o).symm)

/-- For the tags of a universe: two are equal exactly when they are of one model and one union and
have the same name; this is an equivalence, and equal tags have the same hash; and no operation on
any model changes whether two tags are equal, nor does comparing any two elements. -/
theorem tag_equality_of_reachable (reachable : u.Reachable) :
    (∀ t o : KnownTag u, (u.equal t.located o.located).1 = true ↔
      t.model = o.model ∧ t.origin.union = o.origin.union ∧
        u.shortName t.located = u.shortName o.located) ∧
    (Equivalence fun t o : KnownTag u => (u.equal t.located o.located).1 = true) ∧
    (∀ t o : KnownTag u, (u.equal t.located o.located).1 = true →
      u.hash t.located = u.hash o.located) ∧
    ∀ (t o : KnownTag u) (a b : Located) (later : List (Nat × ModelEdit)),
      (∀ p ∈ later, p.2.Plain) →
      ((u.editAll later).equal t.located o.located).1 = (u.equal t.located o.located).1 ∧
      (((u.equal a b).2.editAll later).equal t.located o.located).1 =
        (u.equal t.located o.located).1 := by
  have same := equal_knownTag_iff reachable
  refine ⟨same, ⟨?_, ?_, ?_⟩, ?_, ?_⟩
  · intro t
    exact (same t t).mpr ⟨rfl, rfl, rfl⟩
  · intro t o equal
    obtain ⟨model, union, named⟩ := (same t o).mp equal
    exact (same o t).mpr ⟨model.symm, union.symm, named.symm⟩
  · intro t o r first second
    obtain ⟨model, union, named⟩ := (same t o).mp first
    obtain ⟨model', union', named'⟩ := (same o r).mp second
    exact (same t r).mpr ⟨model.trans model', union.trans union', named.trans named'⟩
  · intro t o equal
    obtain ⟨-, -, named⟩ := (same t o).mp equal
    exact congrArg fnv1a named
  · intro t o a b later plain
    refine ⟨equal_editAll reachable t o plain, ?_⟩
    obtain ⟨edits, plain', compared⟩ := u.equal_snd a b
    rw [compared, ← editAll_append]
    refine equal_editAll reachable t o ?_
    rw [List.forall_mem_append]
    exact ⟨plain', plain⟩

/-- Two models share their names and have a union of one name with a case of one name. A case that
was replaced and its successor have equal tags; the case of the other model has not, although its
union and its name have the same numbers. Moving the successor changes nothing. -/
theorem tag_equality_of_reachable_replaced :
    let u := (new 2 true).editAll [(0, .name (text "U")), (0, .name (text "A")),
      (0, .register 1 .none), (0, .add 8 2 .none), (1, .register 1 .none), (1, .add 8 2 .none),
      (0, .replace 8 [2, 1])]
    let stale : UnionCase := ⟨⟨0, 0⟩, 2, 8, .none⟩
    let heir : UnionCase := ⟨⟨0, 1⟩, 2, 8, .none⟩
    let foreign : UnionCase := ⟨⟨1, 0⟩, 2, 8, .none⟩
    (u.equal ⟨0, .tag stale⟩ ⟨0, .tag heir⟩).1 = true ∧
      (u.equal ⟨0, .tag heir⟩ ⟨1, .tag foreign⟩).1 ≠ true ∧
      (((u.equal ⟨0, .tag heir⟩ ⟨1, .tag foreign⟩).2.editAll [(0, .move (some heir) 9)]).equal
        ⟨0, .tag stale⟩ ⟨0, .tag heir⟩).1 = true := by
  intro u stale heir foreign
  have reachable : u.Reachable := ⟨2, true, _, by simp [ModelEdit.Plain], rfl⟩
  let old : KnownTag u := ⟨0, stale, by decide, by decide⟩
  let young : KnownTag u := ⟨0, heir, by decide, by decide⟩
  let other : KnownTag u := ⟨1, foreign, by decide, by decide⟩
  obtain ⟨same, -, -, kept⟩ := tag_equality_of_reachable reachable
  have equal : (u.equal old.located young.located).1 = true := (same old young).mpr ⟨rfl, rfl, rfl⟩
  refine ⟨equal, fun across => ?_, ?_⟩
  · exact absurd ((same young other).mp across).1 (by decide)
  · have later := kept old young young.located other.located [(0, .move (some heir) 9)]
      (by simp [ModelEdit.Plain])
    exact later.2.trans equal

end Universe
end UnionAtlas
