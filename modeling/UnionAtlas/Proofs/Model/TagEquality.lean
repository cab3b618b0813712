import Mathlib.Data.List.GetD
import UnionAtlas.Proofs.Model.Edits
import UnionAtlas.Universe

/-!
# Tags that are equal

A union has one tags class: once it is made, it is given to everybody who asks, under every number
that the union goes by. Two tags of one model are therefore equal if they have the same name and
belong to the same union, and it does not matter which of them makes the tags class.
-/

namespace UnionAtlas
namespace TypeTable

variable {t : TypeTable} {id id' : TypeId} {place : Nat}

/-- The tags class of the union at a place, once it was asked for. -/
def tagsAt? (t : TypeTable) (place : Nat) : Option TypeId :=
  (t.unions[place]?).bind (·.tags)

theorem tagsClass_of_tagsAt? {tags : TypeId} (found : t.unionPlace? id = some place)
    (made : t.tagsAt? place = some tags) : t.tagsClass id = (some tags, t) := by
  rw [tagsAt?] at made
  simp only [tagsClass, found, made]

/-- Whoever asks for the tags class of a union is given it, and it is there from then on. -/
theorem tagsClass_of_place (found : t.unionPlace? id = some place) :
    ∃ tags, (t.tagsClass id).1 = some tags ∧ (t.tagsClass id).2.tagsAt? place = some tags := by
  cases made : t.tagsAt? place with
  | some tags =>
    rw [tagsClass_of_tagsAt? found made]
    exact ⟨tags, rfl, made⟩
  | none =>
    rw [tagsAt?] at made
    simp only [tagsClass, found, made]
    refine ⟨t.types.length, rfl, ?_⟩
    have bound := bound_of_unionPlace? found
    simp [tagsAt?, modifyUnion, append, List.getElem?_eq_getElem bound]

/-- All who ask are given the same. -/
theorem tagsClass_again (found : t.unionPlace? id = some place)
    (found' : t.unionPlace? id' = some place) :
    (t.tagsClass id).1.isSome ∧ ((t.tagsClass id).2.tagsClass id').1 = (t.tagsClass id).1 := by
  obtain ⟨tags, given, made⟩ := tagsClass_of_place found
  have still := (evolves_tagsClass t id).unionPlace? found'
  rw [tagsClass_of_tagsAt? still made, given]
  exact ⟨rfl, rfl⟩

/-! ## What making a tags class leaves alone -/

theorem casesAt_tagsClass (t : TypeTable) (id : TypeId) (place : Nat) :
    (t.tagsClass id).2.casesAt place = t.casesAt place := by
  unfold tagsClass
  split
  · rfl
  · split
    · rfl
    · simp only [append, casesAt_modifyUnion]
      split <;> rfl

theorem unionPlace?_tagsClass (t : TypeTable) (id other : TypeId) :
    (t.tagsClass id).2.unionPlace? other = t.unionPlace? other := by
  unfold tagsClass
  split
  · rfl
  · split
    · rfl
    · simp only [unionPlace?, lookup?, append, modifyUnion, List.length_modify]
      by_cases old : other < t.types.length
      · rw [List.getElem?_append_left old]
      · have beyond := List.getElem?_eq_none (Nat.not_lt.mp old)
        rw [List.getElem?_append_right (Nat.not_lt.mp old), beyond, List.getElem?_singleton]
        -- The tags class is no union either.
        by_cases last : other - t.types.length = 0
        · rw [if_pos last]
          by_cases zero : other = 0 <;> simp [zero]
        · rw [if_neg last]

/-- The tags class is made without touching any case list. -/
theorem cases_tagsClass (t : TypeTable) (id other : TypeId) :
    (t.tagsClass id).2.cases other = t.cases other := by
  cases found : t.unionPlace? other with
  | none =>
    have absent := (unionPlace?_tagsClass t id other).trans found
    rw [cases_of_no_place found, cases_of_no_place absent]
  | some place =>
    have there := (unionPlace?_tagsClass t id other).trans found
    rw [cases_of_place found, cases_of_place there, casesAt_tagsClass]

/-- The unions keep their names. -/
theorem infoName_tagsClass (t : TypeTable) (id other : TypeId) :
    ((t.tagsClass id).2.info? other).map (·.name) = (t.info? other).map (·.name) := by
  rw [info?, info?, unionPlace?_tagsClass, Option.map_bind, Option.map_bind]
  refine congrArg _ (funext fun place => ?_)
  simp only [Function.comp_apply]
  unfold tagsClass
  split
  · rfl
  · split
    · rfl
    · simp only [modifyUnion, append, List.getElem?_modify]
      cases t.unions[place]? with
      | none => rfl
      | some info => split <;> rfl

end TypeTable

namespace Universe

variable {u : Universe} {i place : Nat} {id : TypeId}

/-- A model with a union is one of the universe. -/
theorem lt_length_of_place (found : (u.get i).types.unionPlace? id = some place) :
    i < u.models.length := by
  by_contra beyond
  have bound := TypeTable.bound_of_unionPlace? found
  have absent : (u.get i).types = TypeTable.new 0 := by
    rw [get, List.getD_eq_default _ _ (Nat.not_lt.mp beyond)]
    rfl
  rw [absent] at bound
  exact Nat.not_lt_zero _ bound

theorem types_tagsClass (found : (u.get i).types.unionPlace? id = some place) :
    ((u.tagsClass i id).2.get i).types = ((u.get i).types.tagsClass id).2 := by
  have bound := lt_length_of_place found
  simp [tagsClass, update, set, get, Model.tagsClass, bound]

/-- Two tags of one name and one union are equal. -/
theorem equal_tags {x y : UnionCase}
    (same : (u.get i).nameOf x.name = (u.get i).nameOf y.name)
    (found : (u.get i).types.unionPlace? x.union = some place)
    (found' : (u.get i).types.unionPlace? y.union = some place) :
    (u.equal ⟨i, .tag x⟩ ⟨i, .tag y⟩).1 = true := by
  -- The first question may make the tags class, so the second is put to another universe.
  have first : (u.tagsClass i x.union).1 = ((u.get i).types.tagsClass x.union).1 := rfl
  have second : ((u.tagsClass i x.union).2.tagsClass i y.union).1 =
      (((u.tagsClass i x.union).2.get i).types.tagsClass y.union).1 := rfl
  obtain ⟨given, again⟩ := TypeTable.tagsClass_again found found'
  have named : u.shortName ⟨i, .tag x⟩ = u.shortName ⟨i, .tag y⟩ := same
  simp only [equal, named, if_true, second, first, types_tagsClass found, again, given]
  simp

end Universe
end UnionAtlas
