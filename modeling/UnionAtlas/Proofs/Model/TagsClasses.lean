import Mathlib.Data.List.Induction
import UnionAtlas.Proofs.Model.Links

/-!
# Tags classes over an edit history

The unions of a model are those that were registered, and its tags classes are those that somebody
asked for. Each union has one tags class, which is the same for ever and which no other union has.
-/

namespace UnionAtlas
namespace TypeTable

variable {t : TypeTable} {id owner tags : TypeId}

theorem mem_unionIds : id ∈ t.unionIds ↔ ∃ d, t.types[id]? = some d ∧ d.kind = .union := by
  simp only [unionIds, List.mem_map, List.mem_filter, Prod.exists, List.mem_zipIdx_iff_getElem?,
    decide_eq_true_eq, exists_eq_right]

/-- No number is that of a union and of a tags class. -/
theorem not_mem_unionIds_of_tagsOwner? (found : t.tagsOwner? id = some owner) :
    id ∉ t.unionIds := by
  intro listed
  obtain ⟨d, known, kind⟩ := mem_unionIds.mp listed
  obtain ⟨d', known', kind', -⟩ := tagsOwner?_eq_some_iff.mp found
  rw [lookup?] at known'
  split at known'
  · cases known'
  · obtain rfl := Option.some.inj (known.symm.trans known')
    rw [kind] at kind'
    cases kind'

end TypeTable

namespace Model

open TypeTable (Adds Extends)

variable {m : Model} {edits : List ModelEdit}

/-! ## Histories of a model -/

/-- At some moment of a history, such an operation was done. -/
def Happened (P : Model → ModelEdit → Prop) (m : Model) (edits : List ModelEdit) : Prop :=
  ∃ before e after, edits = before ++ e :: after ∧ P (m.editAll before) e

theorem happened_nil (P : Model → ModelEdit → Prop) (m : Model) : ¬ Happened P m [] := by
  rintro ⟨before, e, after, split, -⟩
  simp at split

theorem happened_append_singleton {P : Model → ModelEdit → Prop} {e : ModelEdit} :
    Happened P m (edits ++ [e]) ↔ Happened P m edits ∨ P (m.editAll edits) e := by
  constructor
  · rintro ⟨before, e', after, split, done⟩
    rcases List.eq_nil_or_concat' after with rfl | ⟨after, last, rfl⟩
    · obtain ⟨rfl, same⟩ := List.append_inj' split rfl
      obtain rfl := List.singleton_inj.mp same
      exact .inr done
    · rw [← List.cons_append, ← List.append_assoc] at split
      obtain ⟨rfl, -⟩ := List.append_inj' split rfl
      exact .inl ⟨before, e', after, rfl, done⟩
  · rintro (⟨before, e', after, rfl, done⟩ | done)
    · exact ⟨before, e', after ++ [e], by simp, done⟩
    · exact ⟨edits, e, [], rfl, done⟩

/-- The operation registers the union. -/
def Registers (union : TypeId) (m : Model) (e : ModelEdit) : Prop :=
  ∃ name decl, e = .register name decl ∧ (m.types.registerUnion name decl).1 = union

/-- The operation asks for a tags class and is given this one. -/
def Gives (tags : TypeId) (m : Model) (e : ModelEdit) : Prop :=
  ∃ union, e = .tagsClass union ∧ (m.tagsClass union).1 = some tags

theorem linked_history (ident : Nat) (plain : ∀ e ∈ edits, e.Plain) :
    ((new ident).editAll edits).types.Linked :=
  linked_editAll (TypeTable.linked_new ident) plain

/-- The unions of a model are those that were registered. -/
theorem unionPlace?_eq_none_iff_history (ident : Nat) (plain : ∀ e ∈ edits, e.Plain)
    (union : TypeId) :
    ((new ident).editAll edits).types.unionPlace? union = none ↔
      ¬ Happened (Registers union) (new ident) edits := by
  induction edits using List.reverseRecOn with
  | nil =>
    refine iff_of_true ?_ (happened_nil _ _)
    by_contra some
    obtain ⟨place, found⟩ := Option.ne_none_iff_exists'.mp some
    exact Nat.not_lt_zero _ (TypeTable.bound_of_unionPlace? found)
  | append_singleton edits e ih =>
    rw [List.forall_mem_append, List.forall_mem_singleton] at plain
    obtain ⟨earlier, last⟩ := plain
    have rooted := (linked_history ident earlier).toRooted
    have adds := ((new ident).editAll edits).adds_edit last
    rw [happened_append_singleton, not_or, ← ih earlier, editAll_append]
    set m := (new ident).editAll edits
    change (m.edit e).types.unionPlace? union = none ↔ _
    constructor
    · intro absent
      refine ⟨?_, ?_⟩
      · by_contra some
        obtain ⟨place, found⟩ := Option.ne_none_iff_exists'.mp some
        rw [adds.extends.unionPlace?_some rooted found] at absent
        cases absent
      · rintro ⟨name, decl, rfl, rfl⟩
        have found := TypeTable.unionPlace?_registerUnion rooted.nonempty name decl
        exact Option.some_ne_none _ (found.symm.trans absent)
    · rintro ⟨absent, other⟩
      by_contra some
      obtain ⟨place, found⟩ := Option.ne_none_iff_exists'.mp some
      rcases adds.unionPlace?_cases rooted found with old | ⟨rfl, -, name, decl, rfl⟩
      · rw [absent] at old
        cases old
      · exact other ⟨name, decl, rfl, rfl⟩

/-- Every tags class was given to somebody who asked for it. -/
theorem happened_gives (ident : Nat) (plain : ∀ e ∈ edits, e.Plain) {tags owner : TypeId}
    (found : ((new ident).editAll edits).types.tagsOwner? tags = some owner) :
    Happened (Gives tags) (new ident) edits := by
  induction edits using List.reverseRecOn with
  | nil =>
    obtain ⟨place, there, -⟩ := (TypeTable.linked_new ident).owner found
    exact absurd (TypeTable.bound_of_unionPlace? there) (Nat.not_lt_zero _)
  | append_singleton edits e ih =>
    rw [List.forall_mem_append, List.forall_mem_singleton] at plain
    obtain ⟨earlier, last⟩ := plain
    have rooted := (linked_history ident earlier).toRooted
    have adds := ((new ident).editAll edits).adds_edit last
    rw [editAll_append] at found
    rw [happened_append_singleton]
    rcases adds.tagsOwner?_cases rooted found with old | ⟨-, rfl, place, there, -, made⟩
    · exact .inl (ih earlier old)
    · obtain ⟨tags', given, made'⟩ := TypeTable.tagsClass_of_place there
      obtain rfl := Option.some.inj (made.symm.trans made')
      exact .inr ⟨owner, rfl, given⟩

/-- While no union and no tags class is made by hand: the tags class of a number is there exactly
when a union was registered under it; whoever asks again, at any later time, is given the same; its
owner is that union; it is no union itself, and no other union has it; a number has an owner only if
it was given to somebody who asked, and then its owner has it; and descriptors, names of unions and
owners are never changed for a number that exists. -/
theorem tags_classes_of_plain_history (ident : Nat) (plain : ∀ e ∈ edits, e.Plain) :
    let m := (new ident).editAll edits
    (∀ union, (m.tagsClass union).1 = none ↔ ¬ Happened (Registers union) (new ident) edits) ∧
    (∀ union tags, (m.tagsClass union).1 = some tags → ∀ later, (∀ e ∈ later, e.Plain) →
      let now := (m.edit (.tagsClass union)).editAll later
      (now.tagsClass union).1 = some tags ∧ now.types.tagsOwner? tags = some union ∧
      tags ∉ now.types.unionIds ∧
      ∀ other, other ≠ union → (now.tagsClass other).1 ≠ some tags) ∧
    (∀ tags union, m.types.tagsOwner? tags = some union →
      (m.tagsClass union).1 = some tags ∧ Happened (Gives tags) (new ident) edits) ∧
    ∀ later, (∀ e ∈ later, e.Plain) → ∀ id < m.types.types.length,
      let now := m.editAll later
      now.types.lookup? id = m.types.lookup? id ∧
      (now.types.info? id).map (·.name) = (m.types.info? id).map (·.name) ∧
      now.types.tagsOwner? id = m.types.tagsOwner? id := by
  intro m
  have linked : m.types.Linked := linked_history ident plain
  refine ⟨?_, ?_, ?_, ?_⟩
  · intro union
    exact TypeTable.tagsClass_eq_none_iff.trans (unionPlace?_eq_none_iff_history ident plain union)
  · intro union tags given later plain' now
    obtain ⟨place, found, made⟩ := TypeTable.tagsClass_eq_some given
    have asked : Adds m.types (.tagsClass union) (m.edit (.tagsClass union)).types :=
      m.adds_edit trivial
    have made' : now.types.tagsAt? place = some tags := tagsAt?_editAll made plain'
    have linked' : now.types.Linked := linked_editAll (linked.adds asked) plain'
    have found' : now.types.unionPlace? union = some place := by
      have first := asked.extends.unionPlace?_some linked.toRooted found
      exact (extends_editAll plain').unionPlace?_some (linked.adds asked).toRooted first
    have owned : now.types.tagsOwner? tags = some union := by
      obtain ⟨owner, there, owned⟩ := linked'.owned made'
      rwa [linked'.numbered found' there]
    refine ⟨?_, owned, TypeTable.not_mem_unionIds_of_tagsOwner? owned, ?_⟩
    · exact congrArg Prod.fst (TypeTable.tagsClass_of_tagsAt? found' made')
    · intro other different given'
      exact different (linked'.eq_of_tagsClass found' made' given')
  · intro tags union found
    obtain ⟨place, there, made⟩ := linked.owner found
    exact ⟨congrArg Prod.fst (TypeTable.tagsClass_of_tagsAt? there made),
      happened_gives ident plain found⟩
  · intro later plain' id old now
    have extension : Extends m.types now.types := extends_editAll plain'
    have rooted := linked.toRooted
    exact ⟨extension.lookup? old, extension.unionName rooted old, extension.tagsOwner? rooted old⟩

/-- Two unions of one name ask in turn, with other types between their numbers. -/
theorem tags_classes_of_plain_history_interleaved :
    let m := (new 0).editAll [.register 0 .none, .tagsClass 8, .intern (.int 8), .register 0 .none]
    let now := (m.edit (.tagsClass 11)).editAll [.tagsClass 8]
    (m.tagsClass 10).1 = none ∧ (now.tagsClass 11).1 = some 12 ∧
      now.types.tagsOwner? 12 = some 11 ∧ (now.tagsClass 8).1 ≠ some 12 ∧
      now.types.tagsOwner? 9 = m.types.tagsOwner? 9 := by
  intro m now
  have plain : ∀ e ∈ [ModelEdit.register 0 .none, .tagsClass 8, .intern (.int 8),
      .register 0 .none], e.Plain := by
    simp [ModelEdit.Plain, TypeDesc.int]
  obtain ⟨-, asked, -, kept⟩ := tags_classes_of_plain_history 0 plain
  obtain ⟨again, owner, -, others⟩ :=
    asked 11 12 (by decide) [.tagsClass 8] (by simp [ModelEdit.Plain])
  obtain ⟨-, -, owned⟩ :=
    kept [.tagsClass 11, .tagsClass 8] (by simp [ModelEdit.Plain]) 9 (by decide)
  exact ⟨by decide, again, owner, others 8 (by decide), owned⟩

end Model
end UnionAtlas
