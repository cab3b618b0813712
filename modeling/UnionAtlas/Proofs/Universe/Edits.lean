import UnionAtlas.Proofs.Model.Links
import UnionAtlas.Proofs.Model.Names

/-!
# Edit histories of several models

The models of a universe are edited one after the other, in any order. Seen from one of them, the
history is an edit history of its own: an operation on another model is not noticed, unless the two
share their names, and then it adds a name at most.
-/

namespace UnionAtlas
namespace Universe

variable {u : Universe} {i j : Nat}

/-- The universe after an operation on one of its models. -/
def edit (u : Universe) (i : Nat) (e : ModelEdit) : Universe :=
  u.set i ((u.get i).edit e)

/-- The universe after a list of operations, each on one of its models. -/
def editAll (u : Universe) (edits : List (Nat × ModelEdit)) : Universe :=
  edits.foldl (fun u p => u.edit p.1 p.2) u

theorem editAll_append (u : Universe) (edits later : List (Nat × ModelEdit)) :
    u.editAll (edits ++ later) = (u.editAll edits).editAll later :=
  List.foldl_append

/-- Can the universe be reached from empty models, without unions and tags classes made by hand? -/
def Reachable (u : Universe) : Prop :=
  ∃ count shared edits, (∀ p ∈ edits, p.2.Plain) ∧ u = (new count shared).editAll edits

theorem Reachable.editAll (reachable : u.Reachable) {later : List (Nat × ModelEdit)}
    (plain : ∀ p ∈ later, p.2.Plain) : (u.editAll later).Reachable := by
  obtain ⟨count, shared, edits, earlier, rfl⟩ := reachable
  refine ⟨count, shared, edits ++ later, ?_, (editAll_append _ edits later).symm⟩
  rw [List.forall_mem_append]
  exact ⟨earlier, plain⟩

/-! ## One model of many -/

/-- There is a name table for each model. -/
def Complete (u : Universe) : Prop :=
  u.tables.length = u.models.length

theorem complete_new (count : Nat) (shared : Bool) : (new count shared).Complete := by
  simp [Complete, new]

theorem Complete.edit (complete : u.Complete) (i : Nat) (e : ModelEdit) :
    (u.edit i e).Complete := by
  simpa [Complete, Universe.edit, set] using complete

theorem models_length_edit (u : Universe) (i : Nat) (e : ModelEdit) :
    (u.edit i e).models.length = u.models.length := by
  simp [edit, set]

theorem Complete.tableOf_lt (complete : u.Complete) (inside : i < u.models.length) :
    u.tableOf i < u.tables.length := by
  have count : u.tables.length = u.models.length := complete
  unfold tableOf
  split <;> omega

theorem get_edit_same (complete : u.Complete) (inside : i < u.models.length) (e : ModelEdit) :
    (u.edit i e).get i = (u.get i).edit e := by
  have table := complete.tableOf_lt inside
  have same : (u.edit i e).tableOf i = u.tableOf i := rfl
  simp only [get, same]
  simp [edit, set, get, table, inside]

/-- From another model at most a new name is noticed. -/
theorem get_edit_other (complete : u.Complete) (inside : i < u.models.length) (other : j ≠ i)
    (e : ModelEdit) :
    (u.edit j e).get i = u.get i ∨ ∃ s, (u.edit j e).get i = (u.get i).edit (.name s) := by
  have table := complete.tableOf_lt inside
  have same : (u.edit j e).tableOf i = u.tableOf i := rfl
  have types : ((u.edit j e).get i).types = (u.get i).types := by
    simp [get, edit, set, other]
  by_cases shared : u.tableOf j = u.tableOf i
  · have names : ((u.edit j e).get i).names = ((u.get j).edit e).names := by
      simp only [get, same]
      simp [edit, set, shared, table, get]
    have before : (u.get j).names = (u.get i).names := by simp only [get, shared]
    rcases (u.get j).names_edit e with kept | ⟨s, added⟩
    · exact .inl (congrArg₂ Model.mk (names.trans (kept.trans before)) types)
    · rw [before] at added
      exact .inr ⟨s, congrArg₂ Model.mk (names.trans added) types⟩
  · have names : ((u.edit j e).get i).names = (u.get i).names := by
      simp only [get, same]
      simp [edit, set, shared]
    exact .inl (congrArg₂ Model.mk names types)

/-- Seen from one model, the history of a universe is a history of that model. -/
theorem get_editAll (complete : u.Complete) (inside : i < u.models.length)
    {later : List (Nat × ModelEdit)} (plain : ∀ p ∈ later, p.2.Plain) :
    ∃ edits : List ModelEdit, (∀ e ∈ edits, e.Plain) ∧
      (u.editAll later).get i = (u.get i).editAll edits := by
  induction later generalizing u with
  | nil => exact ⟨[], by simp, rfl⟩
  | cons p later ih =>
    obtain ⟨j, e⟩ := p
    rw [List.forall_mem_cons] at plain
    obtain ⟨edits, plain', seen⟩ :=
      ih (complete.edit j e) (models_length_edit u j e ▸ inside) plain.2
    change (((u.edit j e).editAll later).get i = _) at seen
    have first : ∃ edits : List ModelEdit, (∀ e ∈ edits, e.Plain) ∧
        (u.edit j e).get i = (u.get i).editAll edits := by
      by_cases here : j = i
      · subst here
        exact ⟨[e], by simpa using plain.1, get_edit_same complete inside e⟩
      · rcases get_edit_other complete inside here e with kept | ⟨s, added⟩
        · exact ⟨[], by simp, kept⟩
        · exact ⟨[.name s], by simp [ModelEdit.Plain], added⟩
    obtain ⟨edits', plain'', seen'⟩ := first
    refine ⟨edits' ++ edits, ?_, ?_⟩
    · rw [List.forall_mem_append]
      exact ⟨plain'', plain'⟩
    · rw [Model.editAll_append, ← seen', ← seen]
      rfl

theorem complete_editAll (complete : u.Complete) (later : List (Nat × ModelEdit)) :
    (u.editAll later).Complete := by
  induction later generalizing u with
  | nil => exact complete
  | cons p later ih => exact ih (complete.edit p.1 p.2)

theorem models_length_editAll (u : Universe) (later : List (Nat × ModelEdit)) :
    (u.editAll later).models.length = u.models.length := by
  induction later generalizing u with
  | nil => rfl
  | cons p later ih => exact (ih _).trans (models_length_edit u p.1 p.2)

theorem Reachable.complete (reachable : u.Reachable) : u.Complete := by
  obtain ⟨count, shared, edits, -, rfl⟩ := reachable
  exact complete_editAll (complete_new count shared) edits

theorem get_new {count : Nat} (inside : i < count) (shared : Bool) :
    (new count shared).get i = Model.new i := by
  have names : ((new count shared).get i).names = NameTable.empty := by
    have table := (complete_new count shared).tableOf_lt (i := i) (by simpa [new] using inside)
    simp only [get, List.getD_eq_getElem _ _ table]
    simp [new]
  have types : ((new count shared).get i).types = TypeTable.new i := by
    simp [get, new, inside]
  exact congrArg₂ Model.mk names types

/-- Every model of a universe has a plain history of its own. -/
theorem Reachable.get (reachable : u.Reachable) (inside : i < u.models.length) :
    ∃ edits : List ModelEdit, (∀ e ∈ edits, e.Plain) ∧
      u.get i = (Model.new i).editAll edits := by
  obtain ⟨count, shared, edits, plain, rfl⟩ := reachable
  rw [models_length_editAll] at inside
  have known : i < count := by simpa [new] using inside
  obtain ⟨edits', plain', seen⟩ := get_editAll (complete_new count shared) inside plain
  exact ⟨edits', plain', by rw [seen, get_new known]⟩

end Universe
end UnionAtlas
