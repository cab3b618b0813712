import UnionAtlas.Proofs.Model.Edits

/-!
# Names over an edit history

A name table never forgets a name or changes its number, and no name has two numbers. So a name can
be told from its number and a number from its name, in the state that gave it and in all later ones.
-/

namespace UnionAtlas
namespace NameTable

variable {t : NameTable} {s : Bytes} {id id' : NameId}

theorem nodup_empty : empty.names.Nodup :=
  List.nodup_singleton []

theorem nodup_intern (distinct : t.names.Nodup) (s : Bytes) : (t.intern s).2.names.Nodup := by
  unfold intern
  split
  · exact distinct
  · next absent =>
    have unknown : s ∉ t.names := by
      intro known
      have different := List.findIdx?_eq_none_iff.mp absent s known
      simp at different
    exact List.Nodup.append distinct (List.nodup_singleton s) (by simpa using unknown)

/-- Two numbers of one name are the same. -/
theorem lookup?_inj (distinct : t.names.Nodup) (first : t.lookup? id = some s)
    (second : t.lookup? id' = some s) : id = id' := by
  obtain ⟨bound, here⟩ := List.getElem?_eq_some_iff.mp first
  obtain ⟨bound', there⟩ := List.getElem?_eq_some_iff.mp second
  exact distinct.getElem_inj_iff.mp (here.trans there.symm)

/-- The number that is found is the one under which the name stands. -/
theorem find?_of_lookup? (distinct : t.names.Nodup) (known : t.lookup? id = some s) :
    t.find? s = some id := by
  have found : (t.find? s).isSome := by
    rw [find?, List.findIdx?_isSome]
    exact List.any_eq_true.mpr ⟨s, List.mem_of_getElem? known, beq_self_eq_true s⟩
  obtain ⟨other, same⟩ := Option.isSome_iff_exists.mp found
  rw [same, lookup?_inj distinct (lookup?_of_find? same) known]

end NameTable

namespace Model

variable {m : Model} {id : NameId} {s : Bytes}

/-- An operation adds one name or none. -/
theorem names_edit (m : Model) (e : ModelEdit) :
    (m.edit e).names = m.names ∨ ∃ s, (m.edit e).names = (m.names.intern s).2 := by
  cases e with
  | name s => exact .inr ⟨s, rfl⟩
  | remove uc? => exact .inl (by cases uc? <;> rfl)
  | move uc? target => exact .inl (by cases uc? <;> rfl)
  | _ => exact .inl rfl

/-- What every new name keeps, every edit history keeps. -/
theorem editAll_names (P : NameTable → Prop) (kept : ∀ {t}, P t → ∀ s, P (t.intern s).2)
    (holds : P m.names) (edits : List ModelEdit) : P (m.editAll edits).names := by
  induction edits generalizing m with
  | nil => exact holds
  | cons e edits ih =>
    apply ih
    rcases m.names_edit e with same | ⟨s, added⟩
    · rw [same]
      exact holds
    · rw [added]
      exact kept holds s

theorem Reachable.names_nodup (reachable : m.Reachable) : m.names.names.Nodup := by
  obtain ⟨ident, edits, rfl⟩ := reachable
  exact editAll_names (·.names.Nodup) NameTable.nodup_intern NameTable.nodup_empty edits

theorem names_isPrefix_editAll (m : Model) (edits : List ModelEdit) :
    m.names.names <+: (m.editAll edits).names.names :=
  editAll_names (m.names.names <+: ·.names)
    (fun extension s => extension.trans (NameTable.names_isPrefix_intern _ s)) List.prefix_rfl edits

/-- A name keeps its number. -/
theorem lookup?_editAll (known : m.names.lookup? id = some s) (edits : List ModelEdit) :
    (m.editAll edits).names.lookup? id = some s :=
  getElem?_of_extends (m.names_isPrefix_editAll edits) known

theorem nameOf_of_lookup? (known : m.names.lookup? id = some s) : m.nameOf id = s := by
  rw [nameOf, known, Option.getD_some]

end Model
end UnionAtlas
