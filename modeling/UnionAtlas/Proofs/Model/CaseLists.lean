import UnionAtlas.Proofs.Model.Edits

/-!
# Case lists over an edit history

In every state that edits can reach, the records of a case list are different, the table itself made
them, and each is listed at the place of its own union only. A record that was listed once and is
listed no more stays unlisted for ever. All of it follows from what one operation does to a table.
-/

namespace UnionAtlas
namespace TypeTable

variable {t t' : TypeTable} {id : TypeId} {place : Nat} {uc : UnionCase}

/-! ## The list of one union, edited -/

theorem cases_modifyCases (found : t.unionPlace? id = some place)
    (f : List UnionCase → List UnionCase) :
    (t.modifyCases place f).cases id = f (t.cases id) := by
  have found' := (unionPlace?_modifyCases t place f id).trans found
  rw [cases_of_place found', casesAt_modifyCases t f (bound_of_unionPlace? found), if_pos rfl,
    cases_of_place found]

theorem map_name_draftCases (t : TypeTable) (union : TypeId) (names : List NameId) :
    (t.draftCases union names).1.map (·.name) = names := by
  induction names generalizing t with
  | nil => rfl
  | cons name names ih => rw [draftCases, List.map_cons, ih, draftCase]

/-- What replaces a list are new records with the names that are given. -/
theorem cases_replaceCases (found : t.unionPlace? id = some place) (names : List NameId) :
    (t.replaceCases id names).1.map (·.name) = names ∧
      (t.replaceCases id names).2.cases id = (t.replaceCases id names).1 := by
  simp only [replaceCases, found]
  refine ⟨map_name_draftCases t id names, ?_⟩
  have found' : (t.draftCases id names).2.unionPlace? id = some place := by
    rw [draftCases_snd]
    exact found
  exact cases_modifyCases found' _

/-! ## What holds of all lists -/

/-- What holds of the case lists of a table at all times. -/
structure Sound (t : TypeTable) : Prop where
  distinct : ∀ place, ((t.casesAt place).map UnionCase.key).Nodup
  made : ∀ place, ∀ uc ∈ t.casesAt place, uc.key.table = t.ident ∧ uc.key.serial < t.nextSerial
  placed : ∀ place, ∀ uc ∈ t.casesAt place, t.unionPlace? uc.union = some place

theorem sound_new (ident : Nat) : Sound (new ident) := by
  have empty (place : Nat) : (new ident).casesAt place = [] := rfl
  refine ⟨fun place => ?_, fun place uc listed => ?_, fun place uc listed => ?_⟩
  · rw [empty]
    exact List.nodup_nil
  all_goals
    rw [empty] at listed
    cases listed

/-- A listed record was listed at the same place before, or was made by the operation. -/
theorem Evolves.listed (evolves : Evolves t t') (listed : uc ∈ t'.casesAt place) :
    uc ∈ t.casesAt place ∨
      (uc.key.table = t.ident ∧ t.nextSerial ≤ uc.key.serial ∧ uc.key.serial < t'.nextSerial ∧
        t'.unionPlace? uc.union = some place) := by
  obtain ⟨fresh, new, kept⟩ := evolves.cases place
  rcases List.mem_append.mp (kept.subset listed) with old | made
  · exact .inl old
  · exact .inr ⟨new.table uc made, (new.serial uc made).1, (new.serial uc made).2,
      new.placed uc made⟩

/-- The case lists stay sound, since the keys of new records are new. -/
theorem Sound.evolves (sound : Sound t) (evolves : Evolves t t') : Sound t' := by
  refine ⟨fun place => ?_, fun place uc listed => ?_, fun place uc listed => ?_⟩
  · obtain ⟨fresh, new, order, perm, kept⟩ := evolves.cases place
    -- The keys of old records are below the counter and those of new ones are not.
    have apart : ((t.casesAt place ++ fresh).map UnionCase.key).Nodup := by
      rw [List.map_append]
      refine List.Nodup.append (sound.distinct place) new.distinct ?_
      intro key old made
      obtain ⟨before, listed, rfl⟩ := List.mem_map.mp old
      obtain ⟨after, member, same⟩ := List.mem_map.mp made
      have earlier := (sound.made place before listed).2
      have later := (new.serial after member).1
      rw [same] at later
      omega
    exact (perm.map UnionCase.key).nodup_iff.mp ((kept.map UnionCase.key).nodup apart)
  · rw [evolves.ident]
    rcases evolves.listed listed with old | ⟨table, -, serial, -⟩
    · obtain ⟨table, serial⟩ := sound.made place uc old
      exact ⟨table, Nat.lt_of_lt_of_le serial evolves.serial⟩
    · exact ⟨table, serial⟩
  · rcases evolves.listed listed with old | ⟨-, -, -, placed⟩
    · exact evolves.unionPlace? (sound.placed place uc old)
    · exact placed

/-- All numbers of a union have one case list, and it is that of its records. -/
theorem Sound.cases_union (sound : Sound t) (listed : uc ∈ t.cases id) :
    t.cases uc.union = t.cases id := by
  obtain ⟨place, found, member⟩ := place_of_mem_cases listed
  rw [cases_of_place found, cases_of_place (sound.placed place uc member)]

theorem Sound.keys_nodup (sound : Sound t) (id : TypeId) :
    ((t.cases id).map UnionCase.key).Nodup := by
  cases found : t.unionPlace? id with
  | none =>
    rw [cases_of_no_place found]
    exact List.nodup_nil
  | some place =>
    rw [cases_of_place found]
    exact sound.distinct place

theorem Sound.nodup (sound : Sound t) (id : TypeId) : (t.cases id).Nodup :=
  List.Nodup.of_map UnionCase.key (sound.keys_nodup id)

/-! ## Records that are listed no more -/

/-- The table made the record and does not list it. -/
structure Retired (t : TypeTable) (uc : UnionCase) : Prop where
  table : uc.key.table = t.ident
  serial : uc.key.serial < t.nextSerial
  unlisted : ∀ place, uc ∉ t.casesAt place

/-- What was taken out of its list is in no other. -/
theorem Sound.retired (sound : Sound t) (evolves : Evolves t t') (listed : uc ∈ t.casesAt place)
    (absent : uc ∉ t'.casesAt place) : Retired t' uc := by
  obtain ⟨table, serial⟩ := sound.made place uc listed
  refine ⟨table.trans evolves.ident.symm, Nat.lt_of_lt_of_le serial evolves.serial, ?_⟩
  intro other elsewhere
  have own := evolves.unionPlace? (sound.placed place uc listed)
  have found := (sound.evolves evolves).placed other uc elsewhere
  obtain rfl := Option.some.inj (own.symm.trans found)
  exact absent elsewhere

theorem Retired.evolves (retired : Retired t uc) (evolves : Evolves t t') : Retired t' uc := by
  refine ⟨retired.table.trans evolves.ident.symm,
    Nat.lt_of_lt_of_le retired.serial evolves.serial, fun place listed => ?_⟩
  rcases evolves.listed listed with old | ⟨-, made, -, -⟩
  · exact retired.unlisted place old
  · exact Nat.not_lt.mpr made retired.serial

theorem Retired.not_mem_cases (retired : Retired t uc) (id : TypeId) : uc ∉ t.cases id := by
  intro listed
  obtain ⟨place, -, member⟩ := place_of_mem_cases listed
  exact retired.unlisted place member

/-- A record that was removed is in no list. -/
theorem Sound.retired_remove (sound : Sound t) (removed : (t.removeCase uc).1 = true) :
    Retired (t.removeCase uc).2 uc := by
  have listed : uc ∈ t.cases uc.union := by
    unfold removeCase editCase at removed
    split at removed
    · next position => exact mem_of_indexOf? position
    · cases removed
  obtain ⟨place, found, member⟩ := place_of_mem_cases listed
  refine sound.retired (evolves_removeCase t uc) member ?_
  obtain ⟨i, position⟩ := Option.isSome_iff_exists.mp (List.isSome_idxOf?.mpr listed)
  have known : t.indexOf? uc = some i := position
  rw [removeCase, editCase, found, known]
  rw [casesAt_modifyCases t _ (bound_of_unionPlace? found), if_pos rfl]
  exact (cases_of_place found ▸ sound.nodup uc.union).not_mem_erase

/-- A record whose list was replaced is in no list. -/
theorem Sound.retired_replace (sound : Sound t) (names : List NameId) (listed : uc ∈ t.cases id) :
    Retired (t.replaceCases id names).2 uc := by
  obtain ⟨place, found, member⟩ := place_of_mem_cases listed
  refine sound.retired (evolves_replaceCases t id names) member ?_
  have drafted := draftCases_snd t id names
  rw [replaceCases, found]
  rw [casesAt_modifyCases _ _ (by rw [drafted]; exact bound_of_unionPlace? found), if_pos rfl]
  intro again
  have earlier := (sound.made place uc member).2
  exact Nat.not_lt.mpr (numbered_of_mem_draftCases again).2.1 earlier

end TypeTable

namespace Model

open TypeTable (Sound Retired)

theorem Reachable.sound {m : Model} (reachable : m.Reachable) : m.types.Sound := by
  obtain ⟨ident, edits, rfl⟩ := reachable
  exact editAll_types Sound Sound.evolves (TypeTable.sound_new ident) edits

theorem length_cases_replace {m : Model} {union : TypeId} {place : Nat}
    (found : m.types.unionPlace? union = some place) (names : List NameId) :
    ((m.edit (.replace union names)).types.cases union).length = names.length := by
  obtain ⟨given, listed⟩ := TypeTable.cases_replaceCases found names
  rw [edit, listed, ← List.length_map (·.name), given]

/-- A record that is listed no more is never listed again. -/
theorem not_mem_cases_editAll {m : Model} {uc : UnionCase} (retired : Retired m.types uc)
    (later : List ModelEdit) (id : TypeId) : uc ∉ (m.editAll later).types.cases id :=
  (editAll_types (Retired · uc) Retired.evolves retired later).not_mem_cases id

end Model
end UnionAtlas
