import Mathlib.Data.List.InsertIdx
import UnionAtlas.Proofs.Model.Links
import UnionAtlas.Proofs.Model.TagOrdinals

/-!
# Editing one case list

A case list is edited by adding a case, by removing or moving one of its records, and by replacing
all of them. Each edit has its meaning for lists, with positions counted in the list as it is, and
a move back undoes a move. A record that no list holds is refused. Nothing but the one list is
touched, since every union has one number while nobody makes a union by hand.
-/

namespace UnionAtlas

/-- The operation makes no union by hand. -/
def ModelEdit.MakesNoUnion : ModelEdit → Prop
  | .intern d => d.kind ≠ .union
  | _ => True

/-- The operation edits the case list of a union. -/
def ModelEdit.EditsCasesOf (union : TypeId) : ModelEdit → Prop
  | .add edited _ _ => edited = union
  | .remove (some uc) => uc.union = union
  | .move (some uc) _ => uc.union = union
  | .replace edited _ => edited = union
  | _ => False

namespace TypeTable

variable {t t' : TypeTable} {id union : TypeId} {place i : Nat} {uc : UnionCase} {d : TypeDesc}
  {e : ModelEdit}

/-! ## Positions in a list -/

section Positions

variable {cs : List UnionCase} (distinct : cs.Nodup) (here : cs[i]? = some uc)

include here in
theorem length_erase_of_getElem? : (cs.erase uc).length + 1 = cs.length := by
  rw [List.length_erase_of_mem (List.mem_of_getElem? here)]
  have inside := (List.getElem?_eq_some_iff.mp here).1
  omega

include distinct here

theorem erase_eq_eraseIdx : cs.erase uc = cs.eraseIdx i := by
  obtain ⟨bound, rfl⟩ := List.getElem?_eq_some_iff.mp here
  exact distinct.erase_getElem i bound

/-- The target is cut to the positions of the list as it was. -/
theorem moveTo_eq (target : Int) :
    moveTo uc target cs =
      (cs.eraseIdx i).insertIdx (max 0 (min target (cs.length - 1))).toNat uc := by
  have length := length_erase_of_getElem? here
  rw [moveTo, clampPosition, ← erase_eq_eraseIdx distinct here,
    show ((cs.erase uc).length : Int) = cs.length - 1 by omega]

/-- What was moved stands at its new position, and the others are as they were without it. -/
theorem moveTo_moveTo (target : Int) : moveTo uc i (moveTo uc target cs) = cs := by
  have listed : uc ∈ cs := List.mem_of_getElem? here
  have length := length_erase_of_getElem? here
  obtain ⟨inside, same⟩ := List.getElem?_eq_some_iff.mp here
  have fits := clampPosition_le target (cs.erase uc).length
  have distinct' : (moveTo uc target cs).Nodup := (moveTo_perm listed target).nodup_iff.mpr distinct
  have here' : (moveTo uc target cs)[clampPosition target (cs.erase uc).length]? = some uc :=
    List.getElem?_insertIdx_self.trans (if_pos fits)
  have others : (moveTo uc target cs).erase uc = cs.erase uc := by
    rw [erase_eq_eraseIdx distinct' here', moveTo, List.eraseIdx_insertIdx_self]
  have back : clampPosition i (cs.erase uc).length = i := by
    unfold clampPosition
    omega
  calc moveTo uc i (moveTo uc target cs)
      = (cs.erase uc).insertIdx i uc := by rw [moveTo, others, back]
    _ = (cs.eraseIdx i).insertIdx i cs[i] := by rw [erase_eq_eraseIdx distinct here, same]
    _ = cs := List.insertIdx_eraseIdx_getElem inside

end Positions

/-! ## Editing a record that is listed, and one that is not -/

/-- An edit that is undone leaves the table as it was. -/
theorem modifyCases_modifyCases {f g : List UnionCase → List UnionCase}
    (undone : g (f (t.casesAt place)) = t.casesAt place) :
    (t.modifyCases place f).modifyCases place g = t := by
  have unions : ((t.unions.modify place fun info => { info with cases := f info.cases }).modify
      place fun info => { info with cases := g info.cases }) = t.unions := by
    apply List.ext_getElem?
    intro p
    rw [List.getElem?_modify, List.getElem?_modify]
    by_cases same : place = p
    · subst same
      cases known : t.unions[place]? with
      | none => simp
      | some info =>
        simp only [casesAt, known, Option.map_some, Option.getD_some] at undone
        simp [undone]
    · simp [same]
  rw [modifyCases, modifyUnion, modifyCases, modifyUnion, unions]

theorem editCase_of_not_mem (unlisted : uc ∉ t.cases uc.union)
    (f : List UnionCase → List UnionCase) : t.editCase uc f = (false, t) := by
  have absent : t.indexOf? uc = none := List.idxOf?_eq_none_iff.mpr unlisted
  rw [editCase, absent]
  split
  · next none => cases none
  · rfl

theorem Sound.editCase_of_getElem? (sound : Sound t) (here : (t.cases union)[i]? = some uc)
    (f : List UnionCase → List UnionCase) :
    ∃ place, t.unionPlace? union = some place ∧
      t.editCase uc f = (true, t.modifyCases place f) := by
  obtain ⟨place, found, listed⟩ := place_of_mem_cases (List.mem_of_getElem? here)
  refine ⟨place, found, ?_⟩
  rw [editCase, sound.placed place uc listed, sound.indexOf?_of_getElem? here]

/-! ## What no edit of a case list touches -/

/-- Two states of a table that differ in the case list of the union at a place at most. -/
structure SameBut (place : Nat) (t t' : TypeTable) : Prop where
  types : t'.types = t.types
  registered : t'.registered = t.registered
  owners : t'.tagsOwners = t.tagsOwners
  unions : ∃ f, t'.unions = (t.modifyCases place f).unions

theorem sameBut_modifyCases (t : TypeTable) (place : Nat) (f : List UnionCase → List UnionCase) :
    SameBut place t (t.modifyCases place f) :=
  ⟨rfl, rfl, rfl, f, rfl⟩

namespace SameBut

variable (same : SameBut place t t')
include same

theorem lookup? (id : TypeId) : t'.lookup? id = t.lookup? id := by
  rw [TypeTable.lookup?, TypeTable.lookup?, same.types]

theorem unionByName? (name : NameId) : t'.unionByName? name = t.unionByName? name := by
  rw [TypeTable.unionByName?, TypeTable.unionByName?, same.registered]

theorem tagsOwner? (tags : TypeId) : t'.tagsOwner? tags = t.tagsOwner? tags := by
  rw [TypeTable.tagsOwner?, TypeTable.tagsOwner?, same.lookup?, same.owners]

theorem unionPlace? (id : TypeId) : t'.unionPlace? id = t.unionPlace? id := by
  obtain ⟨f, unions⟩ := same.unions
  rw [← unionPlace?_modifyCases t place f id, TypeTable.unionPlace?, TypeTable.unionPlace?, unions,
    same.lookup?]
  rfl

theorem heads : t'.heads = t.heads := by
  obtain ⟨f, unions⟩ := same.unions
  rw [← heads_modifyCases t place f, TypeTable.heads, TypeTable.heads, unions]

/-- The tags class of every union is the one it was, or would have been. -/
theorem tagsClass_fst (id : TypeId) : (t'.tagsClass id).1 = (t.tagsClass id).1 := by
  have tags (p : Nat) : t'.tagsAt? p = t.tagsAt? p := by
    rw [tagsAt?_eq_heads, tagsAt?_eq_heads, same.heads]
  cases found : t.unionPlace? id with
  | none => rw [tagsClass_eq_none_iff.mpr found,
      tagsClass_eq_none_iff.mpr ((same.unionPlace? id).trans found)]
  | some p =>
    have found' := (same.unionPlace? id).trans found
    cases made : t.tagsAt? p with
    | some tagsId =>
      rw [tagsClass_of_tagsAt? found made, tagsClass_of_tagsAt? found' ((tags p).trans made)]
    | none =>
      have made' := (tags p).trans made
      rw [tagsAt?] at made made'
      simp only [tagsClass, found, made, found', made', append, same.types]

/-- A union at another place is known by all that it was known by. -/
theorem info?_of_ne (other : t.unionPlace? id ≠ some place) : t'.info? id = t.info? id := by
  obtain ⟨f, unions⟩ := same.unions
  rw [info?, info?, same.unionPlace?]
  cases found : t.unionPlace? id with
  | none => rfl
  | some p =>
    have apart : place ≠ p := by
      rintro rfl
      exact other found
    rw [Option.bind_some, Option.bind_some, unions, modifyCases, modifyUnion,
      List.getElem?_modify_ne _ _ apart]

/-- The union whose list was edited has kept all else. -/
theorem info?_but_cases (id : TypeId) :
    (t'.info? id).map (fun info => (info.name, info.decl, info.tags)) =
      (t.info? id).map (fun info => (info.name, info.decl, info.tags)) := by
  obtain ⟨f, unions⟩ := same.unions
  rw [info?, info?, same.unionPlace?]
  cases found : t.unionPlace? id with
  | none => rfl
  | some p =>
    rw [Option.bind_some, Option.bind_some, unions, modifyCases, modifyUnion, List.getElem?_modify]
    cases t.unions[p]? with
    | none => rfl
    | some info => by_cases here : place = p <;> simp [here]

end SameBut

/-! ## Unions have one number each -/

theorem getElem?_of_lookup? (known : t.lookup? id = some d) : t.types[id]? = some d := by
  rw [lookup?] at known
  split at known
  · cases known
  · exact known

/-- The descriptors of unions name different places, all of which are taken. -/
structure UnionsApart (t : TypeTable) : Prop where
  apart : t.types.Pairwise fun d d' => d.kind = .union → d'.kind = .union → d.payload ≠ d'.payload
  taken : ∀ d ∈ t.types, d.kind = .union → d.payload ≤ t.unions.length

theorem unionsApart_new (ident : Nat) : UnionsApart (new ident) := by
  have none : ∀ d ∈ (new ident).types, d.kind ≠ .union := by
    simp [new, TypeDesc.int, TypeDesc.uint, TypeDesc.float]
  refine ⟨?_, fun d known union => absurd union (none d known)⟩
  rw [List.pairwise_iff_forall_sublist]
  intro d d' sub union
  exact absurd union (none d (sub.subset List.mem_cons_self))

namespace UnionsApart

theorem le_of_unionPlace? (apart : UnionsApart t) (found : t.unionPlace? id = some place)
    (found' : t.unionPlace? union = some place) : union ≤ id := by
  obtain ⟨d, known, kind, payload, -⟩ := unionPlace?_eq_some_iff.mp found
  obtain ⟨d', known', kind', payload', -⟩ := unionPlace?_eq_some_iff.mp found'
  obtain ⟨bound, rfl⟩ := List.getElem?_eq_some_iff.mp (getElem?_of_lookup? known)
  obtain ⟨bound', rfl⟩ := List.getElem?_eq_some_iff.mp (getElem?_of_lookup? known')
  by_contra before
  have other := List.pairwise_iff_getElem.mp apart.apart
  exact other id union bound bound' (Nat.not_le.mp before) kind kind' (payload.trans payload'.symm)

theorem unionPlace?_inj (apart : UnionsApart t) (found : t.unionPlace? id = some place)
    (found' : t.unionPlace? union = some place) : id = union :=
  Nat.le_antisymm (apart.le_of_unionPlace? found' found) (apart.le_of_unionPlace? found found')

theorem of_types (apart : UnionsApart t) (types : t'.types = t.types)
    (heads : t'.heads = t.heads) : UnionsApart t' := by
  have count := congrArg List.length heads
  rw [length_heads, length_heads] at count
  refine ⟨types ▸ apart.apart, fun d known union => ?_⟩
  rw [count]
  exact apart.taken d (types ▸ known) union

/-- A type may be added that is no union, or one for the union that was added last. -/
theorem append (apart : UnionsApart t) (types : t'.types = t.types ++ [d])
    (wider : t.unions.length ≤ t'.unions.length)
    (new : d.kind = .union → d.payload = t.unions.length + 1 ∧ d.payload ≤ t'.unions.length) :
    UnionsApart t' := by
  refine ⟨?_, ?_⟩
  · rw [types, List.pairwise_append]
    refine ⟨apart.apart, List.pairwise_singleton _ d, ?_⟩
    intro before known after last union union'
    obtain rfl := List.mem_singleton.mp last
    have old := apart.taken before known union
    have added := (new union').1
    omega
  · intro other known union
    rw [types] at known
    rcases List.mem_append.mp known with old | last
    · exact Nat.le_trans (apart.taken other old union) wider
    · obtain rfl := List.mem_singleton.mp last
      exact (new union).2

theorem intern (apart : UnionsApart t) (kind : d.kind ≠ .union) :
    UnionsApart (t.intern d).2 := by
  unfold TypeTable.intern
  split
  · exact apart
  · split
    · exact apart
    · exact apart.append rfl (Nat.le_refl _) fun union => absurd union kind

theorem adds (apart : UnionsApart t) (adds : Adds t e t') : UnionsApart t' := by
  cases adds with
  | nothing types heads => exact apart.of_types types heads
  | plain d kind types heads =>
    have wider := (Adds.plain d kind types heads ‹_›).extends.length_unions
    exact apart.append types wider fun union => absurd union kind.1
  | union name decl types heads =>
    have count := congrArg List.length heads
    simp only [length_heads, List.length_append, List.length_singleton] at count
    exact apart.append types (by omega) fun _ => ⟨rfl, by simp [count]⟩
  | tags owner place found absent types heads =>
    have count := congrArg List.length heads
    simp only [length_heads, List.length_modify] at count
    exact apart.append types (by omega) fun union => by cases union

end UnionsApart
end TypeTable

namespace Model

open TypeTable (Evolves Sound SameBut UnionsApart)

variable {m : Model} {edits later : List ModelEdit} {e : ModelEdit} {uc : UnionCase}
  {union : TypeId} {i : Nat}

theorem unionsApart_edit (apart : m.types.UnionsApart) (unmade : e.MakesNoUnion) :
    (m.edit e).types.UnionsApart := by
  cases e with
  | intern d => exact apart.intern unmade
  | _ => exact apart.adds (m.adds_edit trivial)

theorem unionsApart_editAll (apart : m.types.UnionsApart) (unmade : ∀ e ∈ edits, e.MakesNoUnion) :
    (m.editAll edits).types.UnionsApart := by
  induction edits generalizing m with
  | nil => exact apart
  | cons e edits ih =>
    rw [List.forall_mem_cons] at unmade
    exact ih (unionsApart_edit apart unmade.1) unmade.2

/-- An edit of a case list either does nothing or changes the list of the union it is for. -/
theorem edit_cases (m : Model) (edits : e.EditsCasesOf union) :
    m.edit e = m ∨ ∃ place, m.types.unionPlace? union = some place ∧
      (m.edit e).names = m.names ∧ SameBut place m.types (m.edit e).types := by
  have edited (uc : UnionCase) (f : List UnionCase → List UnionCase) :
      (m.types.editCase uc f).2 = m.types ∨ ∃ place, m.types.unionPlace? uc.union = some place ∧
        SameBut place m.types (m.types.editCase uc f).2 := by
    unfold TypeTable.editCase
    split
    · next place _ found _ => exact .inr ⟨place, found, TypeTable.sameBut_modifyCases _ _ _⟩
    · exact .inl rfl
  cases e with
  | add other name decl =>
    obtain rfl : other = union := edits
    cases found : m.types.unionPlace? other with
    | none => exact .inl (by simp only [edit, TypeTable.addCase, found])
    | some place =>
      refine .inr ⟨place, rfl, rfl, ?_⟩
      simp only [edit, TypeTable.addCase, found]
      exact ⟨rfl, rfl, rfl, (· ++ [(m.types.draftCase other name decl).1]), rfl⟩
  | remove uc? =>
    cases uc? with
    | none => cases edits
    | some uc =>
      obtain rfl : uc.union = union := edits
      rcases edited uc (·.erase uc) with same | ⟨place, found, same⟩
      · exact .inl (congrArg (Model.mk m.names) same)
      · exact .inr ⟨place, found, rfl, same⟩
  | move uc? target =>
    cases uc? with
    | none => cases edits
    | some uc =>
      obtain rfl : uc.union = union := edits
      rcases edited uc (TypeTable.moveTo uc target) with same | ⟨place, found, same⟩
      · exact .inl (congrArg (Model.mk m.names) same)
      · exact .inr ⟨place, found, rfl, same⟩
  | replace other names =>
    obtain rfl : other = union := edits
    cases found : m.types.unionPlace? other with
    | none => exact .inl (by simp only [edit, TypeTable.replaceCases, found])
    | some place =>
      refine .inr ⟨place, rfl, rfl, ?_⟩
      simp only [edit, TypeTable.replaceCases, found]
      rw [TypeTable.draftCases_snd]
      exact ⟨rfl, rfl, rfl, fun _ => (m.types.draftCases other names).1, rfl⟩
  | _ => cases edits

/-! ## Calls with any record, or without one -/

/-- Takes a case out of its union, as it is called for: with a record, or without one. -/
def removeCase (m : Model) : Option UnionCase → Bool × Model
  | none => (false, m)
  | some uc => ((m.types.removeCase uc).1, m.edit (.remove (some uc)))

/-- Moves a case to another position, as it is called for: with a record, or without one. -/
def moveCase (m : Model) (target : Int) : Option UnionCase → Bool × Model
  | none => (false, m)
  | some uc => ((m.types.moveCase uc target).1, m.edit (.move (some uc) target))

/-- Removing and moving a record fail and change nothing. -/
structure Refuses (m : Model) (uc? : Option UnionCase) : Prop where
  remove : m.removeCase uc? = (false, m)
  move : ∀ target, m.moveCase target uc? = (false, m)

theorem refuses_none (m : Model) : m.Refuses none :=
  ⟨rfl, fun _ => rfl⟩

theorem refuses_of_not_mem (unlisted : uc ∉ m.types.cases uc.union) : m.Refuses (some uc) := by
  have refused := TypeTable.editCase_of_not_mem unlisted
  constructor
  · simp only [removeCase, edit, TypeTable.removeCase, refused]
  · intro target
    simp only [moveCase, edit, TypeTable.moveCase, refused]

/-- The operation leaves a record that no union lists: it takes the record out of its union,
replaces the list that holds it, or makes it by hand. -/
def LeavesUnlisted (m : Model) (uc : UnionCase) : ModelEdit → Prop
  | .remove uc? => uc? = some uc ∧ uc ∈ m.types.cases uc.union
  | .replace union _ => uc ∈ m.types.cases union
  | .draft union name decl => uc = (m.types.draftCase union name decl).1
  | _ => False

theorem retired_of_leavesUnlisted (sound : m.types.Sound) (leaves : m.LeavesUnlisted uc e) :
    (m.edit e).types.Retired uc := by
  cases e with
  | remove uc? =>
    obtain ⟨rfl, listed⟩ := leaves
    obtain ⟨i, here⟩ := List.mem_iff_getElem?.mp listed
    obtain ⟨place, -, accepted⟩ := sound.editCase_of_getElem? here (·.erase uc)
    exact sound.retired_remove (congrArg Prod.fst accepted)
  | replace union names => exact sound.retired_replace names leaves
  | draft union name decl =>
    obtain rfl := leaves
    refine ⟨rfl, Nat.lt_succ_self _, ?_⟩
    intro place listed
    exact Nat.lt_irrefl _ (sound.made place _ listed).2
  | _ => cases leaves

/-! ## Accepted calls -/

theorem removeCase_of_editCase {types : TypeTable}
    (accepted : m.types.editCase uc (·.erase uc) = (true, types)) :
    m.removeCase (some uc) = (true, { m with types }) := by
  simp only [removeCase, edit, TypeTable.removeCase, accepted]

theorem moveCase_of_editCase {target : Int} {types : TypeTable}
    (accepted : m.types.editCase uc (TypeTable.moveTo uc target) = (true, types)) :
    m.moveCase target (some uc) = (true, { m with types }) := by
  simp only [moveCase, edit, TypeTable.moveCase, accepted]

theorem removeCase_of_getElem? (sound : m.types.Sound)
    (here : (m.types.cases union)[i]? = some uc) :
    ∃ less, m.removeCase (some uc) = (true, less) ∧
      less.types.cases union = (m.types.cases union).eraseIdx i := by
  obtain ⟨place, found, accepted⟩ := sound.editCase_of_getElem? here (·.erase uc)
  refine ⟨_, removeCase_of_editCase accepted, ?_⟩
  rw [← TypeTable.erase_eq_eraseIdx (sound.nodup union) here]
  exact TypeTable.cases_modifyCases found _

/-- A record that was moved stands in the list that it stood in, so it can be moved back. -/
theorem moveCase_of_getElem? (sound : m.types.Sound) (here : (m.types.cases union)[i]? = some uc)
    (target : Int) :
    ∃ moved, m.moveCase target (some uc) = (true, moved) ∧
      moved.types.cases union = TypeTable.moveTo uc target (m.types.cases union) ∧
      moved.moveCase i (some uc) = (true, m) := by
  have listed : uc ∈ m.types.cases union := List.mem_of_getElem? here
  obtain ⟨place, found, accepted⟩ :=
    sound.editCase_of_getElem? here (TypeTable.moveTo uc target)
  let types := m.types.modifyCases place (TypeTable.moveTo uc target)
  have cases : types.cases union = TypeTable.moveTo uc target (m.types.cases union) :=
    TypeTable.cases_modifyCases found _
  have sound' : types.Sound := by
    have evolves := TypeTable.evolves_moveCase m.types uc target
    rw [TypeTable.moveCase, accepted] at evolves
    exact sound.evolves evolves
  have listed' : uc ∈ types.cases union :=
    cases ▸ (TypeTable.moveTo_perm listed target).mem_iff.mpr listed
  obtain ⟨j, there⟩ := List.mem_iff_getElem?.mp listed'
  obtain ⟨place', found', again⟩ := sound'.editCase_of_getElem? there (TypeTable.moveTo uc i)
  obtain rfl : place = place' := by
    rw [TypeTable.unionPlace?_modifyCases] at found'
    exact Option.some.inj (found.symm.trans found')
  have undone : TypeTable.moveTo uc i (TypeTable.moveTo uc target (m.types.casesAt place)) =
      m.types.casesAt place := by
    rw [← TypeTable.cases_of_place found]
    exact TypeTable.moveTo_moveTo (sound.nodup union) here target
  rw [TypeTable.modifyCases_modifyCases undone] at again
  exact ⟨{ m with types }, moveCase_of_editCase accepted, cases, moveCase_of_editCase again⟩

/-- A case that is added stands at the end of the list, under a key of its own. -/
theorem cases_add {place : Nat} (found : m.types.unionPlace? union = some place) (name : NameId)
    (decl : Span) :
    ∃ uc, (m.types.addCase union name decl).1 = some uc ∧ uc.name = name ∧ uc.union = union ∧
      uc.decl = decl ∧
      (m.edit (.add union name decl)).types.cases union = m.types.cases union ++ [uc] := by
  refine ⟨(m.types.draftCase union name decl).1, ?_, rfl, rfl, rfl, ?_⟩
  · simp only [TypeTable.addCase, found]
  · simp only [edit, TypeTable.addCase, found]
    have found' : (m.types.draftCase union name decl).2.unionPlace? union = some place := found
    exact TypeTable.cases_modifyCases found' _

/-! ## The edited list, and everything else -/

/-- All that is known in two models of the unions other than one, and of types, names and tags. -/
structure SameElsewhere (m m' : Model) (union : TypeId) : Prop where
  names : m'.names = m.names
  lookup? : ∀ id, m'.types.lookup? id = m.types.lookup? id
  unionByName? : ∀ name, m'.types.unionByName? name = m.types.unionByName? name
  info? : ∀ other, other ≠ union → m'.types.info? other = m.types.info? other
  tagsOwner? : ∀ tags, m'.types.tagsOwner? tags = m.types.tagsOwner? tags
  tagsClass : ∀ other, (m'.tagsClass other).1 = (m.tagsClass other).1
  butCases : (m'.types.info? union).map (fun info => (info.name, info.decl, info.tags)) =
    (m.types.info? union).map (fun info => (info.name, info.decl, info.tags))

theorem sameElsewhere_refl (m : Model) (union : TypeId) : m.SameElsewhere m union :=
  ⟨rfl, fun _ => rfl, fun _ => rfl, fun _ _ => rfl, fun _ => rfl, fun _ => rfl, rfl⟩

theorem sameElsewhere_edit (apart : m.types.UnionsApart) (edits : e.EditsCasesOf union) :
    m.SameElsewhere (m.edit e) union := by
  rcases m.edit_cases edits with same | ⟨place, found, names, same⟩
  · rw [same]
    exact m.sameElsewhere_refl union
  · refine ⟨names, same.lookup?, same.unionByName?, ?_, same.tagsOwner?, same.tagsClass_fst,
      same.info?_but_cases union⟩
    intro other different
    refine same.info?_of_ne fun found' => ?_
    exact different (apart.unionPlace?_inj found' found)

namespace SameElsewhere

variable {m' : Model} (same : m.SameElsewhere m' union)
include same

theorem cases {other : TypeId} (different : other ≠ union) :
    m'.types.cases other = m.types.cases other := by
  rw [TypeTable.cases, TypeTable.cases, same.info? other different]

/-- The tags of all other unions have their positions, values and full names. -/
theorem tag (other : uc.union ≠ union) :
    m'.tagIndex? uc = m.tagIndex? uc ∧ m'.tagConstant uc = m.tagConstant uc ∧
      m'.tagPath uc = m.tagPath uc := by
  have index : m'.tagIndex? uc = m.tagIndex? uc := by
    rw [tagIndex?, tagIndex?, TypeTable.indexOf?, TypeTable.indexOf?, same.cases other]
  refine ⟨index, ?_, ?_⟩
  · rw [tagConstant, tagConstant, index]
  · rw [tagPath, tagPath, same.info? _ other]
    simp only [nameOf, same.names]

end SameElsewhere

/-- In every state that edits can reach without unions made by hand: a record at a position is moved
to the position asked for, cut to those of the list, and back; it is removed from that position
only; a new case is added at the end, and new records replace the whole list. No record, a record
that was taken out or replaced, one that was made by hand and one of another table are refused. All
that these edits change is the one list. -/
theorem case_edits_of_history (ident : Nat) (unmade : ∀ e ∈ edits, e.MakesNoUnion) :
    let m := (new ident).editAll edits
    (∀ union i uc, (m.types.cases union)[i]? = some uc →
      let cs := m.types.cases union
      (∀ target : Int, ∃ moved, m.moveCase target (some uc) = (true, moved) ∧
        moved.types.cases union =
          (cs.eraseIdx i).insertIdx (max 0 (min target (cs.length - 1))).toNat uc ∧
        moved.moveCase i (some uc) = (true, m)) ∧
      ∃ less, m.removeCase (some uc) = (true, less) ∧ less.types.cases union = cs.eraseIdx i) ∧
    (∀ union, m.types.info? union ≠ none →
      (∀ name decl, ∃ uc, (m.types.addCase union name decl).1 = some uc ∧ uc.name = name ∧
        uc.union = union ∧ uc.decl = decl ∧
        (m.edit (.add union name decl)).types.cases union = m.types.cases union ++ [uc]) ∧
      ∀ names, (m.types.replaceCases union names).1.map (·.name) = names ∧
        (m.edit (.replace union names)).types.cases union =
          (m.types.replaceCases union names).1) ∧
    m.Refuses none ∧
    (∀ uc, uc ∉ m.types.cases uc.union → m.Refuses (some uc)) ∧
    (∀ uc, uc.key.table ≠ ident → m.Refuses (some uc)) ∧
    (∀ uc e later, m.LeavesUnlisted uc e → ((m.edit e).editAll later).Refuses (some uc)) ∧
    ∀ union e, e.EditsCasesOf union → m.SameElsewhere (m.edit e) union ∧
      (∀ other, other ≠ union → (m.edit e).types.cases other = m.types.cases other) ∧
      ∀ uc, uc.union ≠ union →
        (m.edit e).tagIndex? uc = m.tagIndex? uc ∧
        (m.edit e).tagConstant uc = m.tagConstant uc ∧ (m.edit e).tagPath uc = m.tagPath uc := by
  intro m
  have sound : m.types.Sound := Reachable.sound ⟨ident, edits, rfl⟩
  have apart : m.types.UnionsApart :=
    unionsApart_editAll (TypeTable.unionsApart_new ident) unmade
  have own : m.types.ident = ident :=
    editAll_types (·.ident = ident) (fun same evolves => evolves.ident.trans same) rfl edits
  refine ⟨?_, ?_, refuses_none m, fun uc => refuses_of_not_mem, ?_, ?_, ?_⟩
  · intro union i uc here cs
    refine ⟨?_, removeCase_of_getElem? sound here⟩
    intro target
    obtain ⟨moved, accepted, cases, back⟩ := moveCase_of_getElem? sound here target
    exact ⟨moved, accepted, cases.trans (TypeTable.moveTo_eq (sound.nodup union) here target), back⟩
  · intro union known
    obtain ⟨info, known⟩ := Option.ne_none_iff_exists'.mp known
    obtain ⟨place, found⟩ := TypeTable.place_of_info? known
    exact ⟨cases_add found, TypeTable.cases_replaceCases found⟩
  · intro uc foreign
    refine refuses_of_not_mem fun listed => ?_
    obtain ⟨place, -, member⟩ := TypeTable.place_of_mem_cases listed
    exact foreign ((sound.made place uc member).1.trans own)
  · intro uc e later leaves
    exact refuses_of_not_mem
      (not_mem_cases_editAll (retired_of_leavesUnlisted sound leaves) later uc.union)
  · intro union e ofUnion
    have same := sameElsewhere_edit apart ofUnion
    exact ⟨same, fun other different => same.cases different, fun uc other => same.tag other⟩

/-- Two unions of one name, and a tags class made by hand: the first of three cases is moved beyond
the end and back, and is refused once it was removed. -/
theorem case_edits_of_history_two_unions :
    let first : UnionCase := ⟨⟨0, 0⟩, 1, 8, .none⟩
    let m := (new 0).editAll [.name (text "A"), .register 1 .none, .register 1 .none,
      .add 8 1 .none, .add 8 1 .none, .add 8 1 .none, .add 9 1 .none, .tagsClass 8,
      .intern { kind := .tagsClass, payload := 2 }, .tagsClass 9]
    (∃ moved, m.moveCase 7 (some first) = (true, moved) ∧
      moved.types.cases 8 = [⟨⟨0, 1⟩, 1, 8, .none⟩, ⟨⟨0, 2⟩, 1, 8, .none⟩, first] ∧
      moved.moveCase 0 (some first) = (true, m)) ∧
    ((m.edit (.remove (some first))).editAll [.add 8 1 .none]).Refuses (some first) ∧
    (m.edit (.replace 8 [1])).types.cases 9 = [⟨⟨0, 3⟩, 1, 9, .none⟩] := by
  intro first m
  have unmade : ∀ e ∈ [ModelEdit.name (text "A"), .register 1 .none, .register 1 .none,
      .add 8 1 .none, .add 8 1 .none, .add 8 1 .none, .add 9 1 .none, .tagsClass 8,
      .intern { kind := .tagsClass, payload := 2 }, .tagsClass 9], e.MakesNoUnion := by
    simp [ModelEdit.MakesNoUnion]
  obtain ⟨accepted, -, -, -, -, refused, elsewhere⟩ := case_edits_of_history 0 unmade
  have here : (m.types.cases 8)[0]? = some first := by decide
  refine ⟨?_, refused first _ _ ⟨rfl, by decide⟩, ?_⟩
  · obtain ⟨moved, done, cases, back⟩ := (accepted 8 0 first here).1 7
    exact ⟨moved, done, cases.trans (by decide), back⟩
  · exact ((elsewhere 8 (.replace 8 [1]) rfl).2.1 9 (by decide)).trans (by decide)

end Model
end UnionAtlas
