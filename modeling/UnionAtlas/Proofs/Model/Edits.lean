import Mathlib.Data.List.Nodup
import Mathlib.Data.List.Perm.Subperm
import UnionAtlas.Element

/-!
# Edit histories of a model

A model is edited by any list of operations: names and types are interned, unions are registered,
and cases are made, added, removed, moved and replaced. A record handed to an operation may be
stale, made by hand, of another table, or absent. This module says once what an operation does to
the case lists of a type table: up to order, each list keeps some of its cases and gets some new
records, all of which are of its own union.
-/

namespace UnionAtlas

/-- An operation on a model. A case that is absent stands for a call without a record. -/
inductive ModelEdit where
  | name (s : Bytes)
  | intern (d : TypeDesc)
  | register (name : NameId) (decl : Span)
  | draft (union : TypeId) (name : NameId) (decl : Span)
  | add (union : TypeId) (name : NameId) (decl : Span)
  | remove (uc? : Option UnionCase)
  | move (uc? : Option UnionCase) (target : Int)
  | replace (union : TypeId) (names : List NameId)
  | tagsClass (union : TypeId)
  deriving Repr, DecidableEq

namespace Model

/-- The model after an operation. -/
def edit (m : Model) : ModelEdit → Model
  | .name s => { m with names := (m.names.intern s).2 }
  | .intern d => { m with types := (m.types.intern d).2 }
  | .register name decl => { m with types := (m.types.registerUnion name decl).2 }
  | .draft union name decl => { m with types := (m.types.draftCase union name decl).2 }
  | .add union name decl => { m with types := (m.types.addCase union name decl).2 }
  | .remove none => m
  | .remove (some uc) => { m with types := (m.types.removeCase uc).2 }
  | .move none _ => m
  | .move (some uc) target => { m with types := (m.types.moveCase uc target).2 }
  | .replace union names => { m with types := (m.types.replaceCases union names).2 }
  | .tagsClass union => (m.tagsClass union).2

/-- The model after a list of operations. -/
def editAll (m : Model) (edits : List ModelEdit) : Model :=
  edits.foldl edit m

theorem editAll_append (m : Model) (edits later : List ModelEdit) :
    m.editAll (edits ++ later) = (m.editAll edits).editAll later :=
  List.foldl_append

/-- Can the model be reached by operations from one without unions? -/
def Reachable (m : Model) : Prop :=
  ∃ ident edits, m = (new ident).editAll edits

theorem Reachable.editAll {m : Model} (reachable : m.Reachable) (later : List ModelEdit) :
    (m.editAll later).Reachable := by
  obtain ⟨ident, edits, rfl⟩ := reachable
  exact ⟨ident, edits ++ later, (editAll_append _ edits later).symm⟩

end Model

/-- What stands at a place of a list stands there in every list that begins with it. -/
theorem getElem?_of_extends {α : Type} {xs ys : List α} (extension : xs <+: ys) {i : Nat} {a : α}
    (found : xs[i]? = some a) : ys[i]? = some a := by
  obtain ⟨more, rfl⟩ := extension
  obtain ⟨bound, -⟩ := List.getElem?_eq_some_iff.mp found
  rw [List.getElem?_append_left bound, found]

namespace TypeTable

variable {t t' : TypeTable} {id : TypeId} {place : Nat} {uc : UnionCase}

/-! ## Unions by place -/

/-- The cases of the union at a place. -/
def casesAt (t : TypeTable) (place : Nat) : List UnionCase :=
  ((t.unions[place]?).map (·.cases)).getD []

theorem unionPlace?_eq_some_iff :
    t.unionPlace? id = some place ↔
      ∃ d, t.lookup? id = some d ∧ d.kind = .union ∧ d.payload = place + 1 ∧
        place < t.unions.length := by
  unfold unionPlace?
  constructor
  · intro found
    split at found
    · next d known =>
      split at found
      · next valid =>
        obtain ⟨kind, nonzero, bound⟩ := valid
        have payload := Option.some.inj found
        exact ⟨d, known, kind, by omega, by omega⟩
      · cases found
    · cases found
  · rintro ⟨d, known, kind, payload, bound⟩
    rw [known]
    simp only [kind, payload]
    rw [if_pos ⟨trivial, by omega, by omega⟩, Nat.add_sub_cancel]

theorem place_of_info? {info : UnionInfo} (known : t.info? id = some info) :
    ∃ place, t.unionPlace? id = some place := by
  obtain ⟨place, found, -⟩ := Option.bind_eq_some_iff.mp known
  exact ⟨place, found⟩

theorem cases_of_place (found : t.unionPlace? id = some place) : t.cases id = t.casesAt place := by
  rw [cases, info?, found, Option.bind_some, casesAt]
  cases t.unions[place]? <;> rfl

theorem cases_of_no_place (absent : t.unionPlace? id = none) : t.cases id = [] := by
  rw [cases, info?, absent, Option.bind_none]

/-- Every case list is that of a place. -/
theorem place_of_mem_cases (listed : uc ∈ t.cases id) :
    ∃ place, t.unionPlace? id = some place ∧ uc ∈ t.casesAt place := by
  cases found : t.unionPlace? id with
  | none =>
    rw [cases_of_no_place found] at listed
    cases listed
  | some place => exact ⟨place, rfl, cases_of_place found ▸ listed⟩

theorem casesAt_modifyUnion (t : TypeTable) (place : Nat) (f : UnionInfo → UnionInfo) (p : Nat) :
    (t.modifyUnion place f).casesAt p =
      if place = p then ((t.unions[p]?).map fun info => (f info).cases).getD []
      else t.casesAt p := by
  rw [casesAt, modifyUnion, List.getElem?_modify]
  cases found : t.unions[p]? with
  | none => simp [casesAt, found]
  | some info => split <;> simp [casesAt, found]

theorem casesAt_modifyCases (t : TypeTable) (f : List UnionCase → List UnionCase)
    (bound : place < t.unions.length) (p : Nat) :
    (t.modifyCases place f).casesAt p = if place = p then f (t.casesAt p) else t.casesAt p := by
  rw [modifyCases, casesAt_modifyUnion]
  split
  · next same =>
    subst same
    simp [casesAt, List.getElem?_eq_getElem bound]
  · rfl

/-! ## What an operation does to a table -/

/-- Records made between two states of a table, for the union at a place. -/
structure NewCases (t t' : TypeTable) (place : Nat) (fresh : List UnionCase) : Prop where
  distinct : (fresh.map UnionCase.key).Nodup
  table : ∀ uc ∈ fresh, uc.key.table = t.ident
  serial : ∀ uc ∈ fresh, t.nextSerial ≤ uc.key.serial ∧ uc.key.serial < t'.nextSerial
  placed : ∀ uc ∈ fresh, t'.unionPlace? uc.union = some place

theorem newCases_nil (t t' : TypeTable) (place : Nat) : NewCases t t' place [] := by
  constructor <;> simp

/-- What holds between the states of a table before and after an operation. Types and unions are
only added. Each case list keeps some of its cases, in any order, and gets some new records. -/
structure Evolves (t t' : TypeTable) : Prop where
  ident : t'.ident = t.ident
  serial : t.nextSerial ≤ t'.nextSerial
  types : t.types <+: t'.types
  unions : t.unions.length ≤ t'.unions.length
  cases : ∀ place, ∃ fresh, NewCases t t' place fresh ∧
    (t'.casesAt place).Subperm (t.casesAt place ++ fresh)

theorem Evolves.lookup? (evolves : Evolves t t') {d : TypeDesc} (known : t.lookup? id = some d) :
    t'.lookup? id = some d := by
  unfold TypeTable.lookup? at known ⊢
  split at known
  · cases known
  · next nonzero =>
    rw [if_neg nonzero]
    exact getElem?_of_extends evolves.types known

/-- A type that is a union stays one, at the same place. -/
theorem Evolves.unionPlace? (evolves : Evolves t t') (found : t.unionPlace? id = some place) :
    t'.unionPlace? id = some place := by
  obtain ⟨d, known, kind, payload, bound⟩ := unionPlace?_eq_some_iff.mp found
  exact unionPlace?_eq_some_iff.mpr
    ⟨d, evolves.lookup? known, kind, payload, Nat.lt_of_lt_of_le bound evolves.unions⟩

/-- An operation that leaves the unions alone. -/
theorem evolves_of_unions_eq (ident : t'.ident = t.ident) (serial : t.nextSerial ≤ t'.nextSerial)
    (types : t.types <+: t'.types) (unions : t'.unions = t.unions) : Evolves t t' where
  ident := ident
  serial := serial
  types := types
  unions := Nat.le_of_eq (congrArg List.length unions.symm)
  cases place := by
    refine ⟨[], newCases_nil t t' place, ?_⟩
    rw [List.append_nil, casesAt, casesAt, unions]

theorem evolves_intern (t : TypeTable) (d : TypeDesc) : Evolves t (t.intern d).2 := by
  unfold intern
  split
  · exact evolves_of_unions_eq rfl (Nat.le_refl _) List.prefix_rfl rfl
  · split
    · exact evolves_of_unions_eq rfl (Nat.le_refl _) List.prefix_rfl rfl
    · exact evolves_of_unions_eq rfl (Nat.le_refl _) (List.prefix_append _ _) rfl

theorem evolves_draftCase (t : TypeTable) (union : TypeId) (name : NameId) (decl : Span) :
    Evolves t (t.draftCase union name decl).2 :=
  evolves_of_unions_eq rfl (Nat.le_succ _) List.prefix_rfl rfl

/-- A new union has no cases, and the others keep theirs. -/
theorem casesAt_registerUnion (t : TypeTable) (name : NameId) (decl : Span) (place : Nat) :
    (t.registerUnion name decl).2.casesAt place = t.casesAt place := by
  simp only [casesAt, registerUnion, append, List.getElem?_append]
  split
  · rfl
  · next beyond =>
    rw [List.getElem?_eq_none (Nat.not_lt.mp beyond)]
    cases place - t.unions.length <;> rfl

theorem evolves_registerUnion (t : TypeTable) (name : NameId) (decl : Span) :
    Evolves t (t.registerUnion name decl).2 := by
  refine ⟨rfl, Nat.le_refl _, List.prefix_append _ _, ?_, ?_⟩
  · simp [registerUnion, append]
  · intro place
    refine ⟨[], newCases_nil _ _ _, ?_⟩
    rw [List.append_nil, casesAt_registerUnion]

/-- The tags class of a union is added without touching its cases. -/
theorem evolves_tagsClass (t : TypeTable) (union : TypeId) : Evolves t (t.tagsClass union).2 := by
  unfold tagsClass
  split
  · exact evolves_of_unions_eq rfl (Nat.le_refl _) List.prefix_rfl rfl
  · next place _ =>
    split
    · exact evolves_of_unions_eq rfl (Nat.le_refl _) List.prefix_rfl rfl
    · refine ⟨rfl, Nat.le_refl _, List.prefix_append _ _, ?_, ?_⟩
      · simp [modifyUnion, append]
      · intro p
        refine ⟨[], newCases_nil _ _ _, ?_⟩
        rw [List.append_nil, casesAt_modifyUnion]
        split <;> exact List.Subperm.refl _

/-- One case list is rewritten, after some records were made for it. -/
theorem evolves_modifyCases (drafted : TypeTable) (f : List UnionCase → List UnionCase)
    (fresh : List UnionCase) (ident : drafted.ident = t.ident)
    (serial : t.nextSerial ≤ drafted.nextSerial) (types : drafted.types = t.types)
    (unions : drafted.unions = t.unions) (bound : place < t.unions.length)
    (new : NewCases t (drafted.modifyCases place f) place fresh)
    (kept : (f (t.casesAt place)).Subperm (t.casesAt place ++ fresh)) :
    Evolves t (drafted.modifyCases place f) := by
  have casesAt_drafted (p : Nat) : drafted.casesAt p = t.casesAt p := by
    rw [casesAt, casesAt, unions]
  refine ⟨ident, serial, ?_, ?_, ?_⟩
  · rw [← types]
    exact List.prefix_rfl
  · simp [modifyCases, modifyUnion, unions]
  · intro p
    rw [casesAt_modifyCases drafted f (unions ▸ bound), casesAt_drafted]
    split
    · next same =>
      subst same
      exact ⟨fresh, new, kept⟩
    · exact ⟨[], newCases_nil _ _ _, by rw [List.append_nil]⟩

theorem unionPlace?_modifyCases (t : TypeTable) (place : Nat)
    (f : List UnionCase → List UnionCase) (id : TypeId) :
    (t.modifyCases place f).unionPlace? id = t.unionPlace? id := by
  simp only [unionPlace?, TypeTable.lookup?, modifyCases, modifyUnion, List.length_modify]

theorem bound_of_unionPlace? (found : t.unionPlace? id = some place) : place < t.unions.length := by
  obtain ⟨-, -, -, -, bound⟩ := unionPlace?_eq_some_iff.mp found
  exact bound

theorem evolves_addCase (t : TypeTable) (union : TypeId) (name : NameId) (decl : Span) :
    Evolves t (t.addCase union name decl).2 := by
  unfold addCase
  split
  · exact evolves_of_unions_eq rfl (Nat.le_refl _) List.prefix_rfl rfl
  · next place found =>
    refine evolves_modifyCases (t.draftCase union name decl).2
      (· ++ [(t.draftCase union name decl).1]) [(t.draftCase union name decl).1] rfl (Nat.le_succ _)
      rfl rfl (bound_of_unionPlace? found) ?_ (List.Subperm.refl _)
    refine ⟨List.nodup_singleton _, ?_, ?_, ?_⟩
    all_goals intro uc member; obtain rfl := List.mem_singleton.mp member
    · rfl
    · exact ⟨Nat.le_refl _, Nat.lt_succ_self _⟩
    · rw [unionPlace?_modifyCases]
      exact found

/-! ## Removing and moving -/

theorem mem_of_indexOf? {i : Nat} (found : t.indexOf? uc = some i) : uc ∈ t.cases uc.union := by
  rw [indexOf?] at found
  exact List.isSome_idxOf?.mp (Option.isSome_of_eq_some found)

theorem evolves_editCase {f : List UnionCase → List UnionCase}
    (kept : ∀ cs, uc ∈ cs → (f cs).Subperm cs) : Evolves t (t.editCase uc f).2 := by
  unfold editCase
  split
  · next place i found position =>
    refine evolves_modifyCases t f [] rfl (Nat.le_refl _) rfl rfl (bound_of_unionPlace? found)
      (newCases_nil _ _ _) ?_
    rw [List.append_nil, ← cases_of_place found]
    exact kept _ (mem_of_indexOf? position)
  · exact evolves_of_unions_eq rfl (Nat.le_refl _) List.prefix_rfl rfl

theorem clampPosition_le (target : Int) (length : Nat) : clampPosition target length ≤ length := by
  unfold clampPosition
  omega

/-- Moving a case changes the order only. -/
theorem moveTo_perm {cs : List UnionCase} (listed : uc ∈ cs) (target : Int) :
    (moveTo uc target cs).Perm cs := by
  have inserted := List.perm_insertIdx uc (cs.erase uc)
    (clampPosition_le target (cs.erase uc).length)
  exact inserted.trans (List.perm_cons_erase listed).symm

theorem evolves_removeCase (t : TypeTable) (uc : UnionCase) : Evolves t (t.removeCase uc).2 :=
  evolves_editCase fun _ _ => List.erase_sublist.subperm

theorem evolves_moveCase (t : TypeTable) (uc : UnionCase) (target : Int) :
    Evolves t (t.moveCase uc target).2 :=
  evolves_editCase fun _ listed => (moveTo_perm listed target).subperm

/-! ## Replacing -/

theorem draftCases_snd (t : TypeTable) (union : TypeId) (names : List NameId) :
    (t.draftCases union names).2 = { t with nextSerial := t.nextSerial + names.length } := by
  induction names generalizing t with
  | nil => rfl
  | cons name names ih =>
    rw [draftCases, ih]
    simp [draftCase, Nat.add_comm, Nat.add_left_comm]

/-- The new records are numbered in order. -/
theorem keys_draftCases (t : TypeTable) (union : TypeId) (names : List NameId) :
    (t.draftCases union names).1.map UnionCase.key =
      (List.range' t.nextSerial names.length).map (CaseKey.mk t.ident) := by
  induction names generalizing t with
  | nil => rfl
  | cons name names ih =>
    rw [draftCases, List.map_cons, ih, List.length_cons, List.range'_succ, List.map_cons]
    rfl

theorem numbered_of_mem_draftCases {union : TypeId} {names : List NameId}
    (member : uc ∈ (t.draftCases union names).1) :
    uc.key.table = t.ident ∧ t.nextSerial ≤ uc.key.serial ∧
      uc.key.serial < t.nextSerial + names.length := by
  have key := List.mem_map_of_mem (f := UnionCase.key) member
  rw [keys_draftCases] at key
  obtain ⟨serial, range, same⟩ := List.mem_map.mp key
  rw [← same]
  exact ⟨rfl, List.mem_range'_1.mp range⟩

theorem union_of_mem_draftCases {union : TypeId} {names : List NameId}
    (member : uc ∈ (t.draftCases union names).1) : uc.union = union := by
  induction names generalizing t with
  | nil => cases member
  | cons name names ih =>
    rcases List.mem_cons.mp member with rfl | later
    · rfl
    · exact ih later

theorem evolves_replaceCases (t : TypeTable) (union : TypeId) (names : List NameId) :
    Evolves t (t.replaceCases union names).2 := by
  unfold replaceCases
  split
  · exact evolves_of_unions_eq rfl (Nat.le_refl _) List.prefix_rfl rfl
  · next place found =>
    have drafted := draftCases_snd t union names
    refine evolves_modifyCases (t.draftCases union names).2 (fun _ => (t.draftCases union names).1)
      (t.draftCases union names).1 ?_ ?_ ?_ ?_ (bound_of_unionPlace? found) ?_
      (List.sublist_append_right _ _).subperm
    · rw [drafted]
    · rw [drafted]
      exact Nat.le_add_right _ _
    · rw [drafted]
    · rw [drafted]
    · refine ⟨?_, fun uc member => (numbered_of_mem_draftCases member).1, ?_, ?_⟩
      · rw [keys_draftCases]
        exact List.Nodup.map (fun _ _ same => (CaseKey.mk.inj same).2) (List.nodup_range' _)
      · intro uc member
        rw [drafted]
        exact (numbered_of_mem_draftCases member).2
      · intro uc member
        rw [union_of_mem_draftCases member, unionPlace?_modifyCases, drafted]
        exact found

end TypeTable

namespace Model

open TypeTable (Evolves)

/-- Every operation on a model is one that its table allows. -/
theorem evolves_edit (m : Model) (e : ModelEdit) : Evolves m.types (m.edit e).types := by
  have still : Evolves m.types m.types :=
    TypeTable.evolves_of_unions_eq rfl (Nat.le_refl _) List.prefix_rfl rfl
  cases e with
  | name s => exact still
  | intern d => exact TypeTable.evolves_intern m.types d
  | register name decl => exact TypeTable.evolves_registerUnion m.types name decl
  | draft union name decl => exact TypeTable.evolves_draftCase m.types union name decl
  | add union name decl => exact TypeTable.evolves_addCase m.types union name decl
  | remove uc? =>
    cases uc? with
    | none => exact still
    | some uc => exact TypeTable.evolves_removeCase m.types uc
  | move uc? target =>
    cases uc? with
    | none => exact still
    | some uc => exact TypeTable.evolves_moveCase m.types uc target
  | replace union names => exact TypeTable.evolves_replaceCases m.types union names
  | tagsClass union => exact TypeTable.evolves_tagsClass m.types union

/-- What every operation on a table keeps, every edit history keeps. -/
theorem editAll_types (P : TypeTable → Prop) (kept : ∀ {t t'}, P t → Evolves t t' → P t')
    {m : Model} (holds : P m.types) (edits : List ModelEdit) : P (m.editAll edits).types := by
  induction edits generalizing m with
  | nil => exact holds
  | cons e edits ih => exact ih (kept holds (m.evolves_edit e))

/-- A union keeps its place. -/
theorem unionPlace?_editAll {m : Model} {id : TypeId} {place : Nat}
    (found : m.types.unionPlace? id = some place) (edits : List ModelEdit) :
    (m.editAll edits).types.unionPlace? id = some place :=
  editAll_types (·.unionPlace? id = some place) (fun found evolves => evolves.unionPlace? found)
    found edits

end Model
end UnionAtlas
