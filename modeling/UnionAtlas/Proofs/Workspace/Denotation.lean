import UnionAtlas.Proofs.Cache.Prospects
import UnionAtlas.Proofs.Workspace.References

/-!
# References that keep what they denote

A reference that was looked up denotes an element of the model: a registered union, its tags class
once that is made, a case by the number of its name, or a tag by the name itself. This is said here
without the look-up, and the look-up finds exactly that as long as no union lists two cases of one
name. Moving cases, adding a case of a name that its union does not list, making tags classes and
interning names change nothing of it, so the reference is looked up to the same element ever after.
-/

namespace UnionAtlas

namespace NameTable

variable {t : NameTable} {s : Bytes} {id : NameId}

theorem find?_intern (found : t.find? s = some id) (other : Bytes) :
    (t.intern other).2.find? s = some id := by
  rw [intern]
  split
  · exact found
  · rw [find?] at found
    rw [find?, List.findIdx?_append, found]
    rfl

end NameTable

namespace TypeTable

variable {t : TypeTable} {id : TypeId} {place : Nat} {uc : UnionCase}

theorem registered_editCase (t : TypeTable) (uc : UnionCase)
    (f : List UnionCase → List UnionCase) : (t.editCase uc f).2.registered = t.registered := by
  unfold editCase
  split <;> rfl

theorem registered_tagsClass (t : TypeTable) (id : TypeId) :
    (t.tagsClass id).2.registered = t.registered := by
  unfold tagsClass
  split
  · rfl
  · split <;> rfl

/-- A list that is only put into another order has the same cases in all lists. -/
theorem perm_casesAt_editCase {f : List UnionCase → List UnionCase}
    (kept : ∀ cs, uc ∈ cs → (f cs).Perm cs) (place : Nat) :
    ((t.editCase uc f).2.casesAt place).Perm (t.casesAt place) := by
  unfold editCase
  split
  · next here i found position =>
    rw [casesAt_modifyCases t f (bound_of_unionPlace? found)]
    split
    · next same =>
      subst same
      have member := mem_of_indexOf? position
      rw [cases_of_place found] at member
      exact kept _ member
    · exact .refl _
  · exact .refl _

end TypeTable

namespace Model

variable {m : Model} {e : ModelEdit} {place : Nat} {uc : UnionCase}

/-! ## Quiet operations -/

/-- An operation that takes no name from any case and gives none away that is listed: a case may be
moved, one may be added to a union that lists none of its name, a tags class may be made, and a name
may be interned while all listed cases have known names. -/
def Quiet (m : Model) : ModelEdit → Prop
  | .name _ => m.Spelled
  | .add union name _ => ∀ uc ∈ m.types.cases union, m.nameOf uc.name ≠ m.nameOf name
  | .move _ _ => True
  | .tagsClass _ => True
  | _ => False

namespace Quiet

theorem plain (quiet : m.Quiet e) : e.Plain := by
  cases e with
  | intern d => exact quiet.elim
  | _ => trivial

theorem registered (quiet : m.Quiet e) : (m.edit e).types.registered = m.types.registered := by
  cases e with
  | name s => rfl
  | add union name decl => exact TypeTable.registered_addCase m.types union name decl
  | move uc? target =>
    cases uc? with
    | none => rfl
    | some uc => exact TypeTable.registered_editCase m.types uc _
  | tagsClass union => exact TypeTable.registered_tagsClass m.types union
  | _ => exact quiet.elim

/-- A case list keeps its cases, and gets at most one more, which has a name of its own. -/
theorem casesAt (quiet : m.Quiet e) (place : Nat) :
    ((m.edit e).types.casesAt place).Perm (m.types.casesAt place) ∨
      ∃ new, ((m.edit e).types.casesAt place).Perm (m.types.casesAt place ++ [new]) ∧
        (m.edit e).names = m.names ∧
        ∀ uc ∈ m.types.casesAt place, m.nameOf uc.name ≠ m.nameOf new.name := by
  cases e with
  | name s => exact .inl (.refl _)
  | add union name decl =>
    cases found : m.types.unionPlace? union with
    | none =>
      left
      simp only [edit, TypeTable.addCase, found]
      exact .refl _
    | some here =>
      have lists := TypeTable.casesAt_addCase found name decl place
      by_cases same : place = here
      · rw [if_pos same] at lists
        refine .inr ⟨_, .of_eq lists, rfl, ?_⟩
        rw [same, ← TypeTable.cases_of_place found]
        exact quiet
      · rw [if_neg same, List.append_nil] at lists
        exact .inl (.of_eq lists)
  | move uc? target =>
    left
    cases uc? with
    | none => exact .refl _
    | some uc =>
      exact TypeTable.perm_casesAt_editCase
        (fun _ listed => TypeTable.moveTo_perm listed target) place
  | tagsClass union =>
    left
    simp only [edit, tagsClass, TypeTable.casesAt_tagsClass]
    exact .refl _
  | _ => exact quiet.elim

theorem mem_casesAt (quiet : m.Quiet e) (listed : uc ∈ m.types.casesAt place) :
    uc ∈ (m.edit e).types.casesAt place := by
  rcases quiet.casesAt place with perm | ⟨new, perm, -, -⟩
  · exact perm.mem_iff.mpr listed
  · exact perm.mem_iff.mpr (List.mem_append_left _ listed)

/-- A listed case keeps its name. -/
theorem nameOf (quiet : m.Quiet e) (listed : uc ∈ m.types.casesAt place) :
    (m.edit e).nameOf uc.name = m.nameOf uc.name := by
  cases e with
  | name s =>
    obtain ⟨written, known⟩ := quiet place uc listed
    rw [nameOf_of_lookup? known]
    exact nameOf_of_lookup? (lookup?_editAll known [.name s])
  | move uc? target => cases uc? <;> rfl
  | add | tagsClass => rfl
  | _ => exact quiet.elim

end Quiet

/-! ## Orderly models -/

/-- The cases of each union have different names, and unions are registered under their names. -/
structure Orderly (m : Model) : Prop where
  rooted : m.types.Rooted
  sound : m.types.Sound
  distinct : ∀ place, ((m.types.casesAt place).map fun uc => m.nameOf uc.name).Nodup
  titled : ∀ name id, m.types.unionByName? name = some id →
    (m.types.info? id).map (·.name) = some name

/-- Unions that are registered keep their titles. -/
theorem Orderly.title {t : TypeTable} {name : NameId} {id : TypeId} (orderly : m.Orderly)
    (longer : TypeTable.Extends m.types t) (current : m.types.unionByName? name = some id) :
    (t.info? id).map (·.name) = some name := by
  have title := orderly.titled name id current
  obtain ⟨info, known, -⟩ := Option.map_eq_some_iff.mp title
  obtain ⟨place, found⟩ := TypeTable.place_of_info? known
  rw [longer.unionName orderly.rooted (TypeTable.lt_length_of_unionPlace? found)]
  exact title

theorem Orderly.edit (orderly : m.Orderly) (quiet : m.Quiet e) : (m.edit e).Orderly := by
  have adds := m.adds_edit quiet.plain
  refine ⟨orderly.rooted.adds adds, orderly.sound.evolves (m.evolves_edit e), ?_, ?_⟩
  · intro place
    have old : (m.types.casesAt place).map (fun uc => (m.edit e).nameOf uc.name) =
        (m.types.casesAt place).map fun uc => m.nameOf uc.name :=
      List.map_congr_left fun uc listed => quiet.nameOf listed
    rcases quiet.casesAt place with perm | ⟨new, perm, names, unlisted⟩
    · rw [(perm.map _).nodup_iff, old]
      exact orderly.distinct place
    · have same : (m.edit e).nameOf new.name = m.nameOf new.name := by
        rw [Model.nameOf, Model.nameOf, names]
      rw [(perm.map _).nodup_iff, List.map_append, old, List.map_singleton, same,
        List.nodup_append]
      refine ⟨orderly.distinct place, List.nodup_singleton _, ?_⟩
      intro text listed other last
      obtain ⟨uc, member, rfl⟩ := List.mem_map.mp listed
      exact List.mem_singleton.mp last ▸ unlisted uc member
  · intro name id current
    rw [TypeTable.unionByName?, quiet.registered] at current
    exact orderly.title adds.extends current

/-- Among the cases of a union, a name tells which one is meant. -/
theorem Orderly.distinct_cases (orderly : m.Orderly) (id : TypeId) :
    ((m.types.cases id).map fun uc => m.nameOf uc.name).Nodup := by
  cases found : m.types.unionPlace? id with
  | none =>
    rw [TypeTable.cases_of_no_place found]
    exact List.nodup_nil
  | some place =>
    rw [TypeTable.cases_of_place found]
    exact orderly.distinct place

theorem Orderly.distinct_numbers (orderly : m.Orderly) (id : TypeId) :
    ((m.types.cases id).map UnionCase.name).Nodup := by
  have texts := orderly.distinct_cases id
  rw [← Function.comp_def m.nameOf UnionCase.name, ← List.map_map] at texts
  exact .of_map _ texts

/-! ## What a reference denotes -/

/-- The element that the pieces of a reference denote, in a model where nothing has to be made for
it first. -/
inductive Denotes (m : Model) : List Bytes → Element → Prop where
  | union {name : Bytes} {id : TypeId} (named : m.unionNamed? name = some id) :
      Denotes m [name] (.union id)
  | tagsClass {name : Bytes} {id tags : TypeId} {place : Nat}
      (named : m.unionNamed? name = some id) (found : m.types.unionPlace? id = some place)
      (made : m.types.tagsAt? place = some tags) : Denotes m [name, tagsName] (.tagsClass tags)
  | unionCase {name case : Bytes} {id : TypeId} {uc : UnionCase}
      (named : m.unionNamed? name = some id) (apart : case ≠ tagsName)
      (known : m.names.find? case = some uc.name) (listed : uc ∈ m.types.cases id) :
      Denotes m [name, case] (.unionCase uc)
  | tag {name : Bytes} {id tags owner : TypeId} {place : Nat} {uc : UnionCase}
      (named : m.unionNamed? name = some id) (found : m.types.unionPlace? id = some place)
      (made : m.types.tagsAt? place = some tags) (owned : m.types.tagsOwner? tags = some owner)
      (listed : uc ∈ m.types.cases owner) :
      Denotes m [name, tagsName, m.nameOf uc.name] (.tag uc)

section Lookup

variable {ref : Bytes} {element : Element} {parts : List Bytes}

theorem unionNamed?_tagsClass (m : Model) (id : TypeId) (name : Bytes) :
    (m.tagsClass id).2.unionNamed? name = m.unionNamed? name := by
  have registered : (m.tagsClass id).2.types.registered = m.types.registered :=
    TypeTable.registered_tagsClass m.types id
  have same : (m.tagsClass id).2.types.unionByName? = m.types.unionByName? := by
    funext number
    rw [TypeTable.unionByName?, TypeTable.unionByName?, registered]
  rw [unionNamed?, unionNamed?, same]
  rfl

/-- A tags class that was given is there. -/
theorem made_of_tagsClass {id tags : TypeId} (given : (m.tagsClass id).1 = some tags) :
    ∃ place, (m.tagsClass id).2.types.unionPlace? id = some place ∧
      (m.tagsClass id).2.types.tagsAt? place = some tags := by
  obtain ⟨place, found, made⟩ := TypeTable.tagsClass_eq_some given
  exact ⟨place, (TypeTable.unionPlace?_tagsClass m.types id id).trans found, made⟩

/-- What a look-up finds is denoted in the model that it leaves. -/
theorem denotes_of_resolveReference (found : (m.resolveReference ref).1 = some element) :
    (m.resolveReference ref).2.Denotes (Bytes.split 0x2E (identifier ref)) element := by
  simp only [resolveReference] at found ⊢
  generalize Bytes.split 0x2E (identifier ref) = parts at found ⊢
  cases named : m.unionNamed? (parts.headD []) with
  | none =>
    rw [named] at found
    cases found
  | some id =>
    rw [named] at found
    -- The number of parts tells what kind of element can be found.
    rcases parts with _ | ⟨name, _ | ⟨second, _ | ⟨third, _ | ⟨fourth, rest⟩⟩⟩⟩
    · cases found
    · obtain rfl := Option.some.inj found
      exact .union named
    · simp only [List.headD_cons] at named found ⊢
      by_cases tags : second = tagsName
      · subst tags
        rw [if_pos rfl] at found ⊢
        obtain ⟨tags, given, rfl⟩ := Option.map_eq_some_iff.mp found
        obtain ⟨place, there, made⟩ := made_of_tagsClass given
        exact .tagsClass ((unionNamed?_tagsClass m id name).trans named) there made
      · rw [if_neg tags] at found ⊢
        obtain ⟨uc, first, rfl⟩ := Option.map_eq_some_iff.mp found
        rw [resolveCase?_eq, named, Option.bind_some] at first
        obtain ⟨number, known, first⟩ := Option.bind_eq_some_iff.mp first
        obtain rfl : uc.name = number := by simpa using List.find?_some first
        exact .unionCase named tags known (List.mem_of_find?_eq_some first)
    · simp only [List.headD_cons] at named found ⊢
      by_cases tags : second = tagsName
      · subst tags
        rw [if_pos rfl] at found ⊢
        obtain ⟨tags, given, member⟩ := Option.bind_eq_some_iff.mp found
        obtain ⟨uc, first, rfl⟩ := Option.map_eq_some_iff.mp member
        obtain ⟨place, there, made⟩ := made_of_tagsClass given
        obtain rfl : (m.tagsClass id).2.nameOf uc.name = third := by
          simpa using List.find?_some first
        have listed := List.mem_of_find?_eq_some first
        rw [tagMembers] at listed
        split at listed
        · next owner owned =>
          exact .tag ((unionNamed?_tagsClass m id name).trans named) there made owned listed
        · cases listed
      · rw [if_neg tags] at found
        cases found
    · cases found

/-- What is denoted is found, and nothing is made for it. -/
theorem Denotes.resolveReference (denotes : m.Denotes parts element) (orderly : m.Orderly)
    (pieces : Bytes.split 0x2E (identifier ref) = parts) :
    m.resolveReference ref = (some element, m) := by
  have given {id tags : TypeId} {place : Nat} (found : m.types.unionPlace? id = some place)
      (made : m.types.tagsAt? place = some tags) : m.tagsClass id = (some tags, m) := by
    rw [Model.tagsClass, TypeTable.tagsClass_of_tagsAt? found made]
  simp only [Model.resolveReference, pieces]
  cases denotes with
  | union named => simp only [List.headD_cons, named]
  | tagsClass named found made =>
    simp only [List.headD_cons, named, if_true, given found made, Option.map_some]
  | unionCase named apart known listed =>
    have first := (find?_key_iff UnionCase.name (orderly.distinct_numbers _)).mpr ⟨listed, rfl⟩
    simp only [List.headD_cons, named, if_neg apart, resolveCase?_eq, Option.bind_some, known,
      first, Option.map_some]
  | tag named found made owned listed =>
    have first := (find?_key_iff (fun uc => m.nameOf uc.name) (orderly.distinct_cases _)).mpr
      ⟨listed, rfl⟩
    simp only [List.headD_cons, named, if_true, given found made, Option.bind_some, tagMember?,
      tagMembers, owned, first, Option.map_some]

theorem find?_edit {s : Bytes} {number : NameId} (known : m.names.find? s = some number)
    (e : ModelEdit) : (m.edit e).names.find? s = some number := by
  rcases m.names_edit e with same | ⟨other, added⟩
  · rw [same, known]
  · rw [added]
    exact NameTable.find?_intern known other

theorem unionNamed?_edit (quiet : m.Quiet e) {name : Bytes} {id : TypeId}
    (named : m.unionNamed? name = some id) : (m.edit e).unionNamed? name = some id := by
  obtain ⟨number, known, current⟩ := Option.bind_eq_some_iff.mp named
  have known' : (m.edit e).names.find? name = some number := find?_edit known e
  rw [unionNamed?, known', Option.bind_some, TypeTable.unionByName?, quiet.registered]
  exact current

/-- What is denoted now is denoted after every quiet operation. -/
theorem Denotes.edit (denotes : m.Denotes parts element) (orderly : m.Orderly)
    (quiet : m.Quiet e) : (m.edit e).Denotes parts element := by
  have adds := m.adds_edit quiet.plain
  have placed {id : TypeId} {place : Nat} (found : m.types.unionPlace? id = some place) :
      (m.edit e).types.unionPlace? id = some place :=
    (m.evolves_edit e).unionPlace? found
  have listed' {id : TypeId} {uc : UnionCase} (listed : uc ∈ m.types.cases id) :
      uc ∈ (m.edit e).types.cases id ∧ (m.edit e).nameOf uc.name = m.nameOf uc.name := by
    obtain ⟨place, found, member⟩ := TypeTable.place_of_mem_cases listed
    rw [TypeTable.cases_of_place (placed found)]
    exact ⟨quiet.mem_casesAt member, quiet.nameOf member⟩
  cases denotes with
  | union named => exact .union (unionNamed?_edit quiet named)
  | tagsClass named found made =>
    exact .tagsClass (unionNamed?_edit quiet named) (placed found) (adds.tagsAt? made)
  | unionCase named apart known listed =>
    exact .unionCase (unionNamed?_edit quiet named) apart (find?_edit known e) (listed' listed).1
  | tag named found made owned listed =>
    obtain ⟨still, same⟩ := listed' listed
    rw [← same]
    exact .tag (unionNamed?_edit quiet named) (placed found) (adds.tagsAt? made)
      (adds.extends.tagsOwner?_some orderly.rooted owned) still

/-- The short name of what is denoted is the last piece of the reference. -/
theorem Denotes.shortName (denotes : m.Denotes parts element) (orderly : m.Orderly) :
    element.shortName m = parts.getLastD [] := by
  cases denotes with
  | @union name id named =>
    obtain ⟨number, known, current⟩ := Option.bind_eq_some_iff.mp named
    obtain ⟨info, found, rfl⟩ := Option.map_eq_some_iff.mp (orderly.titled number id current)
    change m.unionName id = name
    rw [unionName, found]
    exact nameOf_of_lookup? (NameTable.lookup?_of_find? known)
  | tagsClass => rfl
  | unionCase named apart known =>
    exact nameOf_of_lookup? (NameTable.lookup?_of_find? known)
  | tag => rfl

/-- A tag that is denoted is the tag of a case that its union lists. -/
theorem Denotes.tag_listed {uc : UnionCase} (denotes : m.Denotes parts (.tag uc))
    (orderly : m.Orderly) :
    (∃ place, m.types.unionPlace? uc.union = some place) ∧ uc ∈ m.types.cases uc.union := by
  cases denotes with
  | tag _ _ _ _ listed =>
    obtain ⟨place, -, member⟩ := TypeTable.place_of_mem_cases listed
    refine ⟨⟨place, orderly.sound.placed place uc member⟩, ?_⟩
    rw [orderly.sound.cases_union listed]
    exact listed

end Lookup

/-! ## Quiet histories -/

/-- Every operation is quiet when it is done. -/
def QuietHistory (m : Model) : List ModelEdit → Prop
  | [] => True
  | e :: edits => m.Quiet e ∧ (m.edit e).QuietHistory edits

theorem QuietHistory.append {edits later : List ModelEdit} (quiet : m.QuietHistory edits)
    (quiet' : (m.editAll edits).QuietHistory later) : m.QuietHistory (edits ++ later) := by
  induction edits generalizing m with
  | nil => exact quiet'
  | cons e edits ih => exact ⟨quiet.1, ih quiet.2 quiet'⟩

theorem Orderly.editAll {edits : List ModelEdit} (orderly : m.Orderly)
    (quiet : m.QuietHistory edits) : (m.editAll edits).Orderly := by
  induction edits generalizing m with
  | nil => exact orderly
  | cons e edits ih => exact ih (orderly.edit quiet.1) quiet.2

theorem Denotes.editAll {parts : List Bytes} {element : Element} {edits : List ModelEdit}
    (denotes : m.Denotes parts element) (orderly : m.Orderly) (quiet : m.QuietHistory edits) :
    (m.editAll edits).Denotes parts element := by
  induction edits generalizing m with
  | nil => exact denotes
  | cons e edits ih =>
    exact ih (denotes.edit orderly quiet.1) (orderly.edit quiet.1) quiet.2

end Model
end UnionAtlas
