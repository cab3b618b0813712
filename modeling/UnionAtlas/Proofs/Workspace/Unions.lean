import Mathlib.Data.List.Forall2
import UnionAtlas.Proofs.Model.Links
import UnionAtlas.Proofs.Model.Names
import UnionAtlas.Proofs.Workspace.Steps

/-!
# The unions of a workspace

A description is turned into a model one union after the other, and one case after the other, while
names are still being checked. If all goes well, the model has each described union under its name,
with new records for its cases in the described order; and it was made by operations that any user
of a model has.
-/

namespace UnionAtlas
namespace TypeTable

variable {t : TypeTable} {id : TypeId} {place : Nat}

theorem addCase_of_place (found : t.unionPlace? id = some place) (name : NameId) (decl : Span) :
    t.addCase id name decl =
      (some (t.draftCase id name decl).1, (t.draftCase id name decl).2.modifyCases place
        (· ++ [(t.draftCase id name decl).1])) := by
  simp only [addCase, found]

theorem casesAt_addCase (found : t.unionPlace? id = some place) (name : NameId) (decl : Span)
    (p : Nat) :
    (t.addCase id name decl).2.casesAt p =
      t.casesAt p ++ if p = place then [(t.draftCase id name decl).1] else [] := by
  have bound : place < (t.draftCase id name decl).2.unions.length := bound_of_unionPlace? found
  rw [addCase_of_place found, casesAt_modifyCases _ _ bound]
  by_cases here : p = place
  · simp [here, draftCase, casesAt]
  · simp [here, Ne.symm here, draftCase, casesAt]

theorem unionByName?_registerUnion (t : TypeTable) (name : NameId) (decl : Span) (other : NameId) :
    (t.registerUnion name decl).2.unionByName? other =
      if name = other then some t.types.length else t.unionByName? other := by
  by_cases here : name = other
  · simp [unionByName?, registerUnion, append, here]
  · simp [unionByName?, registerUnion, append, here]

theorem registered_addCase (t : TypeTable) (id : TypeId) (name : NameId) (decl : Span) :
    (t.addCase id name decl).2.registered = t.registered := by
  unfold addCase
  split <;> rfl

end TypeTable

namespace Workspace

variable {m m' : Model} {ws ws' : Workspace}

/-! ## Cases -/

/-- The second model is the first with cases added to the union at a place. -/
structure AddsCases (m m' : Model) (place : Nat) (added : List UnionCase) : Prop where
  history : ∃ edits : List ModelEdit, (∀ e ∈ edits, e.Plain) ∧ m' = m.editAll edits
  registered : m'.types.registered = m.types.registered
  cases : ∀ p, m'.types.casesAt p = m.types.casesAt p ++ if p = place then added else []

theorem addsCases_nil (m : Model) (place : Nat) : AddsCases m m place [] :=
  ⟨⟨[], by simp, rfl⟩, rfl, by simp⟩

theorem AddsCases.lookup? {place : Nat} {added : List UnionCase} {name : NameId} {s : Bytes}
    (adds : AddsCases m m' place added) (known : m.names.lookup? name = some s) :
    m'.names.lookup? name = some s := by
  obtain ⟨edits, -, rfl⟩ := adds.history
  exact Model.lookup?_editAll known edits

/-- One case is a new name and a new record. -/
theorem AddsCases.cons {id : TypeId} {place : Nat} {added : List UnionCase} (c : Bytes)
    (found : m.types.unionPlace? id = some place)
    (adds : AddsCases ((m.edit (.name c)).edit (.add id (m.names.intern c).1 .none)) m' place
      added) :
    AddsCases m m' place ((m.types.draftCase id (m.names.intern c).1 .none).1 :: added) := by
  obtain ⟨⟨edits, plain, same⟩, registered, cases⟩ := adds
  refine ⟨⟨.name c :: .add id (m.names.intern c).1 .none :: edits, ?_, same⟩, ?_, ?_⟩
  · simpa [ModelEdit.Plain] using plain
  · exact registered.trans (TypeTable.registered_addCase _ _ _ _)
  · intro p
    rw [cases p]
    change (m.types.addCase id _ _).2.casesAt p ++ _ = _
    rw [TypeTable.casesAt_addCase found, List.append_assoc]
    by_cases here : p = place <;> simp [here]

/-- Cases that are accepted have different names, none of which was seen before. -/
theorem addCases_ok {union : Bytes} {id : TypeId} {place : Nat} {seen written : List Bytes}
    (found : m.types.unionPlace? id = some place)
    (done : addCases union id seen m written = .ok m') :
    ∃ added, AddsCases m m' place added ∧
      added.map (fun uc => m'.names.lookup? uc.name) = (written.map identifier).map some ∧
      (written.map identifier).Nodup ∧ ∀ c ∈ written.map identifier, c ∉ seen := by
  induction written generalizing m seen with
  | nil =>
    obtain rfl := Except.ok.inj done
    exact ⟨[], addsCases_nil _ place, rfl, List.nodup_nil, by simp⟩
  | cons w written ih =>
    unfold addCases at done
    simp only at done
    split at done
    · cases done
    · split at done
      · cases done
      · split at done
        · cases done
        · next fresh =>
          -- The rest is added to a model in which the name and the record of this case stand.
          set m₁ := (m.edit (.name (identifier w))).edit
            (.add id (m.names.intern (identifier w)).1 .none)
          have found' : m₁.types.unionPlace? id = some place :=
            Model.unionPlace?_editAll found [.name (identifier w), .add id _ .none]
          obtain ⟨added, adds, named, distinct, unseen⟩ := ih found' done
          refine ⟨_, adds.cons (identifier w) found, ?_, ?_, ?_⟩
          · have first := adds.lookup? (NameTable.lookup?_intern m.names (identifier w))
            simp only [List.map_cons, named]
            rw [← first]
            rfl
          · rw [List.map_cons, List.nodup_cons]
            exact ⟨fun again => unseen _ again List.mem_cons_self, distinct⟩
          · rw [List.map_cons, List.forall_mem_cons]
            refine ⟨by simpa using fresh, fun c member old => ?_⟩
            exact unseen c member (List.mem_cons_of_mem _ old)

/-! ## Unions -/

/-- The union is the one that an entry describes: it is found under the described name, and it has
the described cases in their order. -/
structure Declares (m : Model) (id : TypeId) (u : UnionEntry) : Prop where
  named : ∃ name, m.names.lookup? name = some (identifier u.name) ∧
    m.types.unionByName? name = some id ∧ (m.types.info? id).map (·.name) = some name
  cases : (m.types.cases id).map (fun uc => m.names.lookup? uc.name) =
    (u.cases.map identifier).map some
  distinct : (u.cases.map identifier).Nodup

theorem Declares.place {id : TypeId} {u : UnionEntry} (declares : Declares m id u) :
    ∃ place, m.types.unionPlace? id = some place := by
  obtain ⟨name, -, -, known⟩ := declares.named
  obtain ⟨info, known, -⟩ := Option.map_eq_some_iff.mp known
  exact TypeTable.place_of_info? known

theorem Declares.unionName {id : TypeId} {u : UnionEntry} (declares : Declares m id u) :
    m.unionName id = identifier u.name := by
  obtain ⟨name, known, -, registered⟩ := declares.named
  obtain ⟨info, found, rfl⟩ := Option.map_eq_some_iff.mp registered
  simp only [Model.unionName, found, Model.nameOf_of_lookup? known]

/-- A union was added as an entry describes it, and the others are found and listed as before. -/
structure AddsUnion (m m' : Model) (u : UnionEntry) : Prop where
  history : ∃ edits : List ModelEdit, (∀ e ∈ edits, e.Plain) ∧ m' = m.editAll edits
  new : Declares m' m.types.types.length u
  current : ∀ {name id}, m.types.unionByName? name = some id →
    m'.types.unionByName? name = some id
  cases : ∀ place < m.types.unions.length, m'.types.casesAt place = m.types.casesAt place

theorem addUnion_adds {u : UnionEntry} (rooted : ws.model.types.Rooted)
    (added : ws.addUnion u = .ok ws') :
    AddsUnion ws.model ws'.model u ∧
      ws'.unions = ws.unions ++ [ws.model.types.types.length] := by
  obtain ⟨fresh, m', done, rfl⟩ := addUnion_ok added
  refine ⟨?_, rfl⟩
  set m := ws.model
  set name := identifier u.name
  set number := (m.names.intern name).1
  set start := (m.edit (.name name)).edit (.register number .none)
  have found : start.types.unionPlace? m.types.types.length = some m.types.unions.length :=
    TypeTable.unionPlace?_registerUnion rooted.nonempty number .none
  obtain ⟨cs, adds, named, distinct, -⟩ := addCases_ok found done
  obtain ⟨edits, plain, rfl⟩ := adds.history
  have current (other : NameId) : (start.editAll edits).types.unionByName? other =
      if number = other then some m.types.types.length else m.types.unionByName? other := by
    rw [TypeTable.unionByName?, adds.registered]
    exact TypeTable.unionByName?_registerUnion _ _ _ _
  have listed (place : Nat) : (start.editAll edits).types.casesAt place =
      m.types.casesAt place ++ if place = m.types.unions.length then cs else [] := by
    rw [adds.cases]
    exact congrArg (· ++ _) (TypeTable.casesAt_registerUnion _ _ _ _)
  refine ⟨⟨.name name :: .register number .none :: edits, ?_, rfl⟩, ?_, ?_, ?_⟩
  · simpa [ModelEdit.Plain] using plain
  · refine ⟨⟨number, ?_, ?_, ?_⟩, ?_, distinct⟩
    · exact adds.lookup? (NameTable.lookup?_intern m.names name)
    · rw [current, if_pos rfl]
    · have rooted' : start.types.Rooted :=
        rooted.adds (TypeTable.adds_registerUnion m.types number .none)
      have old := TypeTable.lt_length_of_unionPlace? found
      rw [(Model.extends_editAll plain).unionName rooted' old, TypeTable.info?, found]
      simp [start, Model.edit, TypeTable.registerUnion, TypeTable.append]
    · have empty : m.types.casesAt m.types.unions.length = [] := by simp [TypeTable.casesAt]
      rw [TypeTable.cases_of_place (Model.unionPlace?_editAll found edits), listed, if_pos rfl,
        empty, List.nil_append, named]
  · intro other id here
    have apart : number ≠ other := by
      rintro rfl
      rw [fresh] at here
      cases here
    rw [current, if_neg apart, here]
  · intro place old
    rw [listed, if_neg (Nat.ne_of_lt old), List.append_nil]

/-- A described union stays as it is while another one is added. -/
theorem Declares.later {id : TypeId} {u added : UnionEntry} (declares : Declares m id u)
    (rooted : m.types.Rooted) (adds : AddsUnion m m' added) : Declares m' id u := by
  obtain ⟨place, found⟩ := declares.place
  obtain ⟨name, known, here, registered⟩ := declares.named
  obtain ⟨edits, plain, same⟩ := adds.history
  have still {number : NameId} {s : Bytes} (known : m.names.lookup? number = some s) :
      m'.names.lookup? number = some s := by
    rw [same]
    exact Model.lookup?_editAll known edits
  have listed : m'.types.cases id = m.types.cases id := by
    have found' : m'.types.unionPlace? id = some place := by
      rw [same]
      exact Model.unionPlace?_editAll found edits
    rw [TypeTable.cases_of_place found, TypeTable.cases_of_place found',
      adds.cases place (TypeTable.bound_of_unionPlace? found)]
  refine ⟨⟨name, still known, adds.current here, ?_⟩, ?_, declares.distinct⟩
  · have old := TypeTable.lt_length_of_unionPlace? found
    rw [same, (Model.extends_editAll plain).unionName rooted old, registered]
  · rw [listed, ← declares.cases]
    apply List.map_congr_left
    intro uc member
    have written := List.mem_map_of_mem (f := fun uc => m.names.lookup? uc.name) member
    rw [declares.cases] at written
    obtain ⟨s, -, known⟩ := List.mem_map.mp written
    rw [← known, still known.symm]

/-! ## Descriptions -/

/-- A workspace has the described unions in their order, and was made by plain operations. -/
structure Faithful (us : List UnionEntry) (ws : Workspace) : Prop where
  history : ∃ edits : List ModelEdit, (∀ e ∈ edits, e.Plain) ∧
    ws.model = (Model.new 0).editAll edits
  declares : List.Forall₂ (fun u id => Declares ws.model id u) us ws.unions

variable {us : List UnionEntry} {u : UnionEntry}

theorem faithful_empty : Faithful [] empty :=
  ⟨⟨[], by simp, rfl⟩, .nil⟩

theorem Faithful.linked (faithful : Faithful us ws) : ws.model.types.Linked := by
  obtain ⟨edits, plain, made⟩ := faithful.history
  rw [made]
  exact Model.linked_editAll (TypeTable.linked_new 0) plain

theorem Faithful.reachable (faithful : Faithful us ws) : ws.model.Reachable := by
  obtain ⟨edits, -, made⟩ := faithful.history
  exact ⟨0, edits, made⟩

theorem Faithful.addUnion (faithful : Faithful us ws) (added : ws.addUnion u = .ok ws') :
    Faithful (us ++ [u]) ws' := by
  have rooted := faithful.linked.toRooted
  obtain ⟨adds, unions⟩ := addUnion_adds rooted added
  refine ⟨?_, ?_⟩
  · obtain ⟨before, plainBefore, made⟩ := faithful.history
    obtain ⟨edits, plain, same⟩ := adds.history
    refine ⟨before ++ edits, ?_, by rw [Model.editAll_append, ← made, same]⟩
    intro e member
    rcases List.mem_append.mp member with old | new
    · exact plainBefore e old
    · exact plain e new
  · rw [unions]
    apply List.rel_append
    · exact faithful.declares.imp fun u id declares => declares.later rooted adds
    · exact .cons adds.new .nil

theorem Faithful.addUnions {more : List UnionEntry} {number : Nat} (faithful : Faithful us ws)
    (added : ws.addUnions number more = .ok ws') : Faithful (us ++ more) ws' := by
  induction more generalizing us ws number with
  | nil =>
    obtain rfl := Except.ok.inj added
    rw [List.append_nil]
    exact faithful
  | cons u more ih =>
    rw [Workspace.addUnions] at added
    split at added
    · cases added
    · next first =>
      have rest := ih (faithful.addUnion first) added
      rwa [List.append_assoc] at rest

/-- Files leave the unions alone, so a workspace is faithful to the whole description. -/
theorem faithful_of_ofDescription {disk : Disk} {base : Bytes} {d : Description}
    (made : ofDescription disk base d = .ok ws) : Faithful d.unions ws := by
  obtain ⟨ws₁, unions, files⟩ := ofDescription_ok made
  refine addFiles_keeps (Faithful d.unions) ?_ (faithful_empty.addUnions unions) files
  intro ws f ws' faithful added
  obtain ⟨file, bindings, -, -, -, -, rfl⟩ := addFile_ok added
  exact ⟨faithful.history, faithful.declares⟩

theorem faithful_of_load {disk : Disk} {path content : Bytes} {d : Description}
    {document : Toml.Document} (found : disk.content path = .ok content)
    (read : Toml.read content Description.reader = .ok (d, document))
    (loaded : load disk path = .ok ws) : Faithful d.unions ws := by
  simp only [load, found, parse, read] at loaded
  cases made : ofDescription disk (Path.directory path) d with
  | error e => simp [made] at loaded
  | ok parsed =>
    rw [made] at loaded
    obtain rfl := Except.ok.inj loaded
    have faithful := faithful_of_ofDescription made
    exact ⟨faithful.history, faithful.declares⟩

theorem Faithful.declared (faithful : Faithful us ws) (described : u ∈ us) :
    ∃ id, Declares ws.model id u := by
  obtain ⟨i, bound, rfl⟩ := List.mem_iff_getElem.mp described
  have bound' : i < ws.unions.length := faithful.declares.length_eq ▸ bound
  exact ⟨_, faithful.declares.get bound bound'⟩

/-- A case that a union describes is the only one of its name there. -/
theorem Declares.find? {id : TypeId} {case : Bytes} {n : Nat} (declares : Declares m id u)
    (listed : (u.cases.map identifier)[n]? = some case) :
    ∃ uc, (m.types.cases id)[n]? = some uc ∧ m.names.lookup? uc.name = some case ∧
      (m.types.cases id).find? (·.name == uc.name) = some uc := by
  have names (i : Nat) : ((m.types.cases id)[i]?).map (fun uc => m.names.lookup? uc.name) =
      ((u.cases.map identifier)[i]?).map some := by
    rw [← List.getElem?_map, declares.cases, List.getElem?_map]
  obtain ⟨uc, here, known⟩ := Option.map_eq_some_iff.mp ((names n).trans (by rw [listed]; rfl))
  refine ⟨uc, here, known, ?_⟩
  have found : ((m.types.cases id).find? (·.name == uc.name)).isSome := by
    rw [List.find?_isSome]
    exact ⟨uc, List.mem_of_getElem? here, beq_self_eq_true uc.name⟩
  obtain ⟨other, first⟩ := Option.isSome_iff_exists.mp found
  have same : other.name = uc.name := by simpa using List.find?_some first
  obtain ⟨i, there⟩ := List.mem_iff_getElem?.mp (List.mem_of_find?_eq_some first)
  -- The first case of the name is described with the same name, so it has the same position.
  have written : (u.cases.map identifier)[i]? = some case := by
    have shown := names i
    rw [there, Option.map_some, same, known] at shown
    obtain ⟨s, position, equal⟩ := Option.map_eq_some_iff.mp shown.symm
    rw [position, Option.some.inj equal]
  obtain ⟨bound, at_i⟩ := List.getElem?_eq_some_iff.mp written
  obtain ⟨bound', at_n⟩ := List.getElem?_eq_some_iff.mp listed
  obtain rfl := declares.distinct.getElem_inj_iff.mp (at_i.trans at_n.symm)
  rw [first, ← there, here]

end Workspace
end UnionAtlas
