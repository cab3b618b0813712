import UnionAtlas.Proofs.Model.CaseLists
import UnionAtlas.Proofs.Workspace.Addresses

/-!
# Which unions a workspace accepts

Names are compared in normal form. The names of unions are checked against the registrations of the
model that is being built, and the names of cases against a list that is kept for each union, so
that the check goes through both loops of the description. Accepted is every list of unions in
which no name is missing, no case is called like a tags class, and no name stands twice, and no
other.
-/

namespace UnionAtlas

/-- The names of the cases are there, differ from each other and from the name of tags classes. -/
structure UnionEntry.WellNamed (u : UnionEntry) : Prop where
  named : ∀ c ∈ u.cases.map identifier, c ≠ []
  unreserved : ∀ c ∈ u.cases.map identifier, c ≠ tagsName
  distinct : (u.cases.map identifier).Nodup

/-- The names of the unions are there and differ, and the cases of each are well named. -/
structure WellNamed (us : List UnionEntry) : Prop where
  named : ∀ u ∈ us, identifier u.name ≠ []
  distinct : (us.map fun u => identifier u.name).Nodup
  cases : ∀ u ∈ us, u.WellNamed

theorem wellNamed_append_singleton_iff {us : List UnionEntry} {u : UnionEntry} :
    WellNamed (us ++ [u]) ↔ WellNamed us ∧ identifier u.name ≠ [] ∧
      identifier u.name ∉ us.map (fun u => identifier u.name) ∧ u.WellNamed := by
  constructor
  · rintro ⟨named, distinct, cases⟩
    rw [List.map_append, List.nodup_append] at distinct
    obtain ⟨before, -, apart⟩ := distinct
    refine ⟨⟨fun u member => named u (List.mem_append_left _ member), before,
      fun u member => cases u (List.mem_append_left _ member)⟩, named u (by simp), ?_,
      cases u (by simp)⟩
    intro member
    exact apart _ member _ (by simp) rfl
  · rintro ⟨⟨named, distinct, cases⟩, here, apart, fit⟩
    refine ⟨?_, ?_, ?_⟩
    · exact List.forall_mem_append.mpr ⟨named, by simpa using here⟩
    · rw [List.map_append, List.nodup_append]
      refine ⟨distinct, List.nodup_singleton _, ?_⟩
      intro name member other last same
      obtain rfl := List.mem_singleton.mp last
      rw [same] at member
      exact apart member
    · exact List.forall_mem_append.mpr ⟨cases, by simpa using fit⟩

namespace Workspace

variable {m : Model} {ws ws' : Workspace} {us : List UnionEntry} {u : UnionEntry}

/-! ## Cases -/

/-- Cases are accepted exactly when none is refused for its name, whatever model they are added
to. -/
theorem addCases_accepts_iff {union : Bytes} {id : TypeId} {seen written : List Bytes} :
    (∃ m', addCases union id seen m written = .ok m') ↔
      (∀ c ∈ written.map identifier, c ≠ [] ∧ c ≠ tagsName ∧ c ∉ seen) ∧
        (written.map identifier).Nodup := by
  induction written generalizing m seen with
  | nil => simp [addCases]
  | cons w written ih =>
    unfold addCases
    rw [List.map_cons, List.forall_mem_cons, List.nodup_cons]
    dsimp only
    by_cases empty : identifier w = []
    · simp [empty]
    rw [if_neg empty]
    by_cases reserved : identifier w = tagsName
    · simp [reserved]
    rw [if_neg reserved]
    by_cases again : identifier w ∈ seen
    · simp [again]
    rw [if_neg (by simpa using again), ih]
    -- The rest must avoid this name too: that is what makes the names differ.
    constructor
    · rintro ⟨rest, distinct⟩
      refine ⟨⟨⟨empty, reserved, again⟩, fun c member => ?_⟩, fun member => ?_, distinct⟩
      · obtain ⟨named, free, unseen⟩ := rest c member
        exact ⟨named, free, fun old => unseen (List.mem_cons_of_mem _ old)⟩
      · exact (rest _ member).2.2 List.mem_cons_self
    · rintro ⟨⟨-, rest⟩, apart, distinct⟩
      refine ⟨fun c member => ?_, distinct⟩
      obtain ⟨named, free, unseen⟩ := rest c member
      refine ⟨named, free, fun old => ?_⟩
      rcases List.mem_cons.mp old with rfl | older
      · exact apart member
      · exact unseen older

theorem wellNamed_iff_addCases_accepts {union : Bytes} {id : TypeId} :
    u.WellNamed ↔ ∃ m', addCases union id [] m u.cases = .ok m' := by
  rw [addCases_accepts_iff]
  constructor
  · rintro ⟨named, unreserved, distinct⟩
    exact ⟨fun c member => ⟨named c member, unreserved c member, List.not_mem_nil⟩, distinct⟩
  · rintro ⟨fit, distinct⟩
    exact ⟨fun c member => (fit c member).1, fun c member => (fit c member).2.1, distinct⟩

/-! ## Unions -/

/-- The registrations are those of the described unions, the latest first. -/
def Registers (us : List UnionEntry) (m : Model) : Prop :=
  m.types.registered.map (fun entry => m.names.lookup? entry.1) =
    (us.map fun u => some (identifier u.name)).reverse

/-- A name is registered exactly when a described union has it. -/
theorem Registers.isSome_unionByName?_iff (registers : Registers us m)
    (distinct : m.names.names.Nodup) (name : Bytes) :
    (m.types.unionByName? (m.names.intern name).1).isSome ↔
      name ∈ us.map fun u => identifier u.name := by
  have written (name : Bytes) : name ∈ us.map (fun u => identifier u.name) ↔
      ∃ entry ∈ m.types.registered, m.names.lookup? entry.1 = some name := by
    rw [← List.mem_map, registers, List.mem_reverse, List.mem_map, List.mem_map]
    simp
  rw [written, TypeTable.unionByName?, Option.isSome_map, List.find?_isSome]
  refine exists_congr fun entry => and_congr_right fun member => ?_
  rw [beq_iff_eq]
  constructor
  · intro same
    -- The entry has some name, and the number has this one in the larger table.
    have known : m.names.lookup? entry.1 ∈ (us.map fun u => some (identifier u.name)).reverse :=
      registers ▸ List.mem_map_of_mem member
    rw [List.mem_reverse] at known
    obtain ⟨u, -, known⟩ := List.mem_map.mp known
    have later := getElem?_of_extends (NameTable.names_isPrefix_intern m.names name) known.symm
    have here := NameTable.lookup?_intern m.names name
    rw [← same] at here
    rw [← known, ← here]
    exact later.symm
  · intro known
    rw [NameTable.intern, NameTable.find?_of_lookup? distinct known]

/-- One more union is accepted exactly when the whole list is still well named. -/
theorem Faithful.addUnion_accepts_iff (faithful : Faithful us ws)
    (registers : Registers us ws.model) (wellNamed : WellNamed us) :
    (∃ ws', ws.addUnion u = .ok ws') ↔ WellNamed (us ++ [u]) := by
  have taken := registers.isSome_unionByName?_iff faithful.reachable.names_nodup (identifier u.name)
  rw [wellNamed_append_singleton_iff, ← taken]
  unfold Workspace.addUnion
  dsimp only
  by_cases missing : identifier u.name = []
  · simp [missing]
  rw [if_neg missing]
  by_cases duplicate : (ws.model.types.unionByName?
      (ws.model.names.intern (identifier u.name)).1).isSome = true
  · rw [if_pos duplicate]
    simp [duplicate]
  rw [if_neg duplicate, wellNamed_iff_addCases_accepts (u := u)]
  constructor
  · rintro ⟨ws', added⟩
    obtain ⟨m', done, -⟩ := ok_of_map added
    exact ⟨wellNamed, missing, duplicate, m', done⟩
  · rintro ⟨-, -, -, m', done⟩
    rw [done]
    exact ⟨_, rfl⟩

theorem Faithful.registers_addUnion (faithful : Faithful us ws)
    (registers : Registers us ws.model) (added : ws.addUnion u = .ok ws') :
    Registers (us ++ [u]) ws'.model := by
  obtain ⟨-, m', done, rfl⟩ := addUnion_ok added
  set m := ws.model
  set start := (m.edit (.name (identifier u.name))).edit
    (.register (m.names.intern (identifier u.name)).1 .none)
  have found : start.types.unionPlace? m.types.types.length = some m.types.unions.length :=
    TypeTable.unionPlace?_registerUnion faithful.linked.toRooted.nonempty _ .none
  obtain ⟨cs, adds, -⟩ := addCases_ok found done
  have here := adds.lookup? (NameTable.lookup?_intern m.names (identifier u.name))
  have list : m'.types.registered =
      ((m.names.intern (identifier u.name)).1, m.types.types.length) :: m.types.registered :=
    adds.registered
  have old : m.types.registered.map (fun entry => m'.names.lookup? entry.1) =
      m.types.registered.map fun entry => m.names.lookup? entry.1 := by
    refine List.map_congr_left fun entry member => ?_
    have known : m.names.lookup? entry.1 ∈ (us.map fun u => some (identifier u.name)).reverse :=
      registers ▸ List.mem_map_of_mem member
    rw [List.mem_reverse] at known
    obtain ⟨u', -, known⟩ := List.mem_map.mp known
    rw [← known]
    exact adds.lookup? (getElem?_of_extends (NameTable.names_isPrefix_intern _ _) known.symm)
  rw [Registers, list, List.map_cons, here, old, List.map_append, List.reverse_append]
  exact congrArg (_ :: ·) registers

theorem WellNamed.of_append {more : List UnionEntry} (wellNamed : WellNamed (us ++ more)) :
    WellNamed us where
  named u member := wellNamed.named u (List.mem_append_left _ member)
  distinct := by
    have distinct := wellNamed.distinct
    rw [List.map_append] at distinct
    exact distinct.of_append_left
  cases u member := wellNamed.cases u (List.mem_append_left _ member)

/-- More unions are accepted exactly when the whole list is well named. -/
theorem Faithful.addUnions_accepts_iff {more : List UnionEntry} {number : Nat}
    (faithful : Faithful us ws) (registers : Registers us ws.model) (wellNamed : WellNamed us) :
    (∃ ws', ws.addUnions number more = .ok ws') ↔ WellNamed (us ++ more) := by
  induction more generalizing us ws number with
  | nil => simpa [Workspace.addUnions] using wellNamed
  | cons u more ih =>
    have first := faithful.addUnion_accepts_iff (u := u) registers wellNamed
    have whole : us ++ u :: more = us ++ [u] ++ more := by simp
    rw [Workspace.addUnions, whole]
    cases added : ws.addUnion u with
    | error fault =>
      refine ⟨by simp, fun all => ?_⟩
      obtain ⟨ws', accepted⟩ := first.mpr (WellNamed.of_append all)
      rw [added] at accepted
      cases accepted
    | ok ws' =>
      exact ih (faithful.addUnion added) (faithful.registers_addUnion registers added)
        (first.mp ⟨ws', added⟩)

/-! ## What the workspace lists -/

/-- The union is found under its described name, and lists records of its own with the described
names. -/
structure Lists (m : Model) (u : UnionEntry) (id : TypeId) : Prop where
  found : m.unionNamed? (identifier u.name) = some id
  cases : (m.types.cases id).map (fun uc => m.nameOf uc.name) = u.cases.map identifier
  own : ∀ uc ∈ m.types.cases id, uc.union = id

theorem Faithful.lists {id : TypeId} (faithful : Faithful us ws)
    (declares : Declares ws.model id u) : Lists ws.model u id where
  found := declares.unionName ▸ declares.unionNamed? faithful.reachable.names_nodup
  cases := by
    have named := congrArg (List.map fun name : Option Bytes => name.getD []) declares.cases
    rw [List.map_map, List.map_map] at named
    exact named.trans (List.map_id _)
  own uc listed := by
    obtain ⟨place, found, member⟩ := TypeTable.place_of_mem_cases listed
    exact faithful.linked.numbered (faithful.reachable.sound.placed place uc member) found

/-- Described unions have different numbers, for they have different names. -/
theorem Faithful.nodup_unions (faithful : Faithful us ws) (wellNamed : WellNamed us) :
    ws.unions.Nodup := by
  have names : ws.unions.map ws.model.unionName = us.map fun u => identifier u.name := by
    refine List.forall₂_eq_eq_eq ▸ List.forall₂_map_left_iff.mpr (List.forall₂_map_right_iff.mpr ?_)
    exact faithful.declares.flip.imp fun id u declares => declares.unionName
  exact List.Nodup.of_map ws.model.unionName (names ▸ wellNamed.distinct)

/-- The records of all unions are different. -/
theorem Faithful.nodup_records (faithful : Faithful us ws) (wellNamed : WellNamed us) :
    (ws.unions.flatMap ws.model.types.cases).Nodup := by
  rw [List.nodup_flatMap]
  refine ⟨fun id _ => faithful.reachable.sound.nodup id, ?_⟩
  have own (id : TypeId) (member : id ∈ ws.unions) : ∀ uc ∈ ws.model.types.cases id,
      uc.union = id := by
    obtain ⟨i, bound, rfl⟩ := List.mem_iff_getElem.mp member
    have bound' : i < us.length := faithful.declares.length_eq ▸ bound
    exact (faithful.lists (faithful.declares.get bound' bound)).own
  refine (faithful.nodup_unions wellNamed).pairwise_of_forall_ne fun id member id' member' apart => ?_
  intro uc listed listed'
  exact apart ((own id member uc listed).symm.trans (own id' member' uc listed'))

/-- Unions are accepted if and only if they are well named. Then there is one number for each entry,
in order, under which the model has what the entry describes; all numbers and all records are
different. -/
theorem described_unions_accepted_iff (us : List UnionEntry) :
    ((∃ ws, empty.addUnions 1 us = .ok ws) ↔ WellNamed us) ∧
    ∀ ws, empty.addUnions 1 us = .ok ws →
      List.Forall₂ (Lists ws.model) us ws.unions ∧ ws.unions.Nodup ∧
      (ws.unions.flatMap ws.model.types.cases).Nodup := by
  have accepts : (∃ ws, empty.addUnions 1 us = .ok ws) ↔ WellNamed us :=
    faithful_empty.addUnions_accepts_iff rfl ⟨by simp, List.nodup_nil, by simp⟩
  refine ⟨accepts, fun ws added => ?_⟩
  have wellNamed := accepts.mp ⟨ws, added⟩
  have faithful : Faithful us ws := faithful_empty.addUnions added
  exact ⟨faithful.declares.imp fun u id declares => faithful.lists declares,
    faithful.nodup_unions wellNamed, faithful.nodup_records wellNamed⟩

/-- Blanks around a name do not count: the first list names no case twice, the second one does. -/
theorem described_unions_accepted_iff_blanks :
    let us : List UnionEntry := [⟨text " Shop ", [text "Cafe", text "\tBar"]⟩, ⟨text "U", []⟩]
    let us' : List UnionEntry := [⟨text "Shop", [text "Bar", text " Bar "]⟩]
    (∃ ws, empty.addUnions 1 us = .ok ws ∧ ws.unions = [8, 9] ∧
      ws.model.unionNamed? (text "Shop") = some 8 ∧
      (ws.model.types.cases 8).map (fun uc => ws.model.nameOf uc.name) =
        [text "Cafe", text "Bar"]) ∧
      ¬ ∃ ws, empty.addUnions 1 us' = .ok ws := by
  intro us us'
  have wellNamed : WellNamed us := by
    refine ⟨by decide +kernel, by decide +kernel, ?_⟩
    rw [List.forall_mem_cons, List.forall_mem_singleton]
    exact ⟨⟨by decide +kernel, by decide +kernel, by decide +kernel⟩,
      by decide, by decide, by decide⟩
  obtain ⟨accepts, lists⟩ := described_unions_accepted_iff us
  obtain ⟨ws, added⟩ := accepts.mpr wellNamed
  refine ⟨⟨ws, added, ?_⟩, fun accepted => ?_⟩
  · have numbers : (empty.addUnions 1 us).map Workspace.unions = .ok [8, 9] := by decide +kernel
    rw [added] at numbers
    have unions : ws.unions = [8, 9] := Except.ok.inj numbers
    obtain ⟨listed, -⟩ := lists ws added
    rw [unions] at listed
    obtain ⟨⟨found, cases, -⟩, -⟩ := List.forall₂_cons.mp listed
    have shop : identifier (text " Shop ") = text "Shop" := by decide +kernel
    have names : [text "Cafe", text "\tBar"].map identifier = [text "Cafe", text "Bar"] := by
      decide +kernel
    exact ⟨unions, shop ▸ found, cases.trans names⟩
  · have twice := ((described_unions_accepted_iff us').1.mp accepted).cases _ List.mem_cons_self
    exact absurd twice.distinct (by decide +kernel)

end Workspace
end UnionAtlas
