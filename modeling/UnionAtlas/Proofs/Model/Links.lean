import UnionAtlas.Proofs.Model.TagEquality

/-!
# How types, unions and tags classes point to each other

Types, unions and the owners of tags classes stand in three lists that point into each other and
only grow. This module says once what an operation adds to them. While nobody makes a union or
a tags class by hand, every pointer leads somewhere, each union has one number, and a union and its
tags class name each other.
-/

namespace UnionAtlas

/-- The operation makes no union and no tags class by hand. -/
def ModelEdit.Plain : ModelEdit → Prop
  | .intern d => d.kind ≠ .union ∧ d.kind ≠ .tagsClass
  | _ => True

namespace TypeTable

variable {t t' : TypeTable} {id id' owner tags : TypeId} {place : Nat} {d : TypeDesc}

/-! ## What an operation adds -/

/-- The name and the tags class of each union. -/
def heads (t : TypeTable) : List (NameId × Option TypeId) :=
  t.unions.map fun info => (info.name, info.tags)

@[simp]
theorem length_heads (t : TypeTable) : t.heads.length = t.unions.length :=
  List.length_map _

theorem tagsAt?_eq_heads (t : TypeTable) (place : Nat) :
    t.tagsAt? place = (t.heads[place]?).bind (·.2) := by
  rw [tagsAt?, heads, List.getElem?_map]
  cases t.unions[place]? <;> rfl

theorem heads_modifyUnion (t : TypeTable) (place : Nat) (f : UnionInfo → UnionInfo)
    (g : NameId × Option TypeId → NameId × Option TypeId)
    (same : ∀ info, ((f info).name, (f info).tags) = g (info.name, info.tags)) :
    (t.modifyUnion place f).heads = t.heads.modify place g := by
  apply List.ext_getElem?
  intro p
  simp only [heads, modifyUnion, List.getElem?_map, List.getElem?_modify]
  cases t.unions[p]? with
  | none => rfl
  | some info =>
    by_cases here : place = p
    · simp [here, same]
    · simp [here]

theorem heads_modifyCases (t : TypeTable) (place : Nat) (f : List UnionCase → List UnionCase) :
    (t.modifyCases place f).heads = t.heads := by
  have kept := heads_modifyUnion t place (fun info => { info with cases := f info.cases })
    (fun head => head) (fun _ => rfl)
  exact kept.trans (List.modify_id _ _)

/-- What an operation adds to types, unions and owners: nothing, a type that is neither a union nor
a tags class, a union, or the first tags class of a union. -/
inductive Adds (t : TypeTable) : ModelEdit → TypeTable → Prop where
  | nothing {e : ModelEdit} {t' : TypeTable} (types : t'.types = t.types)
      (heads : t'.heads = t.heads) (owners : t'.tagsOwners = t.tagsOwners) : Adds t e t'
  | plain {t' : TypeTable} (d : TypeDesc) (kind : d.kind ≠ .union ∧ d.kind ≠ .tagsClass)
      (types : t'.types = t.types ++ [d]) (heads : t'.heads = t.heads)
      (owners : t'.tagsOwners = t.tagsOwners) : Adds t (.intern d) t'
  | union {t' : TypeTable} (name : NameId) (decl : Span)
      (types : t'.types = t.types ++ [{ kind := .union, payload := t.unions.length + 1 }])
      (heads : t'.heads = t.heads ++ [(name, none)]) (owners : t'.tagsOwners = t.tagsOwners) :
      Adds t (.register name decl) t'
  | tags {t' : TypeTable} (owner : TypeId) (place : Nat) (found : t.unionPlace? owner = some place)
      (absent : t.tagsAt? place = none)
      (types : t'.types = t.types ++ [{ kind := .tagsClass, payload := t.tagsOwners.length + 1 }])
      (heads : t'.heads = t.heads.modify place fun head => (head.1, some t.types.length))
      (owners : t'.tagsOwners = t.tagsOwners ++ [owner]) : Adds t (.tagsClass owner) t'

variable {e : ModelEdit}

theorem adds_intern (t : TypeTable) (plain : d.kind ≠ .union ∧ d.kind ≠ .tagsClass) :
    Adds t (.intern d) (t.intern d).2 := by
  unfold intern
  split
  · exact .nothing rfl rfl rfl
  · split
    · exact .nothing rfl rfl rfl
    · exact .plain d plain rfl rfl rfl

/-- Interning adds a type at most, whatever the descriptor. -/
theorem intern_leaves (t : TypeTable) (d : TypeDesc) :
    (t.intern d).2.unions = t.unions ∧ (t.intern d).2.tagsOwners = t.tagsOwners := by
  unfold intern
  split
  · exact ⟨rfl, rfl⟩
  · split <;> exact ⟨rfl, rfl⟩

theorem adds_registerUnion (t : TypeTable) (name : NameId) (decl : Span) :
    Adds t (.register name decl) (t.registerUnion name decl).2 :=
  .union name decl rfl (by simp [heads, registerUnion, append]) rfl

theorem adds_addCase (t : TypeTable) (union : TypeId) (name : NameId) (decl : Span) :
    Adds t e (t.addCase union name decl).2 := by
  unfold addCase
  split
  · exact .nothing rfl rfl rfl
  · exact .nothing rfl (heads_modifyCases _ _ _) rfl

theorem adds_editCase (t : TypeTable) (uc : UnionCase) (f : List UnionCase → List UnionCase) :
    Adds t e (t.editCase uc f).2 := by
  unfold editCase
  split
  · exact .nothing rfl (heads_modifyCases _ _ _) rfl
  · exact .nothing rfl rfl rfl

theorem adds_replaceCases (t : TypeTable) (union : TypeId) (names : List NameId) :
    Adds t e (t.replaceCases union names).2 := by
  unfold replaceCases
  split
  · exact .nothing rfl rfl rfl
  · have drafted := draftCases_snd t union names
    refine .nothing ?_ ((heads_modifyCases _ _ _).trans ?_) ?_
    all_goals simp only [modifyCases, modifyUnion, drafted, heads]

theorem adds_tagsClass (t : TypeTable) (union : TypeId) :
    Adds t (.tagsClass union) (t.tagsClass union).2 := by
  unfold tagsClass
  split
  · exact .nothing rfl rfl rfl
  · next place found =>
    split
    · exact .nothing rfl rfl rfl
    · next absent =>
      exact .tags union place found absent rfl (heads_modifyUnion _ _ _ _ fun _ => rfl) rfl

/-! ## What later states keep -/

/-- The three lists of a table begin those of a later one. -/
structure Extends (t t' : TypeTable) : Prop where
  types : t.types <+: t'.types
  names : t.heads.map (·.1) <+: t'.heads.map (·.1)
  owners : t.tagsOwners <+: t'.tagsOwners

theorem Extends.refl (t : TypeTable) : Extends t t :=
  ⟨List.prefix_rfl, List.prefix_rfl, List.prefix_rfl⟩

theorem Extends.trans {t'' : TypeTable} (first : Extends t t') (second : Extends t' t'') :
    Extends t t'' :=
  ⟨first.types.trans second.types, first.names.trans second.names,
    first.owners.trans second.owners⟩

theorem Adds.extends (adds : Adds t e t') : Extends t t' := by
  cases adds with
  | nothing types heads owners =>
    exact ⟨types ▸ List.prefix_rfl, heads ▸ List.prefix_rfl, owners ▸ List.prefix_rfl⟩
  | plain d kind types heads owners =>
    exact ⟨types ▸ List.prefix_append _ _, heads ▸ List.prefix_rfl, owners ▸ List.prefix_rfl⟩
  | union name decl types heads owners =>
    refine ⟨types ▸ List.prefix_append _ _, ?_, owners ▸ List.prefix_rfl⟩
    rw [heads, List.map_append]
    exact List.prefix_append _ _
  | tags owner place found absent types heads owners =>
    refine ⟨types ▸ List.prefix_append _ _, ?_, owners ▸ List.prefix_append _ _⟩
    have names : t'.heads.map (·.1) = t.heads.map (·.1) := by
      apply List.ext_getElem?
      intro p
      simp only [heads, List.getElem?_map, List.getElem?_modify]
      cases t.heads[p]? with
      | none => rfl
      | some head => by_cases here : place = p <;> simp [here]
    exact names ▸ List.prefix_rfl

/-- Every union and every tags class among the types has its place. -/
structure Rooted (t : TypeTable) : Prop where
  nonempty : t.types ≠ []
  unions : ∀ d ∈ t.types, d.kind = .union → d.payload ≠ 0 ∧ d.payload ≤ t.unions.length
  tags : ∀ d ∈ t.types, d.kind = .tagsClass → d.payload ≠ 0 ∧ d.payload ≤ t.tagsOwners.length

theorem rooted_new (ident : Nat) : Rooted (new ident) := by
  refine ⟨by simp [new], ?_, ?_⟩
  all_goals
    intro d known kind
    simp [new, TypeDesc.int, TypeDesc.uint, TypeDesc.float] at known
    rcases known with rfl | rfl | rfl | rfl | rfl | rfl | rfl | rfl <;> simp at kind

theorem Extends.length_unions (extension : Extends t t') : t.unions.length ≤ t'.unions.length := by
  simpa using extension.names.length_le

theorem Rooted.adds (rooted : Rooted t) (adds : Adds t e t') : Rooted t' := by
  have wider := adds.extends.length_unions
  have longer := adds.extends.owners.length_le
  have old (d : TypeDesc) (known : d ∈ t.types) :
      (d.kind = .union → d.payload ≠ 0 ∧ d.payload ≤ t'.unions.length) ∧
      (d.kind = .tagsClass → d.payload ≠ 0 ∧ d.payload ≤ t'.tagsOwners.length) := by
    refine ⟨fun kind => ?_, fun kind => ?_⟩
    · have := rooted.unions d known kind
      omega
    · have := rooted.tags d known kind
      omega
  have every : ∀ d ∈ t'.types,
      (d.kind = .union → d.payload ≠ 0 ∧ d.payload ≤ t'.unions.length) ∧
      (d.kind = .tagsClass → d.payload ≠ 0 ∧ d.payload ≤ t'.tagsOwners.length) := by
    intro d known
    cases adds with
    | nothing types => exact old d (types ▸ known)
    | plain added kind types =>
      rw [types] at known
      rcases List.mem_append.mp known with known | new
      · exact old d known
      · obtain rfl := List.mem_singleton.mp new
        exact ⟨fun union => absurd union kind.1, fun tags => absurd tags kind.2⟩
    | union name decl types heads =>
      rw [types] at known
      rcases List.mem_append.mp known with known | new
      · exact old d known
      · obtain rfl := List.mem_singleton.mp new
        have count := congrArg List.length heads
        simp at count
        simp [count]
    | tags owner place found absent types heads owners =>
      rw [types] at known
      rcases List.mem_append.mp known with known | new
      · exact old d known
      · obtain rfl := List.mem_singleton.mp new
        simp [owners]
  refine ⟨?_, fun d known => (every d known).1, fun d known => (every d known).2⟩
  intro empty
  exact rooted.nonempty (List.prefix_nil.mp (empty ▸ adds.extends.types))

section Kept

variable (rooted : Rooted t) (extension : Extends t t') (old : id < t.types.length)

include extension old in
theorem Extends.lookup? : t'.lookup? id = t.lookup? id := by
  obtain ⟨more, grown⟩ := extension.types
  simp only [TypeTable.lookup?, ← grown, List.getElem?_append_left old]

theorem mem_of_lookup? (known : t.lookup? id = some d) : d ∈ t.types := by
  rw [TypeTable.lookup?] at known
  split at known
  · cases known
  · exact List.mem_of_getElem? known

include rooted extension old in
/-- A type that is no union does not become one when unions are added. -/
theorem Extends.unionPlace? : t'.unionPlace? id = t.unionPlace? id := by
  have wider := extension.length_unions
  simp only [TypeTable.unionPlace?, extension.lookup? old]
  cases known : t.lookup? id with
  | none => rfl
  | some d =>
    by_cases kind : d.kind = .union
    · have range := rooted.unions d (mem_of_lookup? known) kind
      have range' : d.payload ≤ t'.unions.length := Nat.le_trans range.2 wider
      simp [kind, range.1, range.2, range']
    · simp [kind]

include rooted extension old in
theorem Extends.tagsOwner? : t'.tagsOwner? id = t.tagsOwner? id := by
  obtain ⟨more, grown⟩ := extension.owners
  simp only [TypeTable.tagsOwner?, extension.lookup? old]
  cases known : t.lookup? id with
  | none => rfl
  | some d =>
    by_cases kind : d.kind = .tagsClass
    · have range := rooted.tags d (mem_of_lookup? known) kind
      simp only [kind, range.1, true_and, ne_eq, not_false_eq_true, if_true, ← grown]
      rw [List.getElem?_append_left (by omega)]
    · simp [kind]

include rooted extension old in
theorem Extends.unionName : (t'.info? id).map (·.name) = (t.info? id).map (·.name) := by
  have byHeads (t : TypeTable) : (t.info? id).map (·.name) =
      (t.unionPlace? id).bind fun place => (t.heads.map (·.1))[place]? := by
    rw [info?]
    cases t.unionPlace? id with
    | none => rfl
    | some place => simp [heads, Function.comp_def]
  rw [byHeads, byHeads, extension.unionPlace? rooted old]
  cases found : t.unionPlace? id with
  | none => rfl
  | some place =>
    obtain ⟨more, grown⟩ := extension.names
    have bound : place < (t.heads.map (·.1)).length := by
      simpa using bound_of_unionPlace? found
    simp only [Option.bind_some, ← grown, List.getElem?_append_left bound]

end Kept

/-! ## Unions and tags classes name each other -/

/-- A union has one number, and a union and its tags class name each other. -/
structure Linked (t : TypeTable) : Prop extends Rooted t where
  numbered : ∀ {id id' place}, t.unionPlace? id = some place → t.unionPlace? id' = some place →
    id = id'
  owned : ∀ {place tags}, t.tagsAt? place = some tags →
    ∃ owner, t.unionPlace? owner = some place ∧ t.tagsOwner? tags = some owner
  owner : ∀ {tags owner}, t.tagsOwner? tags = some owner →
    ∃ place, t.unionPlace? owner = some place ∧ t.tagsAt? place = some tags

theorem lt_length_of_lookup? (known : t.lookup? id = some d) : id < t.types.length := by
  rw [lookup?] at known
  split at known
  · cases known
  · exact (List.getElem?_eq_some_iff.mp known).1

theorem lt_length_of_unionPlace? (found : t.unionPlace? id = some place) :
    id < t.types.length := by
  obtain ⟨d, known, -⟩ := unionPlace?_eq_some_iff.mp found
  exact lt_length_of_lookup? known

theorem tagsOwner?_eq_some_iff :
    t.tagsOwner? id = some owner ↔
      ∃ d, t.lookup? id = some d ∧ d.kind = .tagsClass ∧ d.payload ≠ 0 ∧
        t.tagsOwners[d.payload - 1]? = some owner := by
  rw [tagsOwner?]
  cases known : t.lookup? id with
  | none => simp
  | some d =>
    by_cases valid : d.kind = .tagsClass ∧ d.payload ≠ 0
    · simp [valid]
    · simp only [valid, if_false, Option.some.injEq, exists_eq_left']
      tauto

theorem lt_length_of_tagsOwner? (found : t.tagsOwner? id = some owner) : id < t.types.length := by
  obtain ⟨d, known, -⟩ := tagsOwner?_eq_some_iff.mp found
  exact lt_length_of_lookup? known

theorem linked_new (ident : Nat) : Linked (new ident) := by
  have rooted := rooted_new ident
  have noUnion (id : TypeId) : (new ident).unionPlace? id = none := by
    by_contra some
    obtain ⟨place, found⟩ := Option.ne_none_iff_exists'.mp some
    exact Nat.not_lt_zero _ (bound_of_unionPlace? found)
  have noTags (id : TypeId) : (new ident).tagsOwner? id = none := by
    by_contra some
    obtain ⟨owner, found⟩ := Option.ne_none_iff_exists'.mp some
    obtain ⟨d, -, -, -, owned⟩ := tagsOwner?_eq_some_iff.mp found
    simp [new] at owned
  refine ⟨rooted, ?_, ?_, ?_⟩
  · intro id id' place found
    simp [noUnion] at found
  · intro place tags made
    simp [tagsAt?, new] at made
  · intro tags owner found
    simp [noTags] at found

section Added

variable (nonempty : t.types ≠ []) (types : t'.types = t.types ++ [d])

include nonempty types in
/-- The type that was added has the next number. -/
theorem lookup?_last : t'.lookup? t.types.length = some d := by
  have nonzero : t.types.length ≠ 0 := by simpa using nonempty
  rw [lookup?, if_neg nonzero, types]
  simp

include nonempty types in
theorem last_of_lookup? {d' : TypeDesc} (known : t'.lookup? id = some d')
    (new : ¬ id < t.types.length) : id = t.types.length ∧ d' = d := by
  have bound := lt_length_of_lookup? known
  rw [types, List.length_append, List.length_singleton] at bound
  obtain rfl : id = t.types.length := Nat.le_antisymm (Nat.le_of_lt_succ bound) (Nat.not_lt.mp new)
  rw [lookup?_last nonempty types] at known
  exact ⟨rfl, (Option.some.inj known).symm⟩

variable (rooted : Rooted t) (extension : Extends t t')

include types rooted extension in
/-- A union is an old one, or it is the type that was added. -/
theorem unionPlace?_last_cases (found : t'.unionPlace? id = some place) :
    t.unionPlace? id = some place ∨
      id = t.types.length ∧ d.kind = .union ∧ d.payload = place + 1 := by
  by_cases old : id < t.types.length
  · exact .inl (extension.unionPlace? rooted old ▸ found)
  · obtain ⟨d', known, kind, payload, -⟩ := unionPlace?_eq_some_iff.mp found
    obtain ⟨last, rfl⟩ := last_of_lookup? rooted.nonempty types known old
    exact .inr ⟨last, kind, payload⟩

include types rooted extension in
/-- A tags class is an old one, or it is the type that was added. -/
theorem tagsOwner?_last_cases (found : t'.tagsOwner? id = some owner) :
    t.tagsOwner? id = some owner ∨
      id = t.types.length ∧ d.kind = .tagsClass ∧
        t'.tagsOwners[d.payload - 1]? = some owner := by
  by_cases old : id < t.types.length
  · exact .inl (extension.tagsOwner? rooted old ▸ found)
  · obtain ⟨d', known, kind, -, owned⟩ := tagsOwner?_eq_some_iff.mp found
    obtain ⟨last, rfl⟩ := last_of_lookup? rooted.nonempty types known old
    exact .inr ⟨last, kind, owned⟩

end Added

theorem unionPlace?_registerUnion (nonempty : t.types ≠ []) (name : NameId) (decl : Span) :
    (t.registerUnion name decl).2.unionPlace? (t.registerUnion name decl).1 =
      some t.unions.length := by
  have known : (t.registerUnion name decl).2.lookup? t.types.length = some _ :=
    lookup?_last nonempty rfl
  refine unionPlace?_eq_some_iff.mpr ⟨_, known, rfl, rfl, ?_⟩
  simp [registerUnion, append]

theorem Extends.unionPlace?_some (extension : Extends t t') (rooted : Rooted t)
    (found : t.unionPlace? id = some place) : t'.unionPlace? id = some place :=
  (extension.unionPlace? rooted (lt_length_of_unionPlace? found)).trans found

theorem Extends.tagsOwner?_some (extension : Extends t t') (rooted : Rooted t)
    (found : t.tagsOwner? id = some owner) : t'.tagsOwner? id = some owner :=
  (extension.tagsOwner? rooted (lt_length_of_tagsOwner? found)).trans found

/-- A tags class that was made stays. -/
theorem Adds.tagsAt? (adds : Adds t e t') (made : t.tagsAt? place = some tags) :
    t'.tagsAt? place = some tags := by
  have bound : place < t.heads.length := by
    rw [tagsAt?_eq_heads] at made
    obtain ⟨head, known, -⟩ := Option.bind_eq_some_iff.mp made
    exact (List.getElem?_eq_some_iff.mp known).1
  cases adds with
  | nothing types heads => rw [tagsAt?_eq_heads, heads, ← tagsAt?_eq_heads, made]
  | plain d kind types heads => rw [tagsAt?_eq_heads, heads, ← tagsAt?_eq_heads, made]
  | union name decl types heads =>
    rw [tagsAt?_eq_heads, heads, List.getElem?_append_left bound, ← tagsAt?_eq_heads, made]
  | tags owner other found absent types heads =>
    have apart : other ≠ place := by
      rintro rfl
      rw [absent] at made
      cases made
    rw [tagsAt?_eq_heads, heads, List.getElem?_modify_ne _ _ apart, ← tagsAt?_eq_heads, made]

/-- A tags class that is there was there, or it is the one that was added. -/
theorem Adds.tagsAt?_cases (adds : Adds t e t') (made : t'.tagsAt? place = some tags) :
    t.tagsAt? place = some tags ∨
      ∃ owner, t.unionPlace? owner = some place ∧ tags = t.types.length ∧
        t'.types = t.types ++ [{ kind := .tagsClass, payload := t.tagsOwners.length + 1 }] ∧
        t'.tagsOwners = t.tagsOwners ++ [owner] := by
  rw [tagsAt?_eq_heads] at made ⊢
  cases adds with
  | nothing types heads => exact .inl (heads ▸ made)
  | plain d kind types heads => exact .inl (heads ▸ made)
  | union name decl types heads =>
    rw [heads, List.getElem?_append] at made
    split at made
    · exact .inl made
    · -- The new union has no tags class yet.
      obtain ⟨head, known, tagged⟩ := Option.bind_eq_some_iff.mp made
      obtain rfl := List.mem_singleton.mp (List.mem_of_getElem? known)
      cases tagged
  | tags owner other found absent types heads owners =>
    by_cases here : other = place
    · subst here
      have bound : other < t.heads.length := by simpa using bound_of_unionPlace? found
      rw [heads, List.getElem?_modify_eq, List.getElem?_eq_getElem bound] at made
      exact .inr ⟨owner, found, (Option.some.inj made).symm, types, owners⟩
    · rw [heads, List.getElem?_modify_ne _ _ here] at made
      exact .inl made

/-- A union is an old one, or it was registered just now. -/
theorem Adds.unionPlace?_cases (adds : Adds t e t') (rooted : Rooted t)
    (found : t'.unionPlace? id = some place) :
    t.unionPlace? id = some place ∨
      id = t.types.length ∧ place = t.unions.length ∧ ∃ name decl, e = .register name decl := by
  have extension := adds.extends
  cases adds with
  | nothing types =>
    have old : id < t.types.length := types ▸ lt_length_of_unionPlace? found
    exact .inl (extension.unionPlace? rooted old ▸ found)
  | plain d kind types =>
    rcases unionPlace?_last_cases types rooted extension found with old | ⟨-, union, -⟩
    · exact .inl old
    · exact absurd union kind.1
  | union name decl types =>
    rcases unionPlace?_last_cases types rooted extension found with old | ⟨last, -, payload⟩
    · exact .inl old
    · exact .inr ⟨last, (Nat.succ.inj payload).symm, name, decl, rfl⟩
  | tags owner other there absent types =>
    rcases unionPlace?_last_cases types rooted extension found with old | ⟨-, union, -⟩
    · exact .inl old
    · cases union

/-- A tags class is an old one, or its union asked for it just now for the first time. -/
theorem Adds.tagsOwner?_cases (adds : Adds t e t') (rooted : Rooted t)
    (found : t'.tagsOwner? tags = some owner) :
    t.tagsOwner? tags = some owner ∨
      tags = t.types.length ∧ e = .tagsClass owner ∧
        ∃ place, t.unionPlace? owner = some place ∧ t.tagsAt? place = none ∧
          t'.tagsAt? place = some tags := by
  have extension := adds.extends
  cases adds with
  | nothing types =>
    have old : tags < t.types.length := types ▸ lt_length_of_tagsOwner? found
    exact .inl (extension.tagsOwner? rooted old ▸ found)
  | plain d kind types =>
    rcases tagsOwner?_last_cases types rooted extension found with old | ⟨-, tagged, -⟩
    · exact .inl old
    · exact absurd tagged kind.2
  | union name decl types =>
    rcases tagsOwner?_last_cases types rooted extension found with old | ⟨-, tagged, -⟩
    · exact .inl old
    · cases tagged
  | tags union place there absent types heads owners =>
    rcases tagsOwner?_last_cases types rooted extension found with old | ⟨last, -, owned⟩
    · exact .inl old
    · have same : union = owner := by simpa [owners] using owned
      subst same
      have bound : place < t.heads.length := by simpa using bound_of_unionPlace? there
      have made : t'.tagsAt? place = some t.types.length := by
        rw [tagsAt?_eq_heads, heads, List.getElem?_modify_eq, List.getElem?_eq_getElem bound]
        rfl
      exact .inr ⟨last, rfl, place, there, absent, last ▸ made⟩

theorem Linked.adds (linked : Linked t) (adds : Adds t e t') : Linked t' := by
  have rooted := linked.toRooted
  have extension := adds.extends
  refine ⟨rooted.adds adds, ?_, ?_, ?_⟩
  · intro id id' place found found'
    -- The place of a new union is beyond the places of all old ones.
    rcases adds.unionPlace?_cases rooted found with old | ⟨last, new, -⟩ <;>
      rcases adds.unionPlace?_cases rooted found' with old' | ⟨last', new', -⟩
    · exact linked.numbered old old'
    · exact absurd (bound_of_unionPlace? old) (by omega)
    · exact absurd (bound_of_unionPlace? old') (by omega)
    · exact last.trans last'.symm
  · intro place tags made
    rcases adds.tagsAt?_cases made with old | ⟨owner, found, rfl, types, owners⟩
    · obtain ⟨owner, found, owned⟩ := linked.owned old
      exact ⟨owner, extension.unionPlace?_some rooted found, extension.tagsOwner?_some rooted owned⟩
    · refine ⟨owner, extension.unionPlace?_some rooted found, tagsOwner?_eq_some_iff.mpr ?_⟩
      exact ⟨_, lookup?_last rooted.nonempty types, rfl, by simp, by simp [owners]⟩
  · intro tags owner found
    rcases adds.tagsOwner?_cases rooted found with old | ⟨-, -, place, there, -, made⟩
    · obtain ⟨place, there, made⟩ := linked.owner old
      exact ⟨place, extension.unionPlace?_some rooted there, adds.tagsAt? made⟩
    · exact ⟨place, extension.unionPlace?_some rooted there, made⟩

theorem tagsClass_eq_none_iff : (t.tagsClass id).1 = none ↔ t.unionPlace? id = none := by
  cases found : t.unionPlace? id with
  | none => simp [tagsClass, found]
  | some place =>
    obtain ⟨tags, given, -⟩ := tagsClass_of_place found
    simp [given]

theorem tagsClass_eq_some (given : (t.tagsClass id).1 = some tags) :
    ∃ place, t.unionPlace? id = some place ∧ (t.tagsClass id).2.tagsAt? place = some tags := by
  cases found : t.unionPlace? id with
  | none =>
    rw [tagsClass_eq_none_iff.mpr found] at given
    cases given
  | some place =>
    obtain ⟨tags', given', made⟩ := tagsClass_of_place found
    obtain rfl := Option.some.inj (given.symm.trans given')
    exact ⟨place, rfl, made⟩

/-- Different unions have different tags classes, also when one of them is made only now. -/
theorem Linked.eq_of_tagsClass (linked : Linked t) (found : t.unionPlace? id = some place)
    (made : t.tagsAt? place = some tags) (given : (t.tagsClass id').1 = some tags) : id' = id := by
  obtain ⟨place', found', made'⟩ := tagsClass_eq_some given
  have adds := adds_tagsClass t id'
  obtain ⟨owner, there, owned⟩ := (linked.adds adds).owned (adds.tagsAt? made)
  obtain ⟨owner', there', owned'⟩ := (linked.adds adds).owned made'
  obtain rfl := Option.some.inj (owned.symm.trans owned')
  obtain rfl := Option.some.inj (there.symm.trans there')
  exact linked.numbered found' found

end TypeTable

namespace Model

open TypeTable (Adds Extends Linked)

variable {m : Model} {edits : List ModelEdit}

theorem adds_edit (m : Model) {e : ModelEdit} (plain : e.Plain) :
    Adds m.types e (m.edit e).types := by
  cases e with
  | name s => exact .nothing rfl rfl rfl
  | intern d => exact TypeTable.adds_intern m.types plain
  | register name decl => exact TypeTable.adds_registerUnion m.types name decl
  | draft union name decl => exact .nothing rfl rfl rfl
  | add union name decl => exact TypeTable.adds_addCase m.types union name decl
  | remove uc? =>
    cases uc? with
    | none => exact .nothing rfl rfl rfl
    | some uc => exact TypeTable.adds_editCase m.types uc _
  | move uc? target =>
    cases uc? with
    | none => exact .nothing rfl rfl rfl
    | some uc => exact TypeTable.adds_editCase m.types uc _
  | replace union names => exact TypeTable.adds_replaceCases m.types union names
  | tagsClass union => exact TypeTable.adds_tagsClass m.types union

/-- What every plain operation keeps, every plain history keeps. -/
theorem editAll_adds (P : TypeTable → Prop)
    (kept : ∀ {t e t'}, P t → Adds t e t' → P t') (holds : P m.types)
    (plain : ∀ e ∈ edits, e.Plain) : P (m.editAll edits).types := by
  induction edits generalizing m with
  | nil => exact holds
  | cons e edits ih =>
    rw [List.forall_mem_cons] at plain
    exact ih (kept holds (m.adds_edit plain.1)) plain.2

theorem linked_editAll (linked : m.types.Linked) (plain : ∀ e ∈ edits, e.Plain) :
    (m.editAll edits).types.Linked :=
  editAll_adds Linked Linked.adds linked plain

theorem extends_editAll (plain : ∀ e ∈ edits, e.Plain) :
    Extends m.types (m.editAll edits).types :=
  editAll_adds (Extends m.types) (fun sofar adds => sofar.trans adds.extends) (.refl _) plain

theorem tagsAt?_editAll {place : Nat} {tags : TypeId} (made : m.types.tagsAt? place = some tags)
    (plain : ∀ e ∈ edits, e.Plain) : (m.editAll edits).types.tagsAt? place = some tags :=
  editAll_adds (·.tagsAt? place = some tags) (fun made adds => adds.tagsAt? made) made plain

end Model
end UnionAtlas
