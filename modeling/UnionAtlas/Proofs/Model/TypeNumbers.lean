import UnionAtlas.Proofs.Model.Links

/-!
# The numbers of types

Types enter a table in two ways. A descriptor that somebody interns enters if the table has none
like it; the descriptor of a new union or of a new tags class enters unseen, under the next number.
So a descriptor has two numbers when it was interned before the union or the tags class that it
describes was made, and from then on it is the later number that is answered. The number of every
other descriptor stays.
-/

namespace UnionAtlas

/-- The descriptor is that of a union or a tags class that a table has made. -/
def TypeDesc.TakenIn (d : TypeDesc) (t : TypeTable) : Prop :=
  (∃ place < t.unions.length, d = { kind := .union, payload := place + 1 }) ∨
    ∃ place < t.tagsOwners.length, d = { kind := .tagsClass, payload := place + 1 }

instance (d : TypeDesc) (t : TypeTable) : Decidable (d.TakenIn t) :=
  inferInstanceAs (Decidable ((∃ place < _, _) ∨ ∃ place < _, _))

namespace TypeTable

variable {t t' : TypeTable} {d d' : TypeDesc} {id : TypeId}

/-! ## The number that is answered -/

theorem findLast?_append (types : t'.types = t.types ++ [d']) (d : TypeDesc) :
    t'.findLast? d = if d' = d then some t.types.length else t.findLast? d := by
  rw [findLast?, types, List.reverse_append, List.reverse_singleton, List.singleton_append,
    List.findIdx?_cons, List.length_append, List.length_singleton, Nat.add_sub_cancel]
  by_cases same : d' = d
  · simp [same]
  · have other : (d' == d) = false := by simpa using same
    simp only [other, Bool.false_eq_true, if_false, same, Option.map_map, findLast?]
    refine congrArg (Option.map · _) (funext fun i => ?_)
    rw [Function.comp_apply, Nat.sub_sub, Nat.add_comm]

theorem lt_length_of_findLast? (found : t.findLast? d = some id) : id < t.types.length := by
  obtain ⟨i, position, rfl⟩ := Option.map_eq_some_iff.mp found
  have inside := (List.findIdx?_eq_some_iff_getElem.mp position).1
  rw [List.length_reverse] at inside
  exact Nat.lt_of_le_of_lt (Nat.sub_le _ _) (Nat.sub_one_lt_of_lt inside)

theorem getElem?_of_findLast? (found : t.findLast? d = some id) : t.types[id]? = some d := by
  have bound := lt_length_of_findLast? found
  obtain ⟨i, position, rfl⟩ := Option.map_eq_some_iff.mp found
  obtain ⟨_, here, -⟩ := List.findIdx?_eq_some_iff_getElem.mp position
  rw [List.getElem?_eq_getElem bound]
  simpa [List.getElem_reverse] using here

theorem intern_of_findLast? (valid : d.kind ≠ .invalid) (found : t.findLast? d = some id) :
    t.intern d = (id, t) := by
  rw [intern, if_neg valid, found]

/-- The number that a descriptor is given is the one that is answered from then on. -/
theorem findLast?_intern (t : TypeTable) (valid : d.kind ≠ .invalid) :
    (t.intern d).2.findLast? d = some (t.intern d).1 := by
  cases found : t.findLast? d with
  | some id =>
    rw [intern_of_findLast? valid found]
    exact found
  | none =>
    have added : t.intern d = t.append d := by rw [intern, if_neg valid, found]
    have types : (t.append d).2.types = t.types ++ [d] := rfl
    rw [added, findLast?_append types, if_pos rfl]
    rfl

/-! ## How types enter -/

/-- What an operation adds to a table, whether or not descriptors are made by hand: nothing,
a descriptor that is new, a union, or the first tags class of a union. -/
inductive Enters (t t' : TypeTable) : Prop where
  | nothing (types : t'.types = t.types) (heads : t'.heads = t.heads)
      (owners : t'.tagsOwners = t.tagsOwners)
  | interned (d : TypeDesc) (new : t.findLast? d = none) (types : t'.types = t.types ++ [d])
      (heads : t'.heads = t.heads) (owners : t'.tagsOwners = t.tagsOwners)
  | union (name : NameId)
      (types : t'.types = t.types ++ [{ kind := .union, payload := t.unions.length + 1 }])
      (heads : t'.heads = t.heads ++ [(name, none)]) (owners : t'.tagsOwners = t.tagsOwners)
  | tags (owner : TypeId) (place : Nat) (absent : t.tagsAt? place = none)
      (types : t'.types = t.types ++ [{ kind := .tagsClass, payload := t.tagsOwners.length + 1 }])
      (heads : t'.heads = t.heads.modify place fun head => (head.1, some t.types.length))
      (owners : t'.tagsOwners = t.tagsOwners ++ [owner])

theorem enters_intern (t : TypeTable) (d : TypeDesc) : Enters t (t.intern d).2 := by
  unfold intern
  split
  · exact .nothing rfl rfl rfl
  · split
    · exact .nothing rfl rfl rfl
    · next new => exact .interned d new rfl rfl rfl

/-- Interning makes no union and no tags class. -/
theorem takenIn_intern (t : TypeTable) (d : TypeDesc) :
    d'.TakenIn (t.intern d).2 ↔ d'.TakenIn t := by
  obtain ⟨unions, owners⟩ := intern_leaves t d
  rw [TypeDesc.TakenIn, TypeDesc.TakenIn, unions, owners]

theorem Enters.takenIn (enters : Enters t t') (taken : d.TakenIn t) : d.TakenIn t' := by
  have unions := length_heads t
  have unions' := length_heads t'
  have longer : t.unions.length ≤ t'.unions.length ∧
      t.tagsOwners.length ≤ t'.tagsOwners.length := by
    rw [← unions, ← unions']
    cases enters with
    | nothing types heads owners => simp [heads, owners]
    | interned d new types heads owners => simp [heads, owners]
    | union name types heads owners => simp [heads, owners]
    | tags owner place absent types heads owners => simp [heads, owners]
  rcases taken with ⟨place, bound, rfl⟩ | ⟨place, bound, rfl⟩
  · exact .inl ⟨place, Nat.lt_of_lt_of_le bound longer.1, rfl⟩
  · exact .inr ⟨place, Nat.lt_of_lt_of_le bound longer.2, rfl⟩

/-- Nothing was made while there are as many unions and tags classes as before. -/
theorem not_made (heads : t'.heads = t.heads) (owners : t'.tagsOwners = t.tagsOwners) :
    ¬ (d.TakenIn t' ∧ ¬ d.TakenIn t) := by
  rw [TypeDesc.TakenIn, TypeDesc.TakenIn, ← length_heads t, ← heads, length_heads, owners]
  exact and_not_self

/-- The descriptor of what was made just now has the next number, and the others keep theirs. -/
theorem findLast?_of_made (types : t'.types = t.types ++ [d'])
    (taken : ∀ d, d.TakenIn t' ↔ d.TakenIn t ∨ d = d') (fresh : ¬ d'.TakenIn t)
    (found : t.findLast? d = some id) :
    t'.findLast? d = some (if d.TakenIn t' ∧ ¬ d.TakenIn t then t.types.length else id) := by
  rw [findLast?_append types, found]
  by_cases made : d = d'
  · subst made
    simp [taken, fresh]
  · simp [taken, made, Ne.symm made]

/-- A descriptor that is known gets a new number only when what it describes is made. -/
theorem Enters.findLast? (enters : Enters t t') (found : t.findLast? d = some id) :
    t'.findLast? d = some (if d.TakenIn t' ∧ ¬ d.TakenIn t then t.types.length else id) := by
  have unions := length_heads t
  have unions' := length_heads t'
  cases enters with
  | nothing types heads owners =>
    rw [if_neg (not_made heads owners), TypeTable.findLast?, types, ← TypeTable.findLast?, found]
  | interned other new types heads owners =>
    have apart : other ≠ d := by
      rintro rfl
      rw [found] at new
      cases new
    rw [if_neg (not_made heads owners), findLast?_append types, if_neg apart, found]
  | union name types heads owners =>
    have more : t'.unions.length = t.unions.length + 1 := by
      rw [← unions', heads, List.length_append, unions, List.length_singleton]
    refine findLast?_of_made types (fun d => ?_) (by simp [TypeDesc.TakenIn]) found
    simp only [TypeDesc.TakenIn, more, owners, Nat.exists_lt_succ_right]
    exact or_right_comm
  | tags owner place absent types heads owners =>
    have more : t'.tagsOwners.length = t.tagsOwners.length + 1 := by
      rw [owners, List.length_append, List.length_singleton]
    have kept : t'.unions.length = t.unions.length := by
      rw [← unions', heads, List.length_modify, unions]
    refine findLast?_of_made types (fun d => ?_) (by simp [TypeDesc.TakenIn]) found
    simp only [TypeDesc.TakenIn, more, kept, Nat.exists_lt_succ_right]
    exact or_assoc.symm

end TypeTable

namespace Model

variable {d : TypeDesc} {id : TypeId}

theorem enters_edit (m : Model) (e : ModelEdit) : m.types.Enters (m.edit e).types := by
  by_cases interns : ∃ d, e = .intern d
  · obtain ⟨d, rfl⟩ := interns
    exact TypeTable.enters_intern m.types d
  · have plain : e.Plain := by
      cases e with
      | intern d => exact absurd ⟨d, rfl⟩ interns
      | _ => trivial
    cases m.adds_edit plain with
    | nothing types heads owners => exact .nothing types heads owners
    | plain d kind types heads owners => exact absurd ⟨d, rfl⟩ interns
    | union name decl types heads owners => exact .union name types heads owners
    | tags owner place found absent types heads owners =>
      exact .tags owner place absent types heads owners

theorem takenIn_editAll {m : Model} (taken : d.TakenIn m.types) (edits : List ModelEdit) :
    d.TakenIn (m.editAll edits).types := by
  induction edits generalizing m with
  | nil => exact taken
  | cons e edits ih => exact ih ((m.enters_edit e).takenIn taken)

/-- A descriptor that is known stays known. Its number changes if what it describes is made. -/
theorem findLast?_editAll {m : Model} (found : m.types.findLast? d = some id)
    (edits : List ModelEdit) :
    ∃ last, (m.editAll edits).types.findLast? d = some last ∧
      (last = id ↔ (d.TakenIn (m.editAll edits).types → d.TakenIn m.types)) := by
  induction edits generalizing m id with
  | nil => exact ⟨id, found, iff_of_true rfl fun taken => taken⟩
  | cons e edits ih =>
    have kept := (m.enters_edit e).takenIn (d := d)
    have next := (m.enters_edit e).findLast? found
    by_cases made : d.TakenIn (m.edit e).types ∧ ¬ d.TakenIn m.types
    · -- The new number stays, and it is not the old one.
      rw [if_pos made] at next
      obtain ⟨last, answered, same⟩ := ih next
      obtain rfl : last = m.types.types.length := same.mpr fun _ => made.1
      have fresh := TypeTable.lt_length_of_findLast? found
      have taken := takenIn_editAll made.1 edits
      exact ⟨_, answered, iff_of_false (Nat.ne_of_gt fresh) fun old => made.2 (old taken)⟩
    · rw [if_neg made] at next
      obtain ⟨last, answered, same⟩ := ih next
      refine ⟨last, answered, same.trans (imp_congr_right fun _ => ⟨fun mid => ?_, kept⟩)⟩
      by_contra untaken
      exact made ⟨mid, untaken⟩

theorem Reachable.kind_zero {m : Model} (reachable : m.Reachable)
    (known : m.types.types[0]? = some d) : d.kind = .invalid := by
  obtain ⟨ident, edits, rfl⟩ := reachable
  have first : ((new ident).editAll edits).types.types[0]? = some { kind := .invalid } := by
    have start : (new ident).types.types[0]? = some { kind := .invalid } := rfl
    refine editAll_types (fun t => t.types[0]? = some { kind := .invalid }) ?_ start edits
    intro t t' first evolves
    exact getElem?_of_extends evolves.types first
  obtain rfl := Option.some.inj (known.symm.trans first)
  rfl

/-- The number that interning a descriptor gave leads to the descriptor ever after. Interning it
again gives the same number, unless the union or the tags class that it describes was made
meanwhile. -/
theorem type_number_after_edits {m : Model} (reachable : m.Reachable) (valid : d.kind ≠ .invalid)
    (later : List ModelEdit) :
    ((m.edit (.intern d)).editAll later).types.lookup? (m.types.intern d).1 = some d ∧
      ((((m.edit (.intern d)).editAll later).types.intern d).1 = (m.types.intern d).1 ↔
        (d.TakenIn ((m.edit (.intern d)).editAll later).types → d.TakenIn m.types)) := by
  have found : (m.edit (.intern d)).types.findLast? d = some (m.types.intern d).1 :=
    TypeTable.findLast?_intern m.types valid
  have listed := TypeTable.getElem?_of_findLast? found
  have nonzero : (m.types.intern d).1 ≠ 0 := by
    intro zero
    rw [zero] at listed
    exact valid ((reachable.editAll [.intern d]).kind_zero listed)
  have known : (m.edit (.intern d)).types.lookup? (m.types.intern d).1 = some d := by
    rw [TypeTable.lookup?, if_neg nonzero, listed]
  have untaken : d.TakenIn (m.edit (.intern d)).types ↔ d.TakenIn m.types :=
    TypeTable.takenIn_intern m.types d
  obtain ⟨last, answered, same⟩ := findLast?_editAll found later
  refine ⟨editAll_types (·.lookup? _ = some d) (fun known evolves => evolves.lookup? known)
    known later, ?_⟩
  rw [TypeTable.intern_of_findLast? valid answered, same, untaken]

/-- The descriptor of the first union is interned before and after the first tags class is made. -/
theorem type_number_after_edits_unmade :
    let d : TypeDesc := { kind := .union, payload := 1 }
    let m := (new 0).edit (.register 0 .none)
    let m' := (m.edit (.intern d)).editAll [.tagsClass 8, .register 0 .none]
    m'.types.lookup? 8 = some d ∧ (m'.types.intern d).1 = 8 := by
  intro d m m'
  have reachable : m.Reachable := ⟨0, [.register 0 .none], rfl⟩
  obtain ⟨known, same⟩ := type_number_after_edits (d := d) reachable (by decide)
    [.tagsClass 8, .register 0 .none]
  exact ⟨known, same.mpr fun _ => by decide⟩

/-- A descriptor that is interned before its union is registered gets the number of the union. -/
theorem not_type_number_stable :
    ¬ ∀ (m : Model) (d : TypeDesc) (later : List ModelEdit), m.Reachable → d.kind ≠ .invalid →
      ((m.edit (.intern d)).editAll later).types.lookup? (m.types.intern d).1 = some d ∧
        (((m.edit (.intern d)).editAll later).types.intern d).1 = (m.types.intern d).1 := by
  intro stable
  have same := (stable (new 0) { kind := .union, payload := 1 } [.register 0 .none]
    ⟨0, [], rfl⟩ (by decide)).2
  revert same
  decide

end Model
end UnionAtlas
