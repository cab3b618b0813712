import UnionAtlas.Proofs.Model.Links
import UnionAtlas.Proofs.Text.Clusters
import UnionAtlas.Proofs.Text.Numerals

/-!
# Labels of types

The label of a tags class is that of its owner with a word behind it, so a label is found by asking
from owner to owner. The owners stand in a list of their own, and descriptors that are made by hand
may point into it anywhere: to a place that is taken, to one that is taken later, or to none. The
rules of `Labelled` set no bound on how many owners are asked. Still no more than one is: only
unions are put into the list (`ownedByUnions_edit`), and a union is labelled without asking.
-/

namespace UnionAtlas
namespace TypeTable

variable {t t' : TypeTable} {e : ModelEdit} {id owner : TypeId} {place : Nat} {d : TypeDesc}

/-! ## The owners of tags classes -/

/-- Every tags class belongs to a union. -/
def OwnedByUnions (t : TypeTable) : Prop :=
  ∀ owner ∈ t.tagsOwners, ∃ place, t.unionPlace? owner = some place

theorem ownedByUnions_new (ident : Nat) : OwnedByUnions (new ident) := by
  intro owner member
  cases member

/-- Only a union is put among the owners. -/
theorem Adds.owner_cases (adds : Adds t e t') (member : owner ∈ t'.tagsOwners) :
    owner ∈ t.tagsOwners ∨ ∃ place, t.unionPlace? owner = some place := by
  cases adds with
  | nothing types heads owners => exact .inl (owners ▸ member)
  | plain d kind types heads owners => exact .inl (owners ▸ member)
  | union name decl types heads owners => exact .inl (owners ▸ member)
  | tags added place found absent types heads owners =>
    rw [owners, List.mem_append, List.mem_singleton] at member
    rcases member with old | rfl
    · exact .inl old
    · exact .inr ⟨place, found⟩

theorem OwnedByUnions.isUnion (owned : OwnedByUnions t) (found : t.tagsOwner? id = some owner) :
    ∃ place, t.unionPlace? owner = some place := by
  obtain ⟨d, -, -, -, listed⟩ := tagsOwner?_eq_some_iff.mp found
  exact owned owner (List.mem_of_getElem? listed)

theorem tagsOwner?_of_kind (known : t.lookup? id = some d) (kind : d.kind ≠ .tagsClass) :
    t.tagsOwner? id = none := by
  rw [tagsOwner?, known]
  exact if_neg fun valid => kind valid.1

/-- A union belongs to nobody. -/
theorem tagsOwner?_of_unionPlace? (found : t.unionPlace? id = some place) :
    t.tagsOwner? id = none := by
  obtain ⟨d, known, kind, -⟩ := unionPlace?_eq_some_iff.mp found
  exact tagsOwner?_of_kind known (by simp [kind])

end TypeTable

namespace Model

variable {m : Model} {owner : TypeId}

theorem owner_edit (e : ModelEdit) (member : owner ∈ (m.edit e).types.tagsOwners) :
    owner ∈ m.types.tagsOwners ∨ ∃ place, m.types.unionPlace? owner = some place := by
  cases e with
  | intern d => exact .inl ((TypeTable.intern_leaves m.types d).2 ▸ member)
  | _ => exact (m.adds_edit (by trivial)).owner_cases member

/-- The owners stay unions, whatever descriptors are made by hand. -/
theorem ownedByUnions_edit (owned : m.types.OwnedByUnions) (e : ModelEdit) :
    (m.edit e).types.OwnedByUnions := by
  intro owner member
  have union : ∃ place, m.types.unionPlace? owner = some place :=
    (owner_edit e member).elim (owned owner) id
  obtain ⟨place, found⟩ := union
  exact ⟨place, (m.evolves_edit e).unionPlace? found⟩

theorem ownedByUnions_editAll (owned : m.types.OwnedByUnions) (edits : List ModelEdit) :
    (m.editAll edits).types.OwnedByUnions := by
  induction edits generalizing m with
  | nil => exact owned
  | cons e edits ih => exact ih (ownedByUnions_edit owned e)

theorem Reachable.ownedByUnions (reachable : m.Reachable) : m.types.OwnedByUnions := by
  obtain ⟨ident, edits, rfl⟩ := reachable
  exact ownedByUnions_editAll (TypeTable.ownedByUnions_new ident) edits

theorem Reachable.types_ne_nil (reachable : m.Reachable) : m.types.types ≠ [] := by
  obtain ⟨ident, edits, rfl⟩ := reachable
  have start : (new ident).types.types ≠ [] := List.cons_ne_nil _ _
  refine editAll_types (·.types ≠ []) (fun nonempty evolves empty => ?_) start edits
  exact nonempty (List.prefix_nil.mp (empty ▸ evolves.types))

end Model

/-! ## Words for kinds -/

/-- A text of ASCII that is not empty. -/
def Bytes.IsWord (bs : Bytes) : Prop :=
  bs ≠ [] ∧ ∀ b ∈ bs, b.toNat < 0x80

namespace Bytes

variable {bs more : Bytes}

-- The bytes are tested one by one, not the bound for each byte that there is.
instance (bs : Bytes) : Decidable bs.IsWord :=
  decidable_of_iff (bs ≠ [] ∧ bs.all (fun b => b.toNat < 0x80) = true) (by simp [IsWord])

theorem IsWord.append (word : bs.IsWord) (ascii : ∀ b ∈ more, b.toNat < 0x80) :
    (bs ++ more).IsWord :=
  ⟨List.append_ne_nil_of_left_ne_nil word.1 more, List.forall_mem_append.mpr ⟨word.2, ascii⟩⟩

theorem IsWord.isValid (word : bs.IsWord) : Utf8.isValid bs = true :=
  Utf8.isValid_of_ascii word.2

theorem ascii_decimal (n : Nat) : ∀ b ∈ decimal n, b.toNat < 0x80 := by
  intro b member
  have digit := mem_decimal member
  omega

end Bytes

theorem TypeKind.isWord_render (kind : TypeKind) : kind.render.IsWord := by
  cases kind with
  | other code =>
    have start : (text "Kind(").IsWord := by decide
    have close : (text ")").IsWord := by decide
    exact (start.append (Bytes.ascii_decimal code.toNat)).append close.2
  | _ => decide

theorem Model.isWord_numberLabel {word : String} (isWord : (text word).IsWord) (width : UInt8) :
    (numberLabel word width).IsWord := by
  refine isWord.append ?_
  split
  · exact List.forall_mem_nil _
  · exact Bytes.ascii_decimal _

/-- The word for a type that is neither a union nor a tags class; a number has its width behind. -/
def TypeDesc.word (d : TypeDesc) : Bytes :=
  match d.kind with
  | .unit => text "()"
  | .int => Model.numberLabel "int" d.width
  | .uint => Model.numberLabel "uint" d.width
  | .float => Model.numberLabel "float" d.width
  | kind => kind.render

theorem TypeDesc.isWord_word (d : TypeDesc) : d.word.IsWord := by
  unfold word
  split
  · decide
  · exact Model.isWord_numberLabel (by decide) _
  · exact Model.isWord_numberLabel (by decide) _
  · exact Model.isWord_numberLabel (by decide) _
  · exact TypeKind.isWord_render _

/-! ## What a label is -/

namespace Model

variable {m : Model} {id : TypeId} {depth depth' fuel : Nat} {label label' : Bytes}

/-- The rules for labels. A label is told together with the number of owners that are asked. -/
inductive Labelled (m : Model) : TypeId → Nat → Bytes → Prop where
  | unknown {id : TypeId} (absent : m.types.lookup? id = none) : Labelled m id 0 (text "?")
  | word {id : TypeId} {d : TypeDesc} (known : m.types.lookup? id = some d)
      (union : d.kind ≠ .union) (tags : d.kind ≠ .tagsClass) : Labelled m id 0 d.word
  | union {id : TypeId} {d : TypeDesc} (known : m.types.lookup? id = some d)
      (kind : d.kind = .union) (named : m.unionName id ≠ []) : Labelled m id 0 (m.unionName id)
  | nameless {id : TypeId} {d : TypeDesc} (known : m.types.lookup? id = some d)
      (kind : d.kind = .union) (unnamed : m.unionName id = []) : Labelled m id 0 (text "?")
  | ownerless {id : TypeId} {d : TypeDesc} (known : m.types.lookup? id = some d)
      (kind : d.kind = .tagsClass) (alone : m.types.tagsOwner? id = none) :
      Labelled m id 0 (text "?")
  | tags {id owner : TypeId} {depth : Nat} {label : Bytes}
      (owned : m.types.tagsOwner? id = some owner) (labelled : Labelled m owner depth label) :
      Labelled m id (depth + 1) (label ++ text ".Tags")

theorem unionName_mem_names (named : m.unionName id ≠ []) : m.unionName id ∈ m.names.names := by
  unfold unionName at named ⊢
  cases info : m.types.info? id with
  | none => simp [info] at named
  | some union =>
    rw [info] at named
    simp only [nameOf, NameTable.lookup?] at named ⊢
    cases known : m.names.names[union.name]? with
    | none => simp [known] at named
    | some s => exact List.mem_of_getElem? known

theorem labelWithin_union {d : TypeDesc} (known : m.types.lookup? id = some d)
    (kind : d.kind = .union) (fuel : Nat) :
    m.labelWithin (fuel + 1) id = if m.unionName id = [] then text "?" else m.unionName id := by
  cases info : m.types.info? id <;> simp [labelWithin, unionName, known, kind, info]

namespace Labelled

/-- A label is found if one more call may be nested than owners are asked. -/
theorem labelWithin (labelled : m.Labelled id depth label) (enough : depth ≤ fuel) :
    m.labelWithin (fuel + 1) id = label := by
  induction labelled generalizing fuel with
  | unknown absent => simp only [Model.labelWithin, absent]
  | word known union tags =>
    simp only [Model.labelWithin, known, TypeDesc.word]
    split <;> simp_all [TypeKind.render]
  | union known kind named => rw [labelWithin_union known kind, if_neg named]
  | nameless known kind unnamed => rw [labelWithin_union known kind, if_pos unnamed]
  | ownerless known kind alone => simp only [Model.labelWithin, known, kind, alone]
  | tags owned labelled ih =>
    obtain ⟨fuel, rfl⟩ := Nat.exists_eq_add_of_le' enough
    obtain ⟨d, known, kind, -⟩ := TypeTable.tagsOwner?_eq_some_iff.mp owned
    simp only [Model.labelWithin, known, kind, owned]
    exact congrArg (· ++ text ".Tags") (ih (Nat.le_add_left _ fuel))

/-- Where nobody is asked there is no owner. -/
theorem alone (labelled : m.Labelled id 0 label) : m.types.tagsOwner? id = none := by
  cases labelled with
  | unknown absent => rw [TypeTable.tagsOwner?, absent]
  | word known union tags => exact TypeTable.tagsOwner?_of_kind known tags
  | union known kind => exact TypeTable.tagsOwner?_of_kind known (by simp [kind])
  | nameless known kind => exact TypeTable.tagsOwner?_of_kind known (by simp [kind])
  | ownerless known kind alone => exact alone

theorem owned (labelled : m.Labelled id (depth + 1) label) :
    ∃ owner label', m.types.tagsOwner? id = some owner ∧ m.Labelled owner depth label' := by
  cases labelled with
  | tags owned labelled => exact ⟨_, _, owned, labelled⟩

theorem depth_unique (first : m.Labelled id depth label) (second : m.Labelled id depth' label') :
    depth' = depth := by
  -- Both go from owner to owner, so where one ends the other has nobody to ask either.
  induction depth generalizing id label depth' label' with
  | zero =>
    cases depth' with
    | zero => rfl
    | succ depth' =>
      obtain ⟨owner, -, found, -⟩ := second.owned
      rw [first.alone] at found
      cases found
  | succ depth ih =>
    obtain ⟨owner, _, found, labelled⟩ := first.owned
    cases depth' with
    | zero =>
      rw [second.alone] at found
      cases found
    | succ depth' =>
      obtain ⟨owner', _, found', labelled'⟩ := second.owned
      obtain rfl := Option.some.inj (found.symm.trans found')
      rw [ih labelled labelled']

/-- There are no two labels for one type, nor two ways to find it. -/
theorem unique (first : m.Labelled id depth label) (second : m.Labelled id depth' label') :
    depth' = depth ∧ label' = label := by
  obtain rfl := first.depth_unique second
  have found : m.labelWithin (depth' + 1) id = label := first.labelWithin (Nat.le_refl _)
  have found' : m.labelWithin (depth' + 1) id = label' := second.labelWithin (Nat.le_refl _)
  exact ⟨rfl, found'.symm.trans found⟩

theorem ne_nil (labelled : m.Labelled id depth label) : label ≠ [] := by
  cases labelled with
  | word known => exact (TypeDesc.isWord_word _).1
  | union known kind named => exact named
  | tags owned labelled => exact List.append_ne_nil_of_right_ne_nil _ (by decide)
  | _ => exact (by decide)

/-- A label is a valid text if the names are. -/
theorem isValid (labelled : m.Labelled id depth label)
    (valid : ∀ s ∈ m.names.names, Utf8.isValid s = true) : Utf8.isValid label = true := by
  induction labelled with
  | word known => exact (TypeDesc.isWord_word _).isValid
  | union known kind named => exact valid _ (unionName_mem_names named)
  | tags owned labelled ih =>
    have opens : (text ".Tags").Opens := by
      rintro b ⟨⟩
      decide
    rw [Utf8.isValid_append opens, ih, Bool.true_and]
    exact Bytes.IsWord.isValid (by decide)
  | _ => exact Bytes.IsWord.isValid (by decide)

end Labelled

/-- What has no owner is labelled without asking. -/
theorem labelled_of_tagsOwner?_eq_none (alone : m.types.tagsOwner? id = none) :
    ∃ label, m.Labelled id 0 label := by
  cases known : m.types.lookup? id with
  | none => exact ⟨_, .unknown known⟩
  | some d =>
    by_cases union : d.kind = .union
    · by_cases named : m.unionName id = []
      · exact ⟨_, .nameless known union named⟩
      · exact ⟨_, .union known union named⟩
    · by_cases tags : d.kind = .tagsClass
      · exact ⟨_, .ownerless known tags alone⟩
      · exact ⟨_, .word known union tags⟩

/-- While all owners are unions, no owner is asked for its own. -/
theorem labelled_of_ownedByUnions (owned : m.types.OwnedByUnions) (id : TypeId) :
    ∃ depth ≤ 1, ∃ label, m.Labelled id depth label := by
  cases found : m.types.tagsOwner? id with
  | none => exact ⟨0, Nat.zero_le 1, labelled_of_tagsOwner?_eq_none found⟩
  | some owner =>
    obtain ⟨place, union⟩ := owned.isUnion found
    have alone := TypeTable.tagsOwner?_of_unionPlace? union
    obtain ⟨label, labelled⟩ := labelled_of_tagsOwner?_eq_none alone
    exact ⟨1, Nat.le_refl 1, _, .tags found labelled⟩

theorem Reachable.labelled (reachable : m.Reachable) (id : TypeId) :
    ∃ depth ≤ 1, m.Labelled id depth (m.label id) := by
  obtain ⟨depth, shallow, label, labelled⟩ := labelled_of_ownedByUnions reachable.ownedByUnions id
  have types : 1 ≤ m.types.types.length := List.length_pos_of_ne_nil reachable.types_ne_nil
  have same : m.label id = label := labelled.labelWithin (Nat.le_trans shallow types)
  exact ⟨depth, shallow, same ▸ labelled⟩

/-- In every state that operations can reach, whatever descriptors are made by hand: every owner of
a tags class is a union; each type has one label by the rules, which is the one that is found, and
at most one owner is asked for it; the label of what has an owner is that of the owner with a word
behind it; and no label is empty, and all of it is valid if the names are. -/
theorem labels_of_reachable (reachable : m.Reachable) :
    (∀ owner ∈ m.types.tagsOwners, ∃ d, m.types.lookup? owner = some d ∧ d.kind = .union) ∧
    (∀ id, ∃ depth ≤ 1,
      (∀ depth' label, m.Labelled id depth' label ↔ depth' = depth ∧ label = m.label id) ∧
      ∀ fuel ≥ depth, m.labelWithin (fuel + 1) id = m.label id) ∧
    (∀ id owner, m.types.tagsOwner? id = some owner →
      m.label id = m.label owner ++ text ".Tags") ∧
    ∀ id, m.label id ≠ [] ∧
      ((∀ s ∈ m.names.names, Utf8.isValid s = true) → Utf8.isValid (m.label id) = true) := by
  refine ⟨?_, ?_, ?_, ?_⟩
  · intro owner listed
    obtain ⟨place, union⟩ := reachable.ownedByUnions owner listed
    obtain ⟨d, known, kind, -⟩ := TypeTable.unionPlace?_eq_some_iff.mp union
    exact ⟨d, known, kind⟩
  · intro id
    obtain ⟨depth, shallow, labelled⟩ := reachable.labelled id
    refine ⟨depth, shallow, fun depth' label => ⟨labelled.unique, ?_⟩, ?_⟩
    · rintro ⟨rfl, rfl⟩
      exact labelled
    · intro fuel enough
      exact labelled.labelWithin enough
  · intro id owner owned
    obtain ⟨depth, -, labelled⟩ := reachable.labelled id
    obtain ⟨depth', -, labelled'⟩ := reachable.labelled owner
    exact ((Labelled.tags owned labelled').unique labelled).2
  · intro id
    obtain ⟨depth, -, labelled⟩ := reachable.labelled id
    exact ⟨labelled.ne_nil, labelled.isValid⟩

/-- A tags class is made by hand before its place is taken, one for no place, and a union before it
is registered, which then asks for its tags class under the number that was given by hand. -/
theorem labels_of_reachable_forged :
    let m := (new 0).editAll [.name (text "U"), .intern { kind := .tagsClass, payload := 2 },
      .intern { kind := .tagsClass, payload := 0 },
      .intern { kind := .union, width := 5, payload := 1 }, .register 1 .none, .tagsClass 10,
      .register 1 .none, .tagsClass 13]
    m.label 8 = m.label 13 ++ text ".Tags" ∧ m.label 12 = m.label 10 ++ text ".Tags" ∧
      m.labelWithin (1 + 1) 8 = m.label 8 ∧ m.label 9 ≠ [] ∧ Utf8.isValid (m.label 12) = true := by
  intro m
  have reachable : m.Reachable := ⟨0, _, rfl⟩
  obtain ⟨-, shallow, owned, formed⟩ := labels_of_reachable reachable
  have valid : ∀ s ∈ m.names.names, Utf8.isValid s = true := by
    have names : m.names.names = [[], text "U"] := by decide
    rw [names]
    simp only [List.forall_mem_cons]
    exact ⟨Utf8.isValid_of_ascii (by simp), Bytes.IsWord.isValid (by decide), by simp⟩
  obtain ⟨depth, one, -, enough⟩ := shallow 8
  exact ⟨owned 8 13 (by decide), owned 12 10 (by decide), enough 1 one, (formed 9).1,
    (formed 12).2 valid⟩

end Model
end UnionAtlas
