import Mathlib.Data.List.Find
import UnionAtlas.Proofs.Handle.Survival
import UnionAtlas.Proofs.Text.Pieces
import UnionAtlas.Proofs.Workspace.Unions

/-!
# What a reference denotes

A reference is cut at its dots, and the pieces are looked up one after the other. A case is looked
up by the number of its name, a tag by the name itself among the cases of the owner of a tags class,
and a handle goes past the reference altogether; while every case has a name that is known, they all
come to the same record. What a workspace declares is found by the reference that is written for it,
unless one of its names has a dot: a name is not checked for dots when it is declared.
-/

namespace UnionAtlas

/-- Names with dots between them. -/
def dotted (names : List Bytes) : Bytes :=
  Bytes.join [0x2E] names

/-! ## Names of listed cases -/

namespace TypeTable

variable {t : TypeTable} {id : TypeId} {place : Nat} {uc : UnionCase}

theorem mem_casesAt_editCase {other : UnionCase} {f : List UnionCase → List UnionCase}
    (kept : ∀ cs, other ∈ cs → ∀ uc ∈ f cs, uc ∈ cs)
    (listed : uc ∈ (t.editCase other f).2.casesAt place) : uc ∈ t.casesAt place := by
  unfold editCase at listed
  split at listed
  · next here i found position =>
    have bound := bound_of_unionPlace? found
    rw [casesAt_modifyCases t f bound] at listed
    split at listed
    · next same =>
      subst same
      have member := mem_of_indexOf? position
      rw [cases_of_place found] at member
      exact kept _ member uc listed
    · exact listed
  · exact listed

theorem name_of_mem_draftCases {union : TypeId} {names : List NameId}
    (member : uc ∈ (t.draftCases union names).1) : uc.name ∈ names := by
  induction names generalizing t with
  | nil => cases member
  | cons name names ih =>
    rcases List.mem_cons.mp member with rfl | later
    · exact List.mem_cons_self
    · exact List.mem_cons_of_mem _ (ih later)

end TypeTable

/-- The names that an operation gives to the cases it makes. -/
def ModelEdit.caseNames : ModelEdit → List NameId
  | .add _ case _ => [case]
  | .replace _ names => names
  | _ => []

namespace Model

variable {m : Model} {place : Nat} {uc : UnionCase}

/-- A listed case was listed before, or it was made now under a name that was given. -/
theorem name_of_mem_casesAt_edit {e : ModelEdit}
    (listed : uc ∈ (m.edit e).types.casesAt place) :
    uc ∈ m.types.casesAt place ∨ uc.name ∈ e.caseNames := by
  cases e with
  | name s => exact .inl listed
  | intern d =>
    left
    have same : (m.types.intern d).2.unions = m.types.unions := by
      unfold TypeTable.intern
      split
      · rfl
      · split <;> rfl
    simp only [edit, TypeTable.casesAt, same] at listed
    exact listed
  | register name decl => exact .inl (TypeTable.casesAt_registerUnion m.types name decl place ▸ listed)
  | draft union name decl => exact .inl listed
  | add union name decl =>
    cases found : m.types.unionPlace? union with
    | none =>
      simp only [edit, TypeTable.addCase, found] at listed
      exact .inl listed
    | some here =>
      simp only [edit, TypeTable.casesAt_addCase found] at listed
      rcases List.mem_append.mp listed with old | new
      · exact .inl old
      · right
        split at new
        · rw [List.mem_singleton.mp new]
          exact List.mem_singleton_self name
        · cases new
  | remove uc? =>
    left
    cases uc? with
    | none => exact listed
    | some other =>
      exact TypeTable.mem_casesAt_editCase (fun _ _ _ kept => List.mem_of_mem_erase kept) listed
  | move uc? target =>
    left
    cases uc? with
    | none => exact listed
    | some other =>
      refine TypeTable.mem_casesAt_editCase ?_ listed
      intro cs member uc kept
      exact (TypeTable.moveTo_perm member target).mem_iff.mp kept
  | replace union names =>
    simp only [edit, TypeTable.replaceCases] at listed
    split at listed
    · exact .inl listed
    · next here found =>
      have bound : here < (m.types.draftCases union names).2.unions.length := by
        rw [TypeTable.draftCases_snd]
        exact TypeTable.bound_of_unionPlace? found
      rw [TypeTable.casesAt_modifyCases _ _ bound] at listed
      split at listed
      · exact .inr (TypeTable.name_of_mem_draftCases listed)
      · rw [TypeTable.draftCases_snd] at listed
        exact .inl listed
  | tagsClass union => exact .inl (TypeTable.casesAt_tagsClass m.types union place ▸ listed)

/-- Every listed case has a name that is known. -/
def Spelled (m : Model) : Prop :=
  ∀ place, ∀ uc ∈ m.types.casesAt place, ∃ s, m.names.lookup? uc.name = some s

/-- The names that are given to new cases are known when they are given. -/
def Spells (m : Model) : List ModelEdit → Prop
  | [] => True
  | e :: edits => (∀ name ∈ e.caseNames, ∃ s, m.names.lookup? name = some s) ∧ (m.edit e).Spells edits

theorem Spelled.editAll {edits : List ModelEdit} (spelled : m.Spelled) (spells : m.Spells edits) :
    (m.editAll edits).Spelled := by
  induction edits generalizing m with
  | nil => exact spelled
  | cons e edits ih =>
    apply ih _ spells.2
    intro place uc listed
    have known : ∃ s, m.names.lookup? uc.name = some s := by
      rcases name_of_mem_casesAt_edit listed with old | new
      · exact spelled place uc old
      · exact spells.1 _ new
    obtain ⟨s, known⟩ := known
    exact ⟨s, lookup?_editAll known [e]⟩

/-! ## Looking up by pieces -/

section Pieces

variable {ref union case : Bytes}

theorem resolveCase?_eq (m : Model) (union case : Bytes) :
    m.resolveCase? union case = (m.unionNamed? union).bind fun id =>
      (m.names.find? case).bind fun name => (m.types.cases id).find? (·.name == name) := by
  simp only [resolveCase?, unionNamed?, Option.bind_eq_bind, Option.bind_assoc]

theorem resolveReference_case (pieces : Bytes.split 0x2E (identifier ref) = [union, case])
    (apart : case ≠ tagsName) :
    m.resolveReference ref = ((m.resolveCase? union case).map .unionCase, m) := by
  simp only [resolveReference, pieces, List.headD_cons, if_neg apart]
  cases found : m.unionNamed? union with
  | none => rw [resolveCase?_eq, found, Option.bind_none, Option.map_none]
  | some id => rfl

theorem resolveReference_tag (pieces : Bytes.split 0x2E (identifier ref) = [union, tagsName, case]) :
    (m.resolveReference ref).1 = ((m.unionNamed? union).bind fun id =>
      (m.tagsClass id).1.bind fun tags => (m.tagsClass id).2.tagMember? tags case).map .tag := by
  simp only [resolveReference, pieces, List.headD_cons, if_true]
  cases m.unionNamed? union with
  | none => rfl
  | some id => rw [Option.bind_some, Option.map_bind]; rfl

/-- A lookup leaves the model as it is, or it makes a tags class. -/
theorem resolveReference_snd (m : Model) (ref : Bytes) :
    (m.resolveReference ref).2 = m ∨ ∃ id, (m.resolveReference ref).2 = (m.tagsClass id).2 := by
  simp only [resolveReference]
  split
  · exact .inl rfl
  · next id _ =>
    split
    · exact .inl rfl
    · split
      · exact .inr ⟨id, rfl⟩
      · exact .inl rfl
    · split
      · exact .inr ⟨id, rfl⟩
      · exact .inl rfl
    · exact .inl rfl

end Pieces

/-! ## The two ways to the cases of a union -/

/-- Among cases with known names, the first of a name is the first of its number. -/
theorem Spelled.find? (spelled : m.Spelled) (distinct : m.names.names.Nodup) (id : TypeId)
    (case : Bytes) :
    (m.types.cases id).find? (fun uc => m.nameOf uc.name == case) =
      (m.names.find? case).bind fun name => (m.types.cases id).find? (·.name == name) := by
  have known {uc : UnionCase} (listed : uc ∈ m.types.cases id) :
      m.names.lookup? uc.name = some (m.nameOf uc.name) := by
    obtain ⟨place, -, member⟩ := TypeTable.place_of_mem_cases listed
    obtain ⟨s, known⟩ := spelled place uc member
    rw [known, nameOf_of_lookup? known]
  cases found : m.names.find? case with
  | none =>
    apply List.find?_eq_none.mpr
    intro uc listed same
    rw [NameTable.find?_of_lookup? distinct (beq_iff_eq.mp same ▸ known listed)] at found
    cases found
  | some name =>
    apply List.find?_congr
    intro uc listed
    apply Bool.eq_iff_iff.mpr
    rw [beq_iff_eq, beq_iff_eq]
    constructor
    · intro same
      exact NameTable.lookup?_inj distinct (same ▸ known listed) (NameTable.lookup?_of_find? found)
    · rintro rfl
      exact nameOf_of_lookup? (NameTable.lookup?_of_find? found)

/-- The members of a tags class are those of its owner, which is the union that was asked. -/
theorem tagMembers_tagsClass (linked : m.types.Linked) {id tags : TypeId}
    (given : (m.tagsClass id).1 = some tags) :
    (m.tagsClass id).2.tagMembers tags = m.types.cases id := by
  obtain ⟨place, found, made⟩ := TypeTable.tagsClass_eq_some given
  have adds := TypeTable.adds_tagsClass m.types id
  obtain ⟨owner, there, owned⟩ := (linked.adds adds).owned made
  have still := adds.extends.unionPlace?_some linked.toRooted found
  obtain rfl := (linked.adds adds).numbered there still
  have members : (m.tagsClass owner).2.tagMembers tags = (m.types.tagsClass owner).2.cases owner := by
    simp only [tagMembers, tagsClass, owned]
  rw [members, TypeTable.cases_tagsClass]

theorem tagMember?_tagsClass (linked : m.types.Linked) (spelled : m.Spelled)
    (distinct : m.names.names.Nodup) (id : TypeId) (case : Bytes) :
    ((m.tagsClass id).1.bind fun tags => (m.tagsClass id).2.tagMember? tags case) =
      (m.names.find? case).bind fun name => (m.types.cases id).find? (·.name == name) := by
  rw [← spelled.find? distinct]
  cases given : (m.tagsClass id).1 with
  | none =>
    rw [TypeTable.cases_of_no_place (TypeTable.tagsClass_eq_none_iff.mp given)]
    rfl
  | some tags =>
    rw [Option.bind_some, tagMember?, tagMembers_tagsClass linked given]
    rfl

end Model

/-! ## Described cases -/

/-- No case has the name that tags classes are found under. -/
def UnionEntry.Unreserved (u : UnionEntry) : Prop :=
  ∀ c ∈ u.cases, identifier c ≠ tagsName

namespace Workspace

variable {ws ws' : Workspace} {u : UnionEntry} {disk : Disk} {base content : Bytes}

theorem unreserved_of_addCases {union : Bytes} {id : TypeId} {seen written : List Bytes}
    {m m' : Model} (done : addCases union id seen m written = .ok m') :
    ∀ c ∈ written, identifier c ≠ tagsName := by
  induction written generalizing m seen with
  | nil => simp
  | cons w written ih =>
    unfold addCases at done
    simp only at done
    split at done
    · cases done
    · split at done
      · cases done
      · next unreserved =>
        split at done
        · cases done
        · exact List.forall_mem_cons.mpr ⟨unreserved, ih done⟩

theorem spelled_empty : empty.model.Spelled := by
  intro place uc listed
  simp [empty, Model.new, TypeTable.new, TypeTable.casesAt] at listed

theorem spelled_addUnion (rooted : ws.model.types.Rooted) (spelled : ws.model.Spelled)
    (added : ws.addUnion u = .ok ws') : ws'.model.Spelled := by
  obtain ⟨-, m', done, rfl⟩ := addUnion_ok added
  obtain ⟨cs, adds, named, -⟩ :=
    addCases_ok (TypeTable.unionPlace?_registerUnion rooted.nonempty _ .none) done
  intro place uc listed
  rw [adds.cases] at listed
  rcases List.mem_append.mp listed with old | new
  · have before : uc ∈ ws.model.types.casesAt place :=
      TypeTable.casesAt_registerUnion ws.model.types _ .none place ▸ old
    obtain ⟨s, known⟩ := spelled place uc before
    exact ⟨s, adds.lookup? (Model.lookup?_editAll known [.name (identifier u.name)])⟩
  · split at new
    · have written := List.mem_map_of_mem (f := fun uc => m'.names.lookup? uc.name) new
      rw [named] at written
      obtain ⟨s, -, known⟩ := List.mem_map.mp written
      exact ⟨s, known.symm⟩
    · cases new

/-- What a text describes is made by plain operations, and its cases have known names, none of which
is reserved. -/
theorem faithful_of_parse (parsed : parse disk base content = .ok ws) :
    ∃ us, Faithful us ws ∧ ws.model.Spelled ∧ ∀ u ∈ us, u.Unreserved := by
  obtain ⟨d, -, -, made⟩ := parse_ok parsed
  obtain ⟨ws₁, unions, files⟩ := ofDescription_ok made
  let described (ws : Workspace) : Prop :=
    ∃ us, Faithful us ws ∧ ws.model.Spelled ∧ ∀ u ∈ us, u.Unreserved
  have start : described empty := ⟨[], faithful_empty, spelled_empty, by simp⟩
  have afterUnions : described ws₁ := by
    refine addUnions_keeps described ?_ start unions
    intro ws u ws' ⟨us, faithful, spelled, unreserved⟩ added
    have spelled' := spelled_addUnion faithful.linked.toRooted spelled added
    obtain ⟨-, m', done, -⟩ := addUnion_ok added
    refine ⟨us ++ [u], faithful.addUnion added, spelled', ?_⟩
    rw [List.forall_mem_append, List.forall_mem_singleton]
    exact ⟨unreserved, unreserved_of_addCases done⟩
  refine addFiles_keeps described ?_ afterUnions files
  intro ws f ws' ⟨us, faithful, rest⟩ added
  obtain ⟨file, bindings, -, -, -, -, rfl⟩ := addFile_ok added
  exact ⟨us, ⟨faithful.history, faithful.declares⟩, rest⟩

/-- After any plain history of a described model that gives new cases known names, a case, its tag
and the handle of its tag are found together or not at all, and with the same record: the one by
the numbers of the names, the other by the names themselves, and the third past the workspace. No
lookup adds a name or changes a case list. -/
theorem tag_references_agree (parsed : parse disk base content = .ok ws) {edits : List ModelEdit}
    (plain : ∀ e ∈ edits, e.Plain) (spells : ws.model.Spells edits) {union case : Bytes}
    (dotless : 0x2E ∉ union) (dotless' : 0x2E ∉ case) (apart : case ≠ tagsName)
    (fixed : identifier (dotted [union, case]) = dotted [union, case])
    (fixed' : identifier (dotted [union, tagsName, case]) = dotted [union, tagsName, case]) :
    let m := ws.model.editAll edits
    (∃ uc? : Option UnionCase,
      (m.resolveReference (dotted [union, case])).1 = uc?.map .unionCase ∧
      (m.resolveReference (dotted [union, tagsName, case])).1 = uc?.map .tag ∧
      m.resolveHandle? ⟨.tag, union, case⟩ = uc?.map .tag) ∧
    ∀ ref, (m.resolveReference ref).2.names = m.names ∧
      ∀ id, (m.resolveReference ref).2.types.cases id = m.types.cases id := by
  intro m
  obtain ⟨us, faithful, spelled, -⟩ := faithful_of_parse parsed
  have linked : m.types.Linked := Model.linked_editAll faithful.linked plain
  have distinct : m.names.names.Nodup := (faithful.reachable.editAll edits).names_nodup
  have spelled' : m.Spelled := spelled.editAll spells
  have pieces : Bytes.split 0x2E (identifier (dotted [union, case])) = [union, case] := by
    rw [fixed]
    apply Bytes.split_join_of_not_mem (List.cons_ne_nil _ _)
    simp [dotless, dotless']
  have pieces' : Bytes.split 0x2E (identifier (dotted [union, tagsName, case])) =
      [union, tagsName, case] := by
    rw [fixed']
    apply Bytes.split_join_of_not_mem (List.cons_ne_nil _ _)
    have plainWord : 0x2E ∉ tagsName := by decide
    simp [dotless, dotless', plainWord]
  refine ⟨⟨m.resolveCase? union case, ?_, ?_, ?_⟩, ?_⟩
  · rw [Model.resolveReference_case pieces apart]
  · rw [Model.resolveReference_tag pieces', Model.resolveCase?_eq]
    simp only [Model.tagMember?_tagsClass linked spelled' distinct]
  · rfl
  · intro ref
    rcases m.resolveReference_snd ref with same | ⟨id, made⟩
    · rw [same]
      exact ⟨rfl, fun _ => rfl⟩
    · rw [made]
      exact ⟨rfl, fun other => TypeTable.cases_tagsClass m.types id other⟩

/-- A union with two cases. -/
def twoCases : Bytes :=
  text "[[union]]\nname = \"U\"\ncases = [\"A\", \"B\"]\n"

/-- The described union is hidden by another one, in which the name comes second. -/
theorem tag_references_agree_hidden :
    ∃ ws, parse (.empty []) [] twoCases = .ok ws ∧
      let m := ws.model.editAll [.register 1 .none, .add 9 3 .none, .add 9 2 .none]
      let uc : UnionCase := ⟨⟨0, 3⟩, 2, 9, .none⟩
      (m.resolveReference (dotted [text "U", text "A"])).1 = some (.unionCase uc) ∧
      (m.resolveReference (dotted [text "U", tagsName, text "A"])).1 = some (.tag uc) ∧
      m.resolveHandle? ⟨.tag, text "U", text "A"⟩ = some (.tag uc) := by
  have described : (parse (.empty []) [] twoCases).map (·.model) = .ok ((Model.new 0).editAll
      [.name (text "U"), .register 1 .none, .name (text "A"), .add 8 2 .none, .name (text "B"),
        .add 8 3 .none]) := by
    decide +kernel
  obtain ⟨ws, parsed, made⟩ := ok_of_map described
  refine ⟨ws, parsed, ?_⟩
  intro m uc
  have plain : ∀ e ∈ [ModelEdit.register 1 .none, .add 9 3 .none, .add 9 2 .none], e.Plain := by
    simp [ModelEdit.Plain]
  have spells : ws.model.Spells [.register 1 .none, .add 9 3 .none, .add 9 2 .none] := by
    rw [made]
    refine ⟨by simp [ModelEdit.caseNames], ?_, ?_, trivial⟩
    · exact List.forall_mem_singleton.mpr ⟨text "B", rfl⟩
    · exact List.forall_mem_singleton.mpr ⟨text "A", rfl⟩
  have dotless : 0x2E ∉ text "U" := by decide
  have dotless' : 0x2E ∉ text "A" := by decide
  obtain ⟨⟨uc?, asCase, asTag, asHandle⟩, -⟩ :=
    tag_references_agree parsed plain spells dotless dotless' (by decide) (by decide +kernel)
      (by decide +kernel)
  have found : m.resolveHandle? ⟨.tag, text "U", text "A"⟩ = some (.tag uc) := by
    simp only [m, made]
    decide
  obtain ⟨other, rfl, same⟩ := Option.map_eq_some_iff.mp (asHandle.symm.trans found)
  obtain rfl := Element.tag.inj same
  exact ⟨asCase, asTag, found⟩

end Workspace

end UnionAtlas
