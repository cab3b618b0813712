import UnionAtlas.Proofs.Workspace.References

/-!
# Where declared elements are found

Every union of a workspace has a tags class, and each of its cases has a tag. The names of these
elements, with dots between them, are meant to be a reference to them. They are one as long as no
name has a dot itself. Names are checked for being empty, reserved or given twice when a workspace
is described, but not for dots.
-/

namespace UnionAtlas

/-- The number of names in a reference to an element. -/
def Element.depth : Element → Nat
  | .union _ => 1
  | .tagsClass _ => 2
  | .unionCase _ => 2
  | .tag _ => 3

/-- The elements that belong to a union, with the names that are to refer to them. -/
inductive Addressed (m : Model) (id : TypeId) : Element → List Bytes → Prop where
  | union : Addressed m id (.union id) [m.unionName id]
  | tagsClass {tags : TypeId} (given : (m.tagsClass id).1 = some tags) :
      Addressed m id (.tagsClass tags) [m.unionName id, tagsName]
  | unionCase {uc : UnionCase} (listed : uc ∈ m.types.cases id) :
      Addressed m id (.unionCase uc) [m.unionName id, m.nameOf uc.name]
  | tag {uc : UnionCase} (listed : uc ∈ m.types.cases id) :
      Addressed m id (.tag uc) [m.unionName id, tagsName, m.nameOf uc.name]

namespace Addressed

variable {m : Model} {id : TypeId} {e : Element} {names : List Bytes}

theorem length_eq (addressed : Addressed m id e names) : names.length = e.depth := by
  cases addressed <;> rfl

theorem ne_nil (addressed : Addressed m id e names) : names ≠ [] := by
  cases addressed <;> exact List.cons_ne_nil _ _

end Addressed

namespace Model

variable {m : Model} {id : TypeId} {e : Element} {ref union : Bytes}

theorem resolveReference_union (pieces : Bytes.split 0x2E (identifier ref) = [union]) :
    (m.resolveReference ref).1 = (m.unionNamed? union).map .union := by
  simp only [resolveReference, pieces, List.headD_cons]
  cases m.unionNamed? union <;> rfl

theorem resolveReference_tagsClass
    (pieces : Bytes.split 0x2E (identifier ref) = [union, tagsName]) :
    (m.resolveReference ref).1 =
      (m.unionNamed? union).bind fun id => (m.tagsClass id).1.map .tagsClass := by
  simp only [resolveReference, pieces, List.headD_cons, if_true]
  cases m.unionNamed? union <;> rfl

/-- What is found with a reference has as many names as the reference has pieces. -/
theorem length_split_of_found (found : (m.resolveReference ref).1 = some e) :
    (Bytes.split 0x2E (identifier ref)).length = e.depth := by
  simp only [resolveReference] at found
  split at found
  · cases found
  · split at found
    · next one =>
      obtain rfl := Option.some.inj found
      rw [one]; rfl
    · next two =>
      split at found
      · obtain ⟨tags, -, rfl⟩ := Option.map_eq_some_iff.mp found
        rw [two]; rfl
      · obtain ⟨uc, -, rfl⟩ := Option.map_eq_some_iff.mp found
        rw [two]; rfl
    · next three =>
      split at found
      · obtain ⟨tags, -, member⟩ := Option.bind_eq_some_iff.mp found
        obtain ⟨uc, -, rfl⟩ := Option.map_eq_some_iff.mp member
        rw [three]; rfl
      · cases found
    · cases found

end Model

namespace Workspace

variable {ws : Workspace} {m : Model} {id : TypeId} {u : UnionEntry} {uc : UnionCase}

theorem Declares.unionNamed? (declares : Declares m id u) (distinct : m.names.names.Nodup) :
    m.unionNamed? (m.unionName id) = some id := by
  obtain ⟨name, known, current, -⟩ := declares.named
  rw [Model.unionNamed?, declares.unionName, NameTable.find?_of_lookup? distinct known,
    Option.bind_some, current]

/-- A listed case is described, and it is the only one of its name. -/
theorem Declares.case (declares : Declares m id u) (distinct : m.names.names.Nodup)
    (listed : uc ∈ m.types.cases id) :
    m.nameOf uc.name ∈ u.cases.map identifier ∧
      ((m.names.find? (m.nameOf uc.name)).bind fun name =>
        (m.types.cases id).find? (·.name == name)) = some uc := by
  obtain ⟨n, here⟩ := List.mem_iff_getElem?.mp listed
  have names : ((u.cases.map identifier).map some)[n]? = some (m.names.lookup? uc.name) := by
    rw [← declares.cases, List.getElem?_map, here]
    rfl
  rw [List.getElem?_map] at names
  obtain ⟨case, position, known⟩ := Option.map_eq_some_iff.mp names
  obtain ⟨other, there, -, first⟩ := declares.find? position
  obtain rfl := Option.some.inj (here.symm.trans there)
  rw [Model.nameOf_of_lookup? known.symm, NameTable.find?_of_lookup? distinct known.symm]
  exact ⟨List.mem_of_getElem? position, first⟩

/-- The names of a described element are a reference to it, unless they have dots. -/
theorem Faithful.found {us : List UnionEntry} {e : Element} {names : List Bytes}
    (faithful : Faithful us ws) (spelled : ws.model.Spelled) (declares : Declares ws.model id u)
    (unreserved : u.Unreserved) (addressed : Addressed ws.model id e names)
    (fixed : identifier (dotted names) = dotted names) (dotless : ∀ name ∈ names, 0x2E ∉ name) :
    (ws.model.resolveReference (dotted names)).1 = some e := by
  have distinct := faithful.reachable.names_nodup
  have pieces : Bytes.split 0x2E (identifier (dotted names)) = names := by
    rw [fixed]
    exact Bytes.split_join_of_not_mem addressed.ne_nil dotless
  have here := declares.unionNamed? distinct
  cases addressed with
  | union => rw [Model.resolveReference_union pieces, here, Option.map_some]
  | tagsClass given =>
    rw [Model.resolveReference_tagsClass pieces, here, Option.bind_some, given, Option.map_some]
  | unionCase listed =>
    obtain ⟨described, first⟩ := declares.case distinct listed
    obtain ⟨c, member, written⟩ := List.mem_map.mp described
    have apart : ws.model.nameOf _ ≠ tagsName := written ▸ unreserved c member
    rw [Model.resolveReference_case pieces apart, Model.resolveCase?_eq, here, Option.bind_some,
      first, Option.map_some]
  | tag listed =>
    obtain ⟨-, first⟩ := declares.case distinct listed
    rw [Model.resolveReference_tag pieces, here, Option.bind_some,
      Model.tagMember?_tagsClass faithful.linked spelled distinct, first, Option.map_some]

/-- Every union of a described workspace has a tags class. The names of the union, of its tags
class, of a case and of a tag refer to exactly this element if and only if none of them has a dot.
Names in normal form are taken to stay in normal form with dots between them. -/
theorem element_found_iff_dotless {disk : Disk} {base content : Bytes}
    (parsed : parse disk base content = .ok ws) (declared : id ∈ ws.unions) :
    (∃ tags, (ws.model.tagsClass id).1 = some tags) ∧
    ∀ e names, Addressed ws.model id e names → identifier (dotted names) = dotted names →
      ((ws.model.resolveReference (dotted names)).1 = some e ↔ ∀ name ∈ names, 0x2E ∉ name) := by
  obtain ⟨us, faithful, spelled, unreserved⟩ := faithful_of_parse parsed
  obtain ⟨i, bound, rfl⟩ := List.mem_iff_getElem.mp declared
  have bound' : i < us.length := faithful.declares.length_eq ▸ bound
  have declares := faithful.declares.get bound' bound
  refine ⟨?_, ?_⟩
  · obtain ⟨place, found⟩ := declares.place
    obtain ⟨tags, given, -⟩ := TypeTable.tagsClass_of_place found
    exact ⟨tags, given⟩
  · intro e names addressed fixed
    constructor
    · intro found
      apply Bytes.not_mem_of_length_split_join addressed.ne_nil
      have pieces := Model.length_split_of_found found
      rwa [fixed, ← addressed.length_eq] at pieces
    · exact faithful.found spelled declares (unreserved _ (List.getElem_mem bound')) addressed fixed

/-- A union with two cases, the first of which has a dot in its name. -/
def dottedCase : Bytes :=
  text "[[union]]\nname = \"U\"\ncases = [\"A.B\", \"C\"]\n"

/-- The model of the union and its two cases. -/
def dottedCaseModel : Model :=
  (Model.new 0).editAll [.name (text "U"), .register 1 .none, .name (text "A.B"), .add 8 2 .none,
    .name (text "C"), .add 8 3 .none]

theorem parse_dottedCase :
    ∃ ws, parse (.empty []) [] dottedCase = .ok ws ∧ ws.model = dottedCaseModel ∧
      ws.unions = [8] := by
  have described : (parse (.empty []) [] dottedCase).map (fun ws => (ws.model, ws.unions)) =
      .ok (dottedCaseModel, [8]) := by
    decide +kernel
  obtain ⟨ws, parsed, same⟩ := ok_of_map described
  obtain ⟨model, unions⟩ := Prod.mk.inj same
  exact ⟨ws, parsed, model, unions⟩

/-- The tag of the second case is found, and the first case is not. -/
theorem element_found_iff_dotless_beside_dot :
    ∃ ws, parse (.empty []) [] dottedCase = .ok ws ∧ 8 ∈ ws.unions ∧
      (ws.model.resolveReference (dotted [text "U", tagsName, text "C"])).1 =
        some (.tag ⟨⟨0, 1⟩, 3, 8, .none⟩) ∧
      (ws.model.resolveReference (dotted [text "U", text "A.B"])).1 ≠
        some (.unionCase ⟨⟨0, 0⟩, 2, 8, .none⟩) := by
  obtain ⟨ws, parsed, model, unions⟩ := parse_dottedCase
  have declared : 8 ∈ ws.unions := unions ▸ List.mem_singleton_self 8
  obtain ⟨-, found⟩ := element_found_iff_dotless parsed declared
  refine ⟨ws, parsed, declared, ?_⟩
  rw [model] at found ⊢
  have addressed : Addressed dottedCaseModel 8 (.tag ⟨⟨0, 1⟩, 3, 8, .none⟩)
      [text "U", tagsName, text "C"] :=
    .tag (by decide)
  have addressed' : Addressed dottedCaseModel 8 (.unionCase ⟨⟨0, 0⟩, 2, 8, .none⟩)
      [text "U", text "A.B"] :=
    .unionCase (by decide)
  refine ⟨?_, ?_⟩
  · exact (found _ _ addressed (by decide +kernel)).mpr (by decide)
  · intro other
    exact absurd ((found _ _ addressed' (by decide +kernel)).mp other) (by decide)

/-- A case with a dot in its name is declared, and its names refer to nothing. -/
theorem not_element_found_of_dot :
    ¬ ∀ disk base content ws, parse disk base content = .ok ws → ∀ id ∈ ws.unions, ∀ e names,
      Addressed ws.model id e names → identifier (dotted names) = dotted names →
        (ws.model.resolveReference (dotted names)).1 = some e := by
  intro found
  obtain ⟨ws, parsed, model, unions⟩ := parse_dottedCase
  have declared : 8 ∈ ws.unions := unions ▸ List.mem_singleton_self 8
  have first := found _ _ _ ws parsed 8 declared
  rw [model] at first
  have addressed : Addressed dottedCaseModel 8 (.unionCase ⟨⟨0, 0⟩, 2, 8, .none⟩)
      [text "U", text "A.B"] :=
    .unionCase (by decide)
  have none : (dottedCaseModel.resolveReference (dotted [text "U", text "A.B"])).1 = none := by
    decide +kernel
  rw [first _ _ addressed (by decide +kernel)] at none
  cases none

end Workspace
end UnionAtlas
