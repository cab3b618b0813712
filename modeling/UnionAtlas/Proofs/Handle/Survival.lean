import UnionAtlas.Proofs.Handle.RoundTrip
import UnionAtlas.Proofs.Model.CaseLists
import UnionAtlas.Proofs.Model.Names
import UnionAtlas.Proofs.Model.TagEquality

/-!
# Handles that outlive edits

A handle holds two names and no record. It is resolved in a later state of the model, where the
cases of the union may have been removed, moved or replaced. As long as the name of the union still
stands for that union, the handle of a tag finds the first case that has the name now, and the tag
of that case is equal to the tag that was stored, although its record may be another.
-/

namespace UnionAtlas
namespace Model

variable {m : Model} {union : TypeId} {unionId caseId : NameId} {unionName caseName : Bytes}

/-- Names are found by their numbers, so a case is resolved by the number of its name. -/
theorem resolveCase?_of_names (distinct : m.names.names.Nodup)
    (unionNamed : m.names.lookup? unionId = some unionName)
    (caseNamed : m.names.lookup? caseId = some caseName)
    (current : m.types.unionByName? unionId = some union) :
    m.resolveCase? unionName caseName = (m.types.cases union).find? (·.name == caseId) := by
  rw [resolveCase?, NameTable.find?_of_lookup? distinct unionNamed, Option.bind_eq_bind,
    Option.bind_some, current, Option.bind_some,
    NameTable.find?_of_lookup? distinct caseNamed, Option.bind_some]

/-- The first case with a name has the first position of that name. -/
theorem tagIndex?_of_find? (sound : m.types.Sound) {p : UnionCase → Bool} {uc : UnionCase}
    (first : (m.types.cases union).find? p = some uc) :
    m.tagIndex? uc = (m.types.cases union).findIdx? p := by
  have listed := List.mem_of_find?_eq_some first
  rw [List.findIdx?_eq_bind_find?_idxOf?, first, Option.bind_some, tagIndex?, TypeTable.indexOf?,
    sound.cases_union listed]

theorem handleOf_of_names {uc : UnionCase} {info : UnionInfo} (kind : HandleKind)
    (registered : m.types.info? uc.union = some info)
    (unionNamed : m.names.lookup? info.name = some unionName)
    (caseNamed : m.names.lookup? uc.name = some caseName) :
    m.handleOf kind uc = ⟨kind, unionName, caseName⟩ := by
  simp only [handleOf, Model.unionName, registered, nameOf_of_lookup? unionNamed,
    nameOf_of_lookup? caseNamed]

section Later

variable {uc : UnionCase} {info : UnionInfo} (reachable : m.Reachable) (later : List ModelEdit)
  (registered : m.types.info? uc.union = some info)
  (unionNamed : m.names.lookup? info.name = some unionName)
  (caseNamed : m.names.lookup? uc.name = some caseName)
  (current : (m.editAll later).types.unionByName? info.name = some uc.union)

include reachable caseNamed in
/-- A later name is that of the record exactly when it has its number. -/
theorem named_later_iff (id : NameId) :
    (m.editAll later).names.lookup? id = some caseName ↔ id = uc.name := by
  have known := lookup?_editAll caseNamed later
  constructor
  · intro same
    exact NameTable.lookup?_inj (reachable.editAll later).names_nodup same known
  · rintro rfl
    exact known

include reachable registered unionNamed caseNamed current in
/-- The handle of a record finds the first case that has the record's name now. -/
theorem resolveHandle?_later :
    (m.editAll later).resolveHandle? (m.handleOf .tag uc) =
      (((m.editAll later).types.cases uc.union).find? (·.name == uc.name)).map .tag := by
  have distinct := (reachable.editAll later).names_nodup
  rw [handleOf_of_names .tag registered unionNamed caseNamed, resolveHandle?,
    resolveCase?_of_names distinct (lookup?_editAll unionNamed later)
      (lookup?_editAll caseNamed later) current]

include reachable registered in
/-- Tags of one name are equal, when one is of the union and the other of a case that it lists. -/
theorem equal_later {c : UnionCase} (listed : c ∈ (m.editAll later).types.cases uc.union)
    (name : c.name = uc.name) {u : Universe} {i : Nat} (state : u.get i = m.editAll later) :
    (u.equal ⟨i, .tag uc⟩ ⟨i, .tag c⟩).1 = true ∧ (u.equal ⟨i, .tag c⟩ ⟨i, .tag uc⟩).1 = true := by
  obtain ⟨place, registered⟩ := TypeTable.place_of_info? registered
  have found := unionPlace?_editAll registered later
  rw [TypeTable.cases_of_place found] at listed
  have found' := (reachable.editAll later).sound.placed place c listed
  rw [← state] at found found'
  have same : (u.get i).nameOf uc.name = (u.get i).nameOf c.name := by rw [name]
  exact ⟨Universe.equal_tags same found found', Universe.equal_tags same.symm found' found⟩

end Later

/-- The tag of any record, listed or not, is stored and resolved in a later state in which the name
of its union still stands for the union. Its handle is read back if the names are short enough to be
stored. It resolves exactly when the union now lists a case of the record's name, and then to a tag
that is equal to the stored one in both directions, has its hash, and has the first position of the
name. -/
theorem tag_handle_survives_edits (reachable : m.Reachable) (later : List ModelEdit)
    {uc : UnionCase} {info : UnionInfo} (registered : m.types.info? uc.union = some info)
    (unionNamed : m.names.lookup? info.name = some unionName)
    (caseNamed : m.names.lookup? uc.name = some caseName)
    (current : (m.editAll later).types.unionByName? info.name = some uc.union) :
    let handle := m.handleOf .tag uc
    let now := m.editAll later
    let named (c : UnionCase) : Bool := now.names.lookup? c.name == some caseName
    (handle.Fits → Handle.decode handle.encode = .ok handle) ∧
    ((now.resolveHandle? handle).isSome ↔ ∃ c ∈ now.types.cases uc.union, named c) ∧
    ∀ e, now.resolveHandle? handle = some e → ∃ c, e = .tag c ∧
      (∀ (u : Universe) (i : Nat), u.get i = now →
        (u.equal ⟨i, .tag uc⟩ ⟨i, .tag c⟩).1 = true ∧
        (u.equal ⟨i, .tag c⟩ ⟨i, .tag uc⟩).1 = true) ∧
      e.hash now = (Element.tag uc).hash now ∧ e.hash now = (Element.tag uc).hash m ∧
      now.tagIndex? c = (now.types.cases uc.union).findIdx? named := by
  intro handle now named
  have byNumber : named = fun c => c.name == uc.name := by
    funext c
    apply Bool.eq_iff_iff.mpr
    simpa [named] using named_later_iff reachable later caseNamed c.name
  have resolved :
      now.resolveHandle? handle = ((now.types.cases uc.union).find? named).map .tag := by
    rw [byNumber]
    exact resolveHandle?_later reachable later registered unionNamed caseNamed current
  refine ⟨?_, ?_, ?_⟩
  · intro fits
    have read := Handle.decode_encode fits []
    rwa [List.append_nil] at read
  · rw [resolved, Option.isSome_map, List.find?_isSome]
  · intro e found
    rw [resolved] at found
    obtain ⟨c, first, rfl⟩ := Option.map_eq_some_iff.mp found
    have name : c.name = uc.name := by
      have matched := List.find?_some first
      rw [byNumber] at matched
      exact beq_iff_eq.mp matched
    refine ⟨c, rfl, ?_, ?_, ?_, ?_⟩
    · intro u i state
      exact equal_later reachable later registered (List.mem_of_find?_eq_some first) name state
    · simp only [Element.hash, Element.shortName, name]
    · simp only [Element.hash, Element.shortName, name, nameOf_of_lookup? caseNamed]
      rw [nameOf_of_lookup? (lookup?_editAll caseNamed later)]
    · exact tagIndex?_of_find? (reachable.editAll later).sound first

/-- The case was replaced by another record of its name, which comes second. -/
theorem tag_handle_survives_edits_replaced :
    let stale : UnionCase := ⟨⟨0, 0⟩, 2, 8, .none⟩
    let heir : UnionCase := ⟨⟨0, 2⟩, 2, 8, .none⟩
    let m := (Model.new 0).editAll [.name (text "U"), .name (text "A"), .register 1 .none,
      .add 8 2 .none]
    let now := m.editAll [.name (text "B"), .replace 8 [3, 2]]
    let handle := m.handleOf .tag stale
    Handle.decode handle.encode = .ok handle ∧ now.resolveHandle? handle = some (.tag heir) ∧
      ((Universe.single now).equal ⟨0, .tag stale⟩ ⟨0, .tag heir⟩).1 = true ∧
      now.tagIndex? heir = some 1 ∧ now.tagIndex? stale = none := by
  intro stale heir m now handle
  have reachable : m.Reachable := ⟨0, _, rfl⟩
  have registered : m.types.info? stale.union = some ⟨1, .none, [stale], none⟩ := by decide
  have unionNamed : m.names.lookup? 1 = some (text "U") := by decide
  have caseNamed : m.names.lookup? stale.name = some (text "A") := by decide
  have current : now.types.unionByName? 1 = some stale.union := by decide
  obtain ⟨read, -, survives⟩ :=
    tag_handle_survives_edits reachable _ registered unionNamed caseNamed current
  have resolved : now.resolveHandle? handle = some (.tag heir) := by decide
  obtain ⟨c, same, equal, -, -, position⟩ := survives _ resolved
  obtain rfl := Element.tag.inj same
  exact ⟨read (by decide), resolved, (equal (.single now) 0 rfl).1, position, by decide⟩

end Model
end UnionAtlas
