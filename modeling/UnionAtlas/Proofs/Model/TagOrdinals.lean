import Mathlib.Algebra.Group.Nat.Defs
import UnionAtlas.Proofs.Model.CaseLists

/-!
# Tag ordinals

The value of a tag is the position of its case among the current cases of the union. The position is
found by the identity of the record, so it is right because no record is listed twice and because
every record is listed by its own union only. The value is bad without a position, and also where
the position is no thirty-two bit number.
-/

namespace UnionAtlas

namespace Constant

theorem int32_of_lt {i : Nat} (small : i < 2 ^ 31) (type : TypeId) :
    int32 i type = .value i type :=
  if_pos (by omega)

theorem int32_eq_bad_iff (i : Nat) (type : TypeId) : int32 i type = .bad ↔ 2 ^ 31 ≤ i := by
  by_cases small : i < 2 ^ 31
  · rw [int32_of_lt small]
    simpa using small
  · rw [int32, if_neg (by omega)]
    simpa using small

end Constant

namespace TypeTable

variable {t : TypeTable} {id : TypeId} {uc : UnionCase}

/-- The record at a position of a case list has that position. -/
theorem Sound.indexOf?_of_getElem? (sound : Sound t) {i : Nat} (at_i : (t.cases id)[i]? = some uc) :
    t.indexOf? uc = some i := by
  have listed : uc ∈ t.cases id := List.mem_of_getElem? at_i
  obtain ⟨bound, rfl⟩ := List.getElem?_eq_some_iff.mp at_i
  rw [indexOf?, sound.cases_union listed, List.idxOf?_eq_some_iff]
  refine ⟨bound, rfl, fun j earlier same => ?_⟩
  have position := (sound.nodup id).getElem_inj_iff.mp same
  omega

theorem isSome_indexOf? (t : TypeTable) (uc : UnionCase) :
    (t.indexOf? uc).isSome ↔ uc ∈ t.cases uc.union :=
  List.isSome_idxOf?

end TypeTable

namespace Model

/-- A tag is bad when its case has no position, or one that is no thirty-two bit number. -/
theorem tagConstant_eq_bad_iff (m : Model) (uc : UnionCase) :
    m.tagConstant uc = .bad ↔ ∀ i, m.tagIndex? uc = some i → 2 ^ 31 ≤ i := by
  rw [tagConstant]
  cases m.tagIndex? uc with
  | none => simp
  | some i => simp [Constant.int32_eq_bad_iff]

theorem tagConstant_eq_bad_iff_of_length (m : Model) {uc : UnionCase}
    (short : (m.types.cases uc.union).length ≤ 2 ^ 31) :
    m.tagConstant uc = .bad ↔ m.tagIndex? uc = none := by
  rw [tagConstant_eq_bad_iff]
  cases position : m.tagIndex? uc with
  | none => simp
  | some i =>
    obtain ⟨bound, -⟩ := List.idxOf?_eq_some_iff.mp position
    simpa using Nat.lt_of_lt_of_le bound short

theorem tagConstant_of_index {m : Model} {uc : UnionCase} {i : Nat}
    (position : m.tagIndex? uc = some i) (small : i < 2 ^ 31) :
    m.tagConstant uc = .value i builtins.int32 := by
  rw [tagConstant, position]
  exact Constant.int32_of_lt small tagType

theorem tagConstant_eq_bad_of_index {m : Model} {uc : UnionCase} {i : Nat}
    (position : m.tagIndex? uc = some i) (large : 2 ^ 31 ≤ i) : m.tagConstant uc = .bad := by
  rw [tagConstant_eq_bad_iff, position]
  simpa using large

/-- The bound on the length cannot be left out: in a longer list, a tag with a position is bad. -/
theorem Reachable.exists_listed_bad {m : Model} (reachable : m.Reachable) {union : TypeId}
    (long : 2 ^ 31 < (m.types.cases union).length) :
    ∃ uc ∈ m.types.cases union, m.tagIndex? uc = some (2 ^ 31) ∧ m.tagConstant uc = .bad := by
  have position : m.tagIndex? (m.types.cases union)[2 ^ 31] = some (2 ^ 31) :=
    reachable.sound.indexOf?_of_getElem? (List.getElem?_eq_getElem long)
  exact ⟨_, List.getElem_mem long, position, tagConstant_eq_bad_of_index position (Nat.le_refl _)⟩

/-- In every state that edits can reach, no record is listed twice; the tag of the case at a
position holds that position, as a thirty-two bit number if it is one; a tag has a position exactly
while its union lists its case, and is bad exactly when it has none or one that is no such number,
so that a bad tag of a union with at most `2 ^ 31` cases has none; and a record that is removed or
replaced is never listed again, by any union. -/
theorem tag_ordinals_of_reachable {m : Model} (reachable : m.Reachable) :
    (∀ union, ((m.types.cases union).map UnionCase.key).Nodup) ∧
    (∀ union i uc, (m.types.cases union)[i]? = some uc →
      m.tagIndex? uc = some i ∧ (i < 2 ^ 31 → m.tagConstant uc = .value i builtins.int32)) ∧
    (∀ uc, (m.tagIndex? uc).isSome ↔ uc ∈ m.types.cases uc.union) ∧
    (∀ uc, m.tagConstant uc = .bad ↔ ∀ i, m.tagIndex? uc = some i → 2 ^ 31 ≤ i) ∧
    (∀ uc, (m.types.cases uc.union).length ≤ 2 ^ 31 →
      (m.tagConstant uc = .bad ↔ m.tagIndex? uc = none)) ∧
    (∀ uc later union, (m.types.removeCase uc).1 = true →
      uc ∉ ((m.edit (.remove (some uc))).editAll later).types.cases union) ∧
    (∀ replaced names uc later union, uc ∈ m.types.cases replaced →
      uc ∉ ((m.edit (.replace replaced names)).editAll later).types.cases union) := by
  have sound := reachable.sound
  refine ⟨sound.keys_nodup, ?_, m.types.isSome_indexOf?, m.tagConstant_eq_bad_iff,
    fun uc short => m.tagConstant_eq_bad_iff_of_length short, ?_, ?_⟩
  · intro union i uc at_i
    have position : m.tagIndex? uc = some i := sound.indexOf?_of_getElem? at_i
    exact ⟨position, tagConstant_of_index position⟩
  · intro uc later union removed
    exact not_mem_cases_editAll (sound.retired_remove removed) later union
  · intro replaced names uc later union listed
    exact not_mem_cases_editAll (sound.retired_replace names listed) later union

/-- Of two cases of one name, the first is moved to the end, and later removed. -/
theorem tag_ordinals_of_reachable_moved :
    let first : UnionCase := ⟨⟨0, 0⟩, 1, 8, .none⟩
    let m := (Model.new 0).editAll [.name (text "A"), .register 1 .none, .add 8 1 .none,
      .add 8 1 .none, .move (some first) 7]
    m.tagConstant first = .value 1 builtins.int32 ∧
      first ∉ ((m.edit (.remove (some first))).editAll [.add 8 1 .none]).types.cases 8 := by
  intro first m
  have reachable : m.Reachable := ⟨0, _, rfl⟩
  obtain ⟨-, ordinal, -, -, -, removed, -⟩ := tag_ordinals_of_reachable reachable
  exact ⟨(ordinal 8 1 first (by decide)).2 (by decide), removed first _ 8 (by decide)⟩

/-- In a union with one case more than that, the last tag is bad and has its position. -/
theorem tag_ordinal_beyond_int32 :
    let m := ((Model.new 0).edit (.register 0 .none)).edit
      (.replace 8 (List.replicate (2 ^ 31 + 1) 0))
    m.Reachable ∧ ∃ uc ∈ m.types.cases 8,
      m.tagIndex? uc = some (2 ^ 31) ∧ ¬ (m.tagConstant uc = .bad ↔ m.tagIndex? uc = none) := by
  intro m
  have reachable : m.Reachable := ⟨0, [.register 0 .none, .replace 8 _], rfl⟩
  have found : ((Model.new 0).edit (.register 0 .none)).types.unionPlace? 8 = some 0 := by decide
  have length : (m.types.cases 8).length = 2 ^ 31 + 1 := by
    rw [length_cases_replace found, List.length_replicate]
  have long : 2 ^ 31 < (m.types.cases 8).length := by omega
  obtain ⟨uc, listed, position, bad⟩ := reachable.exists_listed_bad long
  refine ⟨reachable, uc, listed, position, fun same => ?_⟩
  cases position.symm.trans (same.mp bad)

end Model
end UnionAtlas
