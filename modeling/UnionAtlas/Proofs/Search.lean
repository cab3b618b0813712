import UnionAtlas.Search

/-!
# What a search finds

If whatever follows an element that passes a test passes it too, halving parts the list: the elements
in front of the found position are those that fail the test, the others are those that pass it. On
any list, a search from the end finds an element that passes, and none behind it does.
-/

namespace UnionAtlas
namespace Search

/-- Below the found position the test fails, from there on it holds. -/
theorem between_parts {test : Nat → Bool} {low high : Nat} (ordered : low ≤ high)
    (lasting : ∀ i j, i ≤ j → j < high → test i = true → test j = true) :
    low ≤ between test low high ∧ between test low high ≤ high ∧
      (∀ i, low ≤ i → i < between test low high → test i = false) ∧
      ∀ i, between test low high ≤ i → i < high → test i = true := by
  fun_induction between test low high with
  | case1 low high wide middle passes ih =>
    obtain ⟨above, below, fails, holds⟩ := ih (by omega) (by
      intro i j le bound
      exact lasting i j le (by omega))
    refine ⟨above, by omega, fails, ?_⟩
    intro i found bound
    by_cases early : i < middle
    · exact holds i found early
    · exact lasting middle i (by omega) bound passes
  | case2 low high wide middle passes ih =>
    obtain ⟨above, below, fails, holds⟩ := ih (by omega) lasting
    refine ⟨by omega, below, ?_, holds⟩
    intro i least found
    by_cases late : middle + 1 ≤ i
    · exact fails i late found
    · cases passed : test i with
      | false => rfl
      | true => exact absurd (lasting i middle (by omega) (by omega) passed) passes
  | case3 low high empty =>
    refine ⟨Nat.le_refl low, ordered, ?_, ?_⟩
    · intro i least found
      omega
    · intro i found bound
      omega

variable {α : Type} {test : α → Bool} {l : List α}

/-- Whatever follows an element that passes the test passes it too. -/
def Lasting (test : α → Bool) (l : List α) : Prop :=
  l.Pairwise fun a b => test a = true → test b = true

theorem Lasting.parts (lasting : Lasting test l) :
    first test l ≤ l.length ∧ (∀ a ∈ l.take (first test l), test a = false) ∧
      ∀ a ∈ l.drop (first test l), test a = true := by
  have later : ∀ i j, i ≤ j → j < l.length →
      l[i]?.any test = true → l[j]?.any test = true := by
    intro i j le bound passed
    have bound' : i < l.length := Nat.lt_of_le_of_lt le bound
    rw [List.getElem?_eq_getElem bound'] at passed
    rw [List.getElem?_eq_getElem bound]
    rcases Nat.eq_or_lt_of_le le with rfl | lt
    · exact passed
    · exact List.pairwise_iff_getElem.mp lasting i j bound' bound lt passed
  obtain ⟨-, inside, fails, holds⟩ := between_parts (Nat.zero_le l.length) later
  refine ⟨inside, ?_, ?_⟩
  · intro a member
    obtain ⟨i, bound, rfl⟩ := List.mem_take_iff_getElem.mp member
    have failed := fails i (Nat.zero_le i) (Nat.lt_of_lt_of_le bound (Nat.min_le_left _ _))
    rwa [List.getElem?_eq_getElem, Option.any_some] at failed
  · intro a member
    obtain ⟨i, bound, rfl⟩ := List.mem_drop_iff_getElem.mp member
    have passed := holds (first test l + i) (Nat.le_add_right _ i) (by omega)
    rwa [List.getElem?_eq_getElem, Option.any_some] at passed

/-- What stands in front of the found position are the elements that fail the test. -/
theorem Lasting.take_first (lasting : Lasting test l) :
    l.take (first test l) = l.filter (!test ·) := by
  obtain ⟨-, fails, holds⟩ := lasting.parts
  have kept : (l.take (first test l)).filter (!test ·) = l.take (first test l) := by
    rw [List.filter_eq_self]
    intro a member
    rw [fails a member, Bool.not_false]
  have dropped : (l.drop (first test l)).filter (!test ·) = [] := by
    rw [List.filter_eq_nil_iff]
    intro a member
    rw [holds a member]
    decide
  calc l.take (first test l)
      = (l.take (first test l)).filter (!test ·) ++ (l.drop (first test l)).filter (!test ·) := by
        rw [kept, dropped, List.append_nil]
    _ = l.filter (!test ·) := by rw [← List.filter_append, List.take_append_drop]

/-- What a search from the end finds stands somewhere, and no later element passes the test. -/
theorem exists_of_find?_reverse {a : α} (found : l.reverse.find? test = some a) :
    test a = true ∧ ∃ i : Nat, l[i]? = some a ∧
      ∀ (j : Nat) b, l[j]? = some b → test b = true → j ≤ i := by
  obtain ⟨passes, after, before, parts, fails⟩ := List.find?_eq_some_iff_append.mp found
  have whole : l = before.reverse ++ a :: after.reverse := by
    rw [← List.reverse_reverse l, parts]
    simp
  refine ⟨passes, before.length, ?_, ?_⟩
  · rw [whole, List.getElem?_append_right (by simp)]
    simp
  · intro j b stands passed
    by_cases beyond : j ≤ before.length
    · exact beyond
    · have member : b ∈ after.reverse := by
        rw [whole, List.getElem?_append_right (by simp; omega), List.length_reverse] at stands
        obtain ⟨k, rfl⟩ : ∃ k, j = before.length + (k + 1) := ⟨j - before.length - 1, by omega⟩
        rw [Nat.add_sub_cancel_left, List.getElem?_cons_succ] at stands
        exact List.mem_of_getElem? stands
      have failed := fails b (List.mem_reverse.mp member)
      rw [passed] at failed
      cases failed

end Search
end UnionAtlas
