import Mathlib.Data.List.Basic
import UnionAtlas.Text.Bytes

/-!
# Pieces of a text

A text is cut at every place where a separator stands. Cutting undoes joining exactly if no part
that was joined has the separator inside.
-/

namespace UnionAtlas
namespace Bytes

variable {sep : UInt8} {parts : List Bytes}

theorem split_eq_splitOn (sep : UInt8) (bs : Bytes) : split sep bs = bs.splitOn sep := by
  rw [split, List.splitOn_eq_splitOnP]
  induction bs with
  | nil => rfl
  | cons b bs ih =>
    rw [splitWhen, List.splitOnP_cons_eq_if_modifyHead, ih]
    by_cases here : b == sep
    · simp [here]
    · cases pieces : bs.splitOnP (· == sep) with
      | nil => exact absurd pieces (List.splitOnP_ne_nil _ _)
      | cons piece rest => simp [here]

theorem split_append_cons (sep : UInt8) (before after : Bytes) :
    split sep (before ++ sep :: after) = split sep before ++ split sep after := by
  simp only [split_eq_splitOn, List.splitOn_append_cons_self]

theorem split_of_not_mem {part : Bytes} (absent : sep ∉ part) : split sep part = [part] := by
  rw [split_eq_splitOn, List.splitOn_eq_singleton absent]

/-- What is joined is cut at every separator, also at those inside a part. -/
theorem split_join (nonempty : parts ≠ []) :
    split sep (join [sep] parts) = parts.flatMap (split sep) := by
  induction parts with
  | nil => exact absurd rfl nonempty
  | cons part rest ih =>
    cases rest with
    | nil => simp [join]
    | cons next more =>
      have later := ih (List.cons_ne_nil next more)
      have joined : join [sep] (part :: next :: more) = part ++ sep :: join [sep] (next :: more) := by
        simp [join]
      rw [joined, split_append_cons, later]
      rfl

theorem split_join_of_not_mem (nonempty : parts ≠ []) (absent : ∀ part ∈ parts, sep ∉ part) :
    split sep (join [sep] parts) = parts := by
  have whole : parts.flatMap (split sep) = parts.flatMap fun part => [part] := by
    apply List.flatMap_congr
    intro part member
    exact split_of_not_mem (absent part member)
  rw [split_join nonempty, whole, List.flatMap_singleton']

theorem length_split (sep : UInt8) (bs : Bytes) : (split sep bs).length = bs.count sep + 1 := by
  rw [split]
  induction bs with
  | nil => rfl
  | cons b bs ih =>
    rw [splitWhen, List.count_cons]
    by_cases here : b == sep
    · simp [here, ih]
    · cases pieces : splitWhen (· == sep) bs with
      | nil => exact absurd pieces (splitWhen_ne_nil _ _)
      | cons piece rest => simp [here, ← ih, pieces]

/-- A separator inside a part makes one piece more than there are parts. -/
theorem not_mem_of_length_split_join (nonempty : parts ≠ [])
    (same : (split sep (join [sep] parts)).length = parts.length) : ∀ part ∈ parts, sep ∉ part := by
  rw [split_join nonempty] at same
  clear nonempty
  have least (parts : List Bytes) : parts.length ≤ (parts.flatMap (split sep)).length := by
    induction parts with
    | nil => exact Nat.le_refl 0
    | cons part rest ih =>
      rw [List.flatMap_cons, List.length_append, length_split, List.length_cons]
      omega
  induction parts with
  | nil => simp
  | cons part rest ih =>
    rw [List.flatMap_cons, List.length_append, length_split, List.length_cons] at same
    have more := least rest
    rw [List.forall_mem_cons]
    refine ⟨List.count_eq_zero.mp (by omega), ih (by omega)⟩

theorem not_mem_of_mem_split {bs part : Bytes} (piece : part ∈ split sep bs) : sep ∉ part := by
  have same : (split sep (join [sep] (split sep bs))).length = (split sep bs).length := by
    rw [join_split]
  exact not_mem_of_length_split_join (splitWhen_ne_nil _ bs) same part piece

end Bytes

end UnionAtlas
