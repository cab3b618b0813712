import Mathlib.Algebra.Ring.Nat
import Mathlib.Data.Bool.AllAny
import UnionAtlas.Proofs.Text.Clusters

/-!
# The cells of a text

The cells of a text are those of its clusters. Spaces behind a text take one cell each, unless the
text ends in a mark that belongs to what comes next, or in a sequence cut off. A text that is cut
and shown with three dots takes no more cells than it was given, and spaces behind it always count.
-/

namespace UnionAtlas

open Cluster

variable {b : UInt8} {bs t c : Bytes} {w : Walk}

/-- Spaces behind the text take one cell each. -/
def Fills (bs : Bytes) : Prop :=
  ∀ n, cellWidth (bs ++ List.replicate n 32) = cellWidth bs + n

namespace Cluster

/-- The cells of clusters. -/
def cells (cs : List Bytes) : Nat :=
  (cs.map width).sum

theorem cellWidth_eq (bs : Bytes) : cellWidth bs = cells (ofBytes bs) := by
  rw [cellWidth, cells, List.sum_eq_foldr, List.foldr_map]

theorem cells_append (cs ds : List Bytes) : cells (cs ++ ds) = cells cs + cells ds := by
  rw [cells, List.map_append, List.sum_append, cells, cells]

theorem cells_cons (c : Bytes) (cs : List Bytes) : cells (c :: cs) = width c + cells cs := by
  rw [cells, List.map_cons, List.sum_cons, cells]

/-! ## Visible ASCII -/

/-- The pieces of a text of visible ASCII. -/
def units (t : Bytes) : List Piece :=
  t.map fun b => .unit .other [b]

/-- A cluster for each byte. -/
def singles (t : Bytes) : List Bytes :=
  t.map fun b => [b]

theorem opens_visible (visible : ∀ b ∈ t, Visible b) : t.Opens := by
  intro b first
  obtain ⟨-, most⟩ := visible b (List.mem_of_mem_head? first)
  have small : ¬ 0x80 ≤ b := UInt8.not_le.mpr (UInt8.lt_trans most (by decide))
  rw [Utf8.isContinuation, decide_eq_false small, Bool.false_and]

theorem pieces_visible_append (visible : ∀ b ∈ t, Visible b) (rest : Bytes) :
    pieces (t ++ rest) = units t ++ pieces rest := by
  induction t with
  | nil => rfl
  | cons b t ih =>
    obtain ⟨first, others⟩ := List.forall_mem_cons.mp visible
    rw [List.cons_append, pieces_visible first, ih others]
    rfl

theorem pieces_units (visible : ∀ b ∈ t, Visible b) : pieces t = units t := by
  have whole := pieces_visible_append visible []
  rwa [List.append_nil, pieces, List.append_nil] at whole

theorem gather_units (last : w.last ≠ .prepend) (c t : Bytes) :
    gather c w (units t) = c :: singles t := by
  induction t generalizing c w with
  | nil => rfl
  | cons b t ih =>
    have apart : joins w .other = false := by
      rw [joins_other]
      exact beq_eq_false_iff_ne.mpr last
    change gather c w (.unit .other [b] :: units t) = _
    rw [gather, apart, if_neg Bool.false_ne_true, ih (w := .start .other) (by decide)]
    rfl

/-- Only the first visible sign can join what comes before. -/
theorem gather_units_cons (c : Bytes) (w : Walk) (b : UInt8) (t : Bytes) :
    gather c w (units (b :: t)) = gather c w (units [b]) ++ singles t := by
  change gather c w (.unit .other [b] :: units t) = gather c w [.unit .other [b]] ++ singles t
  rw [gather, gather]
  have last : (w.push .other).last ≠ .prepend := ClusterClass.noConfusion
  have last' : (Walk.start .other).last ≠ .prepend := by decide
  by_cases join : joins w .other = true
  · rw [if_pos join, if_pos join, gather_units last]
    rfl
  · rw [if_neg join, if_neg join, gather_units last']
    rfl

theorem shown_visible (visible : Visible b) :
    (Utf8.runes [b]).map (fun r => codeWidth r.code) = [1] := by
  obtain ⟨least, most⟩ := visible
  simp only [UInt8.le_iff_toNat_le, UInt8.lt_iff_toNat_lt, UInt8.reduceToNat] at least most
  have ascii : ∀ b' ∈ [b], b'.toNat < 0x80 := List.forall_mem_singleton.mpr (by omega)
  have code : codeWidth b.toNat = 1 := by
    unfold codeWidth
    rw [if_neg (by omega), if_neg (by omega), if_pos (by omega)]
  have runes := Utf8.runes_ascii_append ascii []
  rw [List.append_nil, Utf8.runes] at runes
  rw [runes]
  exact congrArg (fun n => [n]) code

theorem width_visible (visible : Visible b) : width [b] = 1 := by
  rw [width, shown_visible visible]
  rfl

theorem width_append_visible (visible : Visible b) (c : Bytes) : width (c ++ [b]) ≤ width c + 1 := by
  have opens : Bytes.Opens [b] := opens_visible (List.forall_mem_singleton.mpr visible)
  rw [width, Utf8.runes_append opens, List.map_append, shown_visible visible, List.find?_append, width]
  cases ((Utf8.runes c).map fun r => codeWidth r.code).find? (0 < ·) with
  | none => exact Nat.le_refl 1
  | some n => exact Nat.le_succ n

theorem cells_singles (visible : ∀ b ∈ t, Visible b) : cells (singles t) = t.length := by
  induction t with
  | nil => rfl
  | cons b t ih =>
    obtain ⟨first, others⟩ := List.forall_mem_cons.mp visible
    rw [singles, List.map_cons, ← singles, cells_cons, width_visible first, ih others,
      List.length_cons, Nat.add_comm]

theorem cells_gather_visible (visible : Visible b) (c : Bytes) (w : Walk) :
    cells (gather c w (units [b])) ≤ width c + 1 := by
  change cells (gather c w [.unit .other [b]]) ≤ width c + 1
  rw [gather]
  split
  · exact width_append_visible visible c
  · change cells [c, [b]] ≤ width c + 1
    rw [cells_cons, cells_cons, width_visible visible]
    exact Nat.le_refl _

end Cluster

theorem cellWidth_visible (visible : ∀ b ∈ t, Visible b) : cellWidth t = t.length := by
  rw [cellWidth_eq, ofBytes, pieces_units visible]
  cases t with
  | nil => rfl
  | cons b t =>
    change cells (gather [b] (.start .other) (units t)) = _
    rw [gather_units (by decide)]
    exact cells_singles visible

/-! ## Texts that are cut -/

theorem takeCells_eq {limit : Int} (room : 0 ≤ limit) (clusters : List Bytes) :
    ∃ kept rest, clusters = kept ++ rest ∧ takeCells limit clusters = kept.flatten ∧
      (cells kept : Int) ≤ limit := by
  induction clusters generalizing limit with
  | nil => exact ⟨[], [], rfl, rfl, room⟩
  | cons c clusters ih =>
    rw [takeCells]
    by_cases beyond : limit < width c
    · rw [if_pos beyond]
      exact ⟨[], c :: clusters, rfl, rfl, room⟩
    · rw [if_neg beyond]
      have left : 0 ≤ limit - width c := by omega
      obtain ⟨kept, rest, rfl, taken, few⟩ := ih left
      refine ⟨c :: kept, rest, rfl, by rw [taken]; rfl, ?_⟩
      rw [cells_cons]
      omega

theorem visible_spaces (n : Nat) : ∀ b ∈ List.replicate n 32, Visible b := by
  intro b member
  rw [List.eq_of_mem_replicate member]
  decide

/-- First clusters of a text are clusters again with visible ASCII behind them, but for the last,
which may be joined by the first sign. -/
theorem ofBytes_kept {closed rest : List Bytes} (clusters : ofBytes bs = closed ++ c :: rest)
    (more : rest ≠ []) :
    ∃ w, ∀ t, (∀ b ∈ t, Visible b) → 3 ≤ t.length →
      ofBytes ((closed ++ [c]).flatten ++ t) = closed ++ gather c w (units t) := by
  have two : 2 ≤ (ofBytes bs).length := by
    have rest_pos := List.length_pos_iff.mpr more
    rw [clusters, List.length_append, List.length_cons]
    omega
  cases read : pieces bs with
  | nil =>
    rw [ofBytes, read] at two
    cases two
  | cons p ps =>
    cases p with
    | cutOff raw =>
      rw [ofBytes, read] at two
      exact absurd two (by simp)
    | unit k raw =>
      rw [ofBytes, read] at clusters
      obtain ⟨us, vs, w, rfl, whole, walked⟩ := exists_walk clusters more
      refine ⟨w, fun t visible long => ?_⟩
      have kept := flatten_walk whole raw (.start k)
      rw [walked] at kept
      have text : (closed ++ [c]).flatten = raws (.unit k raw :: us) := by
        rw [List.flatten_append, List.flatten_singleton]
        exact kept
      have parts : pieces bs = (.unit k raw :: us) ++ vs := read
      have again := pieces_append parts (List.forall_mem_cons.mpr ⟨trivial, whole⟩)
        (opens_visible visible) (.inl long)
      rw [pieces_units visible] at again
      rw [text, ofBytes, again]
      exact (gather_append whole raw (.start k) (units t)).trans (by rw [walked])

/-- First clusters of a text take the cells they took, and so do the signs behind them, but for the
first, which may join the last cluster. -/
theorem cellWidth_kept {kept rest : List Bytes} (clusters : ofBytes bs = kept ++ rest)
    (more : rest ≠ []) (visible : ∀ b ∈ t, Visible b) (long : 3 ≤ t.length) :
    ∃ joined, joined ≤ cells kept + 1 ∧
      ∀ n, cellWidth (kept.flatten ++ t ++ List.replicate n 32) = joined + (t.length - 1) + n := by
  have all (n : Nat) : ∀ b ∈ t ++ List.replicate n 32, Visible b :=
    List.forall_mem_append.mpr ⟨visible, visible_spaces n⟩
  rcases List.eq_nil_or_concat kept with rfl | ⟨closed, c, rfl⟩
  · refine ⟨1, Nat.le_refl 1, fun n => ?_⟩
    rw [List.flatten_nil, List.nil_append, cellWidth_visible (all n), List.length_append,
      List.length_replicate]
    omega
  · rw [List.concat_eq_append, List.append_assoc] at clusters
    obtain ⟨w, again⟩ := ofBytes_kept clusters more
    cases t with
    | nil => cases long
    | cons b t =>
      obtain ⟨first, others⟩ := List.forall_mem_cons.mp visible
      refine ⟨cells closed + cells (gather c w (units [b])), ?_, fun n => ?_⟩
      · have one := cells_gather_visible first c w
        rw [List.concat_eq_append, cells_append, cells_cons]
        omega
      · have others' : ∀ b ∈ t ++ List.replicate n 32, Visible b :=
          List.forall_mem_append.mpr ⟨others, visible_spaces n⟩
        have text := again _ (all n) (by rw [List.length_append]; omega)
        rw [List.concat_eq_append, List.append_assoc, cellWidth_eq, text, cells_append,
          List.cons_append, gather_units_cons, cells_append, cells_singles others', List.length_append,
          List.length_replicate, List.length_cons]
        omega

/-- A text that is too wide is cut to the given cells, with three dots that are counted; and spaces
behind it take one cell each. -/
theorem truncateCells_dots {limit : Nat} (room : 3 ≤ limit) (wide : limit < cellWidth bs) :
    cellWidth (truncateCells bs limit (text "...")) ≤ limit ∧
      Fills (truncateCells bs limit (text "...")) := by
  have visible : ∀ b ∈ text "...", Visible b := List.all_iff_forall_prop.mp (by decide)
  have dots : cellWidth (text "...") = 3 := cellWidth_visible visible
  have left : 0 ≤ (limit : Int) - 3 := by omega
  obtain ⟨kept, rest, clusters, taken, few⟩ := takeCells_eq left (ofBytes bs)
  have more : rest ≠ [] := by
    rintro rfl
    rw [List.append_nil] at clusters
    rw [cellWidth_eq, clusters] at wide
    omega
  have cut : truncateCells bs limit (text "...") = kept.flatten ++ text "..." := by
    rw [truncateCells, if_neg (by omega), dots]
    exact congrArg (· ++ text "...") taken
  obtain ⟨joined, most, filled⟩ := cellWidth_kept clusters more visible (by decide)
  have bare : cellWidth (kept.flatten ++ text "...") = joined + 2 := by
    have none := filled 0
    rwa [List.replicate_zero, List.append_nil] at none
  rw [cut]
  refine ⟨?_, fun n => ?_⟩
  · rw [bare]
    omega
  · rw [filled, bare]
    rfl

/-! ## Texts that are filled up -/

theorem fills_visible (visible : ∀ b ∈ t, Visible b) : Fills t := by
  intro n
  have all : ∀ b ∈ t ++ List.replicate n 32, Visible b :=
    List.forall_mem_append.mpr ⟨visible, visible_spaces n⟩
  rw [cellWidth_visible all, cellWidth_visible visible, List.length_append, List.length_replicate]

/-- Spaces behind a text count if it ends in a whole character, and that is no mark that belongs to
what comes next. -/
theorem fills_of_pieces {k : ClusterClass} {raw : Bytes} {us : List Piece}
    (read : pieces bs = .unit k raw :: us) (whole : ∀ p ∈ us, p.Whole)
    (last : (walk raw (.start k) us).2.2.last ≠ .prepend) : Fills bs := by
  have all : ∀ p ∈ Piece.unit k raw :: us, p.Whole := List.forall_mem_cons.mpr ⟨trivial, whole⟩
  have filled (n : Nat) : ofBytes (bs ++ List.replicate n 32) =
      (walk raw (.start k) us).1 ++ (walk raw (.start k) us).2.1 ::
        singles (List.replicate n 32) := by
    have parts : pieces bs = (.unit k raw :: us) ++ [] := by rw [read, List.append_nil]
    have again := pieces_append parts all (opens_visible (visible_spaces n)) (.inr rfl)
    rw [← read, raws_pieces, pieces_units (visible_spaces n), read] at again
    rw [ofBytes, again, ← gather_units last]
    exact gather_append whole raw (.start k) (units (List.replicate n 32))
  have bare := filled 0
  rw [List.replicate_zero, List.append_nil] at bare
  intro n
  rw [cellWidth_eq, filled, cellWidth_eq, bare, cells_append, cells_append, cells_cons, cells_cons,
    cells_singles (visible_spaces n), List.length_replicate]
  exact (Nat.add_assoc _ _ _).symm

end UnionAtlas
