import UnionAtlas.Proofs.Text.CellWidths
import UnionAtlas.Table

/-!
# Columns

Every row of a table is cut into the same columns: what stands before a column takes the same number
of terminal cells in all rows, however many cells a row has.
-/

namespace UnionAtlas
namespace Table

variable {t : Table} {ws : List Nat} {row cells : List Bytes} {cell : Bytes} {w i : Nat}

/-! ## Widths -/

/-- The columns are wide enough for a row, as far as they may be wide. -/
def Covers (ws : List Nat) (row : List Bytes) : Prop :=
  ∀ i w, ws[i]? = some w → min (cellWidth (row.getD i [])) maxWidth ≤ w

theorem getElem?_widen (ws : List Nat) (row : List Bytes) (i : Nat) :
    (widen ws row)[i]? =
      (ws[i]?).map fun w => max w (min (cellWidth (row.getD i [])) maxWidth) := by
  have empty (w : Nat) : max w (min (cellWidth []) maxWidth) = w := by
    rw [cellWidth_visible (List.forall_mem_nil _)]
    exact Nat.max_eq_left (Nat.zero_le w)
  induction ws generalizing row i with
  | nil => rfl
  | cons w ws ih =>
    cases row with
    | nil =>
      have same : (fun w => max w (min (cellWidth (([] : List Bytes).getD i [])) maxWidth)) = id :=
        funext empty
      rw [widen, same, Option.map_id_apply]
      exact nofun
    | cons c cs =>
      cases i with
      | zero => rfl
      | succ i => exact ih cs i

theorem covers_widen (ws : List Nat) (row : List Bytes) : Covers (widen ws row) row := by
  intro i w known
  rw [getElem?_widen] at known
  obtain ⟨w', -, rfl⟩ := Option.map_eq_some_iff.mp known
  exact Nat.le_max_right _ _

theorem Covers.widen (covers : Covers ws row) (other : List Bytes) : Covers (widen ws other) row := by
  intro i w known
  rw [getElem?_widen] at known
  obtain ⟨w', known', rfl⟩ := Option.map_eq_some_iff.mp known
  exact Nat.le_trans (covers i w' known') (Nat.le_max_left _ _)

theorem length_widen (ws : List Nat) (row : List Bytes) : (widen ws row).length = ws.length := by
  induction ws generalizing row with
  | nil => rfl
  | cons w ws ih =>
    cases row with
    | nil => rfl
    | cons c cs => exact congrArg (· + 1) (ih cs)

/-- What holds at first and is kept by each row holds of the widths in the end. -/
theorem foldl_widen {motive : List Nat → Prop}
    (step : ∀ ws row, motive ws → motive (widen ws row)) (rows : List (List Bytes))
    (start : motive ws) : motive (rows.foldl widen ws) := by
  induction rows generalizing ws with
  | nil => exact start
  | cons row rows ih => exact ih (step ws row start)

theorem length_widths (t : Table) : t.widths.length = t.header.length := by
  refine foldl_widen (motive := fun ws => ws.length = t.header.length) ?_ _ (List.length_map _)
  intro ws row length
  rw [length_widen, length]

theorem exists_width (inside : i < t.header.length) : ∃ w, t.widths[i]? = some w := by
  rw [← length_widths] at inside
  exact ⟨t.widths[i], List.getElem?_eq_getElem inside⟩

/-- No column is wider than the widest one may be. -/
theorem le_maxWidth (known : t.widths[i]? = some w) : w ≤ maxWidth := by
  refine foldl_widen (motive := fun ws => ∀ i w, ws[i]? = some w → w ≤ maxWidth) ?_ _ ?_ i w known
  · intro ws row bounded i w known
    rw [getElem?_widen] at known
    obtain ⟨w', known', rfl⟩ := Option.map_eq_some_iff.mp known
    exact Nat.max_le.mpr ⟨bounded i w' known', Nat.min_le_right _ _⟩
  · intro i w known
    rw [List.getElem?_map] at known
    obtain ⟨-, -, rfl⟩ := Option.map_eq_some_iff.mp known
    exact Nat.zero_le _

theorem covers_foldl (rows : List (List Bytes)) (member : row ∈ rows) :
    Covers (rows.foldl widen ws) row := by
  induction rows generalizing ws with
  | nil => cases member
  | cons first rows ih =>
    rcases List.mem_cons.mp member with rfl | later
    · exact foldl_widen (motive := (Covers · row)) (fun _ other covers => covers.widen other) rows
        (covers_widen ws row)
    · exact ih later

theorem covers_widths (member : row ∈ t.header :: t.rows) : Covers t.widths row :=
  covers_foldl _ member

/-! ## Cells -/

/-- A cell that is not too wide is shown as it is. -/
theorem fitCell_of_le (asked : min (cellWidth cell) maxWidth ≤ w)
    (narrow : cellWidth cell ≤ maxWidth) : fitCell cell w = cell := by
  rw [fitCell, if_pos]
  omega

/-- A cell that is too wide is cut to the widest column. -/
theorem fitCell_of_lt (asked : min (cellWidth cell) maxWidth ≤ w) (most : w ≤ maxWidth)
    (wide : maxWidth < cellWidth cell) :
    fitCell cell w = truncateCells cell maxWidth (text "...") := by
  obtain rfl : w = maxWidth := by omega
  rw [fitCell, if_neg (by omega), if_neg (by decide)]

theorem fitCell_eq_self_iff (asked : min (cellWidth cell) maxWidth ≤ w) (most : w ≤ maxWidth) :
    fitCell cell w = cell ↔ cellWidth cell ≤ maxWidth := by
  refine ⟨fun same => ?_, fitCell_of_le asked⟩
  by_contra wide
  rw [Nat.not_le] at wide
  have cut := (truncateCells_dots (by decide) wide).1
  rw [← fitCell_of_lt asked most wide, same] at cut
  omega

theorem cellWidth_fitCell (asked : min (cellWidth cell) maxWidth ≤ w) (most : w ≤ maxWidth) :
    cellWidth (fitCell cell w) ≤ w := by
  by_cases narrow : cellWidth cell ≤ maxWidth
  · rw [fitCell_of_le asked narrow]
    omega
  · rw [Nat.not_le] at narrow
    rw [fitCell_of_lt asked most narrow]
    have cut := (truncateCells_dots (by decide) narrow).1
    omega

theorem fills_fitCell (asked : min (cellWidth cell) maxWidth ≤ w) (most : w ≤ maxWidth)
    (fills : Fills cell) : Fills (fitCell cell w) := by
  by_cases narrow : cellWidth cell ≤ maxWidth
  · rw [fitCell_of_le asked narrow]
    exact fills
  · rw [Nat.not_le] at narrow
    rw [fitCell_of_lt asked most narrow]
    exact (truncateCells_dots (by decide) narrow).2

/-! ## Rows -/

/-- The texts of a row's columns, with the spaces up to the next column behind them. -/
def columns : List Nat → List Bytes → List Bytes
  | [], _ => []
  | [w], cells => [fitCell (cells.headD []) w]
  | w :: ws, cells =>
    (fillCells (fitCell (cells.headD []) w) w ++ text "  ") :: columns ws cells.tail

theorem columns_cons_cons (w w' : Nat) (ws : List Nat) (cells : List Bytes) :
    columns (w :: w' :: ws) cells =
      (fillCells (fitCell (cells.headD []) w) w ++ text "  ") :: columns (w' :: ws) cells.tail :=
  rfl

theorem renderRow_eq (ws : List Nat) (cells : List Bytes) :
    renderRow ws cells = (columns ws cells).flatten := by
  induction ws generalizing cells with
  | nil => rfl
  | cons w ws ih =>
    cases ws with
    | nil => exact (List.append_nil _).symm
    | cons w' ws =>
      rw [columns_cons_cons, List.flatten_cons, ← ih]
      rfl

/-- Cells beyond the columns are left out. -/
theorem columns_take {n : Nat} (enough : ws.length ≤ n) (cells : List Bytes) :
    columns ws (cells.take n) = columns ws cells := by
  induction ws generalizing n cells with
  | nil => rfl
  | cons w ws ih =>
    obtain ⟨n, rfl⟩ : ∃ m, n = m + 1 := ⟨n - 1, by rw [List.length_cons] at enough; omega⟩
    have head : (cells.take (n + 1)).headD [] = cells.headD [] := by cases cells <;> rfl
    have tail : (cells.take (n + 1)).tail = cells.tail.take n := by
      cases cells with
      | nil => rw [List.take_nil, List.tail_nil, List.take_nil]
      | cons c cells => rfl
    cases ws with
    | nil => rw [columns, columns, head]
    | cons w' ws =>
      rw [columns_cons_cons, columns_cons_cons, head, tail, ih (Nat.le_of_succ_le_succ enough)]

theorem getD_tail (cells : List Bytes) (i : Nat) : cells.tail.getD i [] = cells.getD (i + 1) [] := by
  cases cells <;> rfl

/-- A column shows its cell, as far as it fits, with nothing but spaces behind it. -/
theorem getElem?_columns (known : ws[i]? = some w) (cells : List Bytes) :
    ∃ gap, (columns ws cells)[i]? = some (fitCell (cells.getD i []) w ++ gap) ∧
      ∀ b ∈ gap, b = 32 := by
  induction ws generalizing cells i with
  | nil => cases known
  | cons w' ws ih =>
    cases i with
    | zero =>
      obtain rfl := Option.some.inj known
      have head : cells.headD [] = cells.getD 0 [] := by cases cells <;> rfl
      cases ws with
      | nil => exact ⟨[], by rw [columns, head, List.append_nil]; rfl, List.forall_mem_nil _⟩
      | cons w ws =>
        rw [columns_cons_cons, head, fillCells, List.append_assoc]
        have separator : ∀ b ∈ text "  ", b = 32 := List.all_iff_forall_prop.mp (by decide)
        refine ⟨_, rfl, List.forall_mem_append.mpr ⟨?_, separator⟩⟩
        intro b member
        exact List.eq_of_mem_replicate member
    | succ i =>
      cases ws with
      | nil => cases known
      | cons w'' ws =>
        rw [← getD_tail]
        exact ih known cells.tail

theorem cellWidth_filled (fits : cellWidth cell ≤ w) (fills : Fills cell) :
    cellWidth (fillCells cell w ++ text "  ") = w + 2 := by
  have spaces : fillCells cell w ++ text "  " =
      cell ++ List.replicate (w - cellWidth cell + 2) 32 := by
    rw [fillCells, List.append_assoc, List.replicate_add]
    rfl
  rw [spaces, fills]
  omega

/-- What stands before a column takes the cells of the columns before it, and two for each
separator. -/
theorem sum_columns {cells : List Bytes}
    (fits : ∀ (i w : Nat), ws[i]? = some w → cellWidth (fitCell (cells.getD i []) w) ≤ w ∧
      Fills (fitCell (cells.getD i []) w))
    (inside : i < ws.length) :
    (((columns ws cells).take i).map cellWidth).sum = ((ws.take i).map (· + 2)).sum := by
  induction ws generalizing cells i with
  | nil => cases inside
  | cons w ws ih =>
    cases i with
    | zero => rfl
    | succ i =>
      cases ws with
      | nil => cases Nat.lt_of_succ_lt_succ inside
      | cons w' ws =>
        have head : cells.headD [] = cells.getD 0 [] := by cases cells <;> rfl
        obtain ⟨narrow, fills⟩ := fits 0 w rfl
        have later : (((columns (w' :: ws) cells.tail).take i).map cellWidth).sum =
            (((w' :: ws).take i).map (· + 2)).sum :=
          ih (fun j w' known => by rw [getD_tail]; exact fits (j + 1) w' known)
            (Nat.lt_of_succ_lt_succ inside)
        rw [columns_cons_cons, head, List.take_succ_cons, List.map_cons, List.sum_cons,
          cellWidth_filled narrow fills, later, List.take_succ_cons, List.map_cons, List.sum_cons]

/-- Every row of a table is the texts of the same columns. No column is wider than it may be, and
none of its cells is wider than it; a cell is shown as it is exactly if it is no wider than the
widest column. Cells beyond the header are left out, and missing ones are empty. And if spaces behind
each of the row's cells take one terminal cell each, then what stands before a column takes the cells
of the columns before it and two for each separator. -/
theorem rendered_columns_align (t : Table) :
    t.render = (t.header :: t.rows).flatMap (fun row =>
      (columns t.widths row).flatten ++ text "\n") ∧
    t.widths.length = t.header.length ∧
    ∀ row ∈ t.header :: t.rows,
      columns t.widths row = columns t.widths (row.take t.header.length) ∧
      (∀ (i w : Nat) (cell : Bytes), t.widths[i]? = some w → row.getD i [] = cell →
        (∃ gap, (columns t.widths row)[i]? = some (fitCell cell w ++ gap) ∧ ∀ b ∈ gap, b = 32) ∧
        cellWidth (fitCell cell w) ≤ w ∧ w ≤ maxWidth ∧
        (fitCell cell w = cell ↔ cellWidth cell ≤ maxWidth)) ∧
      ((∀ cell ∈ row, Fills cell) → ∀ i < t.header.length,
        (((columns t.widths row).take i).map cellWidth).sum =
          ((t.widths.take i).map (· + 2)).sum) := by
  refine ⟨?_, length_widths t, fun row member => ⟨?_, ?_, ?_⟩⟩
  · exact List.flatMap_congr fun row _ => congrArg (· ++ text "\n") (renderRow_eq t.widths row)
  · exact (columns_take (Nat.le_of_eq (length_widths t)) row).symm
  · rintro i w _ known rfl
    have asked := covers_widths member i w known
    have most := le_maxWidth known
    exact ⟨getElem?_columns known row, cellWidth_fitCell asked most, most,
      fitCell_eq_self_iff asked most⟩
  · intro fills i inside
    refine sum_columns (fun i w known => ?_) ((length_widths t).symm ▸ inside)
    have asked := covers_widths member i w known
    have most := le_maxWidth known
    have filled : Fills (row.getD i []) := by
      rw [List.getD_eq_getElem?_getD]
      cases here : row[i]? with
      | none => exact fills_visible (List.forall_mem_nil _)
      | some cell => exact fills cell (List.mem_of_getElem? here)
    exact ⟨cellWidth_fitCell asked most, fills_fitCell asked most filled⟩

/-- A row with a wide character, one that is too short, and one that is too long with a cell that is
too wide. -/
theorem rendered_columns_align_ragged :
    let wide : Bytes := List.replicate 50 120
    let t : Table :=
      ⟨[text "NAME", text "N"], [[text "한", text "1"], [text "ab"], [wide, text "2", text "more"]]⟩
    (∀ row ∈ t.header :: t.rows, (∀ cell ∈ row, Fills cell) ∧
      (((columns t.widths row).take 1).map cellWidth).sum = 42) ∧
    fitCell wide 40 ≠ wide := by
  intro wide t
  have visible : ∀ b ∈ wide, Cluster.Visible b := by
    intro b member
    rw [List.eq_of_mem_replicate member]
    decide
  have too_wide : cellWidth wide = 50 := cellWidth_visible visible
  have hangul : Fills (text "한") := by
    have read : Cluster.pieces (text "한") = [.unit .closedSyllable (text "한")] := by
      have bytes : text "한" = [0xED, 0x95, 0x9C] := by decide
      have ends : Cluster.following 0xED [0x95, 0x9C] = some 2 := by decide
      have front : (Utf8.front 0xED [0x95, 0x9C]).1 = some 0xD55C := by decide
      have kind : Cluster.frontClass 0xED [0x95, 0x9C] = .closedSyllable := by
        rw [Cluster.frontClass, front]
        simp [ClusterClass.ofCode]
      rw [bytes, Cluster.pieces_of_following ends, kind, List.drop_eq_nil_of_le (by decide),
        Cluster.pieces]
      rfl
    exact fills_of_pieces read (List.forall_mem_nil _) (by decide)
  have fills : ∀ row ∈ t.header :: t.rows, ∀ cell ∈ row, Fills cell := by
    have ascii {cell : Bytes} (visible : cell.all (Cluster.Visible ·) = true) : Fills cell :=
      fills_visible (List.all_iff_forall_prop.mp visible)
    simp only [t, List.forall_mem_cons]
    refine ⟨⟨ascii (by decide), ascii (by decide), ?_⟩, ⟨hangul, ascii (by decide), ?_⟩,
      ⟨ascii (by decide), ?_⟩, ⟨fills_visible visible, ascii (by decide), ascii (by decide), ?_⟩, ?_⟩
    all_goals exact List.forall_mem_nil _
  obtain ⟨-, -, rows⟩ := rendered_columns_align t
  have last : [wide, text "2", text "more"] ∈ t.header :: t.rows :=
    .tail _ (.tail _ (.tail _ (.head _)))
  obtain ⟨w, known⟩ := exists_width (t := t) (i := 0) Nat.zero_lt_two
  obtain ⟨-, -, most, whole⟩ := (rows _ last).2.1 0 w wide known rfl
  obtain rfl : w = 40 := by
    have asked : min (cellWidth wide) maxWidth ≤ w := covers_widths last 0 w known
    rw [too_wide] at asked
    exact Nat.le_antisymm most asked
  refine ⟨fun row member => ⟨fills row member, ?_⟩, fun same => ?_⟩
  · rw [(rows row member).2.2 (fills row member) 1 Nat.one_lt_two, List.take_one,
      List.head?_eq_getElem?, known]
    rfl
  · have narrow := whole.mp same
    rw [too_wide] at narrow
    exact absurd narrow (by decide)

end Table
end UnionAtlas
