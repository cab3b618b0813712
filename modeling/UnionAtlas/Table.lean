import UnionAtlas.Text.Cluster

/-!
# Tables

Columns of texts, aligned in terminal cells. A column is as wide as its widest cell, but at most
forty cells; a longer cell is cut, and dots show it where there is room for them.
-/

namespace UnionAtlas

/-- A table: its column headings and its rows. -/
structure Table where
  header : List Bytes
  rows : List (List Bytes)
  deriving Repr, DecidableEq

namespace Table

/-- The widest column. -/
def maxWidth : Nat := 40

/-- A text that fits into a number of cells. -/
def fitCell (bs : Bytes) (width : Int) : Bytes :=
  if (cellWidth bs : Int) ≤ width then bs
  else truncateCells bs width (if width ≤ 3 then [] else text "...")

/-- The widths that a row asks for, where they are more than those given. -/
def widen : List Nat → List Bytes → List Nat
  | w :: ws, c :: cs => max w (min (cellWidth c) maxWidth) :: widen ws cs
  | ws, _ => ws

/-- The widths of the columns. -/
def widths (t : Table) : List Nat :=
  (t.header :: t.rows).foldl widen (t.header.map fun _ => 0)

/-- A row in columns of the given widths. Cells beyond the columns are left out, missing ones are
empty, and the last column is not filled up. -/
def renderRow : List Nat → List Bytes → Bytes
  | [], _ => []
  | [w], cells => fitCell (cells.headD []) w
  | w :: ws, cells =>
    fillCells (fitCell (cells.headD []) w) w ++ text "  " ++ renderRow ws cells.tail

/-- The table as lines. -/
def render (t : Table) : Bytes :=
  (t.header :: t.rows).flatMap fun row => renderRow t.widths row ++ text "\n"

end Table
end UnionAtlas
