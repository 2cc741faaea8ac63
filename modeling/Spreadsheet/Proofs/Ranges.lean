import Mathlib.Data.Finset.Prod
import Mathlib.Order.Interval.Finset.Nat
import Spreadsheet.Proofs.Dependency.Readers

/-!
Ranges as sets of cells. The operations on ranges are those on their cells, and a range between two
corners keeps each coordinate with the `$` that it had.
-/

namespace Spreadsheet.Range

open Finset

/-- The cells of a range, each by its row and its column. -/
def cells (r : Range) : Finset (Nat × Nat) :=
  Icc r.topLeft.row r.bottomRight.row ×ˢ Icc r.topLeft.col r.bottomRight.col

theorem mem_cells {r : Range} {cell : Nat × Nat} :
    cell ∈ r.cells ↔
      (r.topLeft.row ≤ cell.1 ∧ cell.1 ≤ r.bottomRight.row) ∧
        r.topLeft.col ≤ cell.2 ∧ cell.2 ≤ r.bottomRight.col := by
  rw [cells, mem_product, mem_Icc, mem_Icc]

theorem contains_iff_mem_cells {r : Range} {a : Address} :
    r.contains a = true ↔ (a.row, a.col) ∈ r.cells := by
  rw [mem_cells]
  exact @contains_iff r a.row a.col

theorem topLeft_mem_cells (r : Range) : (r.topLeft.row, r.topLeft.col) ∈ r.cells :=
  mem_cells.2 ⟨⟨Nat.le_refl _, r.row_le⟩, Nat.le_refl _, r.col_le⟩

theorem bottomRight_mem_cells (r : Range) : (r.bottomRight.row, r.bottomRight.col) ∈ r.cells :=
  mem_cells.2 ⟨⟨r.row_le, Nat.le_refl _⟩, r.col_le, Nat.le_refl _⟩

/-- A range has all cells of another one if it has the corners. -/
theorem cells_subset_iff {r s : Range} :
    r.cells ⊆ s.cells ↔
      (s.topLeft.row ≤ r.topLeft.row ∧ r.bottomRight.row ≤ s.bottomRight.row) ∧
        s.topLeft.col ≤ r.topLeft.col ∧ r.bottomRight.col ≤ s.bottomRight.col := by
  constructor
  · intro h
    have htop := mem_cells.1 (h r.topLeft_mem_cells)
    have hbottom := mem_cells.1 (h r.bottomRight_mem_cells)
    exact ⟨⟨htop.1.1, hbottom.1.2⟩, htop.2.1, hbottom.2.2⟩
  · intro h cell hcell
    rw [mem_cells] at hcell ⊢
    omega

theorem card_cells (r : Range) : r.cells.card = r.cellCount := by
  have hrow := r.row_le
  have hcol := r.col_le
  rw [cells, card_product, Nat.card_Icc, Nat.card_Icc, Nat.succ_sub hrow, Nat.succ_sub hcol]
  rfl

/-! ### Ranges made of corners -/

theorem cells_ofCorners (a b : Address) :
    (ofCorners a b).cells =
      Icc (min a.row b.row) (max a.row b.row) ×ˢ Icc (min a.col b.col) (max a.col b.col) :=
  rfl

theorem cells_ofCorners_comm (a b : Address) : (ofCorners a b).cells = (ofCorners b a).cells := by
  rw [cells_ofCorners, cells_ofCorners, min_comm a.row, max_comm a.row, min_comm a.col,
    max_comm a.col]

/-- The rows of the corners are the given ones, each with its own `$`. -/
theorem rows_ofCorners (a b : Address) :
    [((ofCorners a b).topLeft.row, (ofCorners a b).topLeft.rowAbs),
      ((ofCorners a b).bottomRight.row, (ofCorners a b).bottomRight.rowAbs)].Perm
    [(a.row, a.rowAbs), (b.row, b.rowAbs)] := by
  by_cases h : a.row ≤ b.row
  · simp [ofCorners, h]
  · have hle := Nat.le_of_not_le h
    simp only [ofCorners, h, if_false, Nat.min_eq_right hle, Nat.max_eq_left hle]
    exact .swap _ _ _

theorem cols_ofCorners (a b : Address) :
    [((ofCorners a b).topLeft.col, (ofCorners a b).topLeft.colAbs),
      ((ofCorners a b).bottomRight.col, (ofCorners a b).bottomRight.colAbs)].Perm
    [(a.col, a.colAbs), (b.col, b.colAbs)] := by
  by_cases h : a.col ≤ b.col
  · simp [ofCorners, h]
  · have hle := Nat.le_of_not_le h
    simp only [ofCorners, h, if_false, Nat.min_eq_right hle, Nat.max_eq_left hle]
    exact .swap _ _ _

/-! ### Operations on two ranges -/

theorem overlaps_iff_nonempty {r s : Range} :
    r.overlaps s = true ↔ (r.cells ∩ s.cells).Nonempty := by
  rw [overlaps_iff, Meets]
  constructor
  · rintro ⟨row, col, hr, hs⟩
    exact ⟨(row, col), mem_inter.2 ⟨contains_iff_mem_cells.1 hr, contains_iff_mem_cells.1 hs⟩⟩
  · rintro ⟨⟨row, col⟩, h⟩
    obtain ⟨hr, hs⟩ := mem_inter.1 h
    exact ⟨row, col, contains_iff_mem_cells.2 hr, contains_iff_mem_cells.2 hs⟩

theorem intersect?_eq_none_iff {r s : Range} :
    r.intersect? s = none ↔ r.cells ∩ s.cells = ∅ := by
  rw [← not_nonempty_iff_eq_empty, ← overlaps_iff_nonempty, intersect?]
  by_cases h : r.overlaps s = true
  · simp [h]
  · simp [h]

theorem cells_of_intersect? {r s t : Range} (h : r.intersect? s = some t) :
    t.cells = r.cells ∩ s.cells := by
  obtain ⟨hoverlaps, ht⟩ := Option.ite_none_right_eq_some.1 h
  obtain rfl := Option.some.inj ht
  have hrow := r.row_le
  have hcol := r.col_le
  have hrow' := s.row_le
  have hcol' := s.col_le
  simp only [overlaps, Bool.and_eq_true, decide_eq_true_eq] at hoverlaps
  ext cell
  rw [mem_inter, mem_cells, mem_cells, mem_cells]
  simp only [ofIndices, ofCorners, Address.relative]
  omega

theorem bounds_corners (r s : Range) :
    ((r.bounds s).topLeft.row = min r.topLeft.row s.topLeft.row ∧
      (r.bounds s).bottomRight.row = max r.bottomRight.row s.bottomRight.row) ∧
    (r.bounds s).topLeft.col = min r.topLeft.col s.topLeft.col ∧
      (r.bounds s).bottomRight.col = max r.bottomRight.col s.bottomRight.col := by
  have hrow := r.row_le
  have hcol := r.col_le
  have hrow' := s.row_le
  have hcol' := s.col_le
  simp only [bounds, ofIndices, ofCorners, Address.relative]
  omega

theorem isLeast_cells_bounds (r s : Range) :
    IsLeast {cells | ∃ t : Range, t.cells = cells ∧ r.cells ∪ s.cells ⊆ cells}
      (r.bounds s).cells := by
  obtain ⟨⟨htop, hbottom⟩, hleft, hright⟩ := bounds_corners r s
  constructor
  · refine ⟨_, rfl, union_subset (cells_subset_iff.2 ?_) (cells_subset_iff.2 ?_)⟩
    · omega
    · omega
  · rintro _ ⟨t, rfl, h⟩
    have hr := cells_subset_iff.1 (union_subset_left h)
    have hs := cells_subset_iff.1 (union_subset_right h)
    apply cells_subset_iff.2
    omega

/-! ### Counts -/

/-- The numbers of rows, of columns and of cells fit into 32, 32 and 64 bits. -/
theorem OnSheet.counts_lt {r : Range} (h : r.OnSheet) :
    r.rowCount < 2 ^ 32 ∧ r.colCount < 2 ^ 32 ∧ r.cellCount < 2 ^ 64 := by
  have hle := r.row_le
  have hle' := r.col_le
  obtain ⟨⟨⟨hrow, -⟩, hcol, -⟩, ⟨-, hmaxRow⟩, -, hmaxCol⟩ := h
  have hrows : r.rowCount ≤ maxRow := by
    rw [rowCount]
    omega
  have hcols : r.colCount ≤ maxCol := by
    rw [colCount]
    omega
  have hcells : r.cellCount ≤ maxRow * maxCol := Nat.mul_le_mul hrows hcols
  exact ⟨hrows.trans_lt (by decide), hcols.trans_lt (by decide), hcells.trans_lt (by decide)⟩

/-- Ranges are made, compared and counted as the sets of their cells are. -/
theorem operations_on_cells (a b : Address) (r s : Range) :
    ((ofCorners a b).topLeft.row ≤ (ofCorners a b).bottomRight.row ∧
      (ofCorners a b).topLeft.col ≤ (ofCorners a b).bottomRight.col) ∧
    (ofCorners a b).cells =
      Icc (min a.row b.row) (max a.row b.row) ×ˢ Icc (min a.col b.col) (max a.col b.col) ∧
    (ofCorners a b).cells = (ofCorners b a).cells ∧
    [((ofCorners a b).topLeft.row, (ofCorners a b).topLeft.rowAbs),
      ((ofCorners a b).bottomRight.row, (ofCorners a b).bottomRight.rowAbs)].Perm
        [(a.row, a.rowAbs), (b.row, b.rowAbs)] ∧
    [((ofCorners a b).topLeft.col, (ofCorners a b).topLeft.colAbs),
      ((ofCorners a b).bottomRight.col, (ofCorners a b).bottomRight.colAbs)].Perm
        [(a.col, a.colAbs), (b.col, b.colAbs)] ∧
    (∀ c, r.contains c = true ↔ (c.row, c.col) ∈ r.cells) ∧
    (r.overlaps s = true ↔ (r.cells ∩ s.cells).Nonempty) ∧
    (r.intersect? s = none ↔ r.cells ∩ s.cells = ∅) ∧
    (∀ t, r.intersect? s = some t → t.cells = r.cells ∩ s.cells) ∧
    IsLeast {cells | ∃ t : Range, t.cells = cells ∧ r.cells ∪ s.cells ⊆ cells}
      (r.bounds s).cells ∧
    (r.cells.card = r.rowCount * r.colCount ∧ r.cellCount = r.rowCount * r.colCount) ∧
    (r.OnSheet → r.rowCount < 2 ^ 32 ∧ r.colCount < 2 ^ 32 ∧ r.cellCount < 2 ^ 64) :=
  ⟨⟨(ofCorners a b).row_le, (ofCorners a b).col_le⟩, cells_ofCorners a b, cells_ofCorners_comm a b,
    rows_ofCorners a b, cols_ofCorners a b, fun _ => contains_iff_mem_cells,
    overlaps_iff_nonempty, intersect?_eq_none_iff, fun _ => cells_of_intersect?,
    isLeast_cells_bounds r s, ⟨r.card_cells, rfl⟩, OnSheet.counts_lt⟩

theorem operations_on_cells_columns :
    (columns 1 3).OnSheet ∧
      (columns 1 3).intersect? (rows 2 5) = some (ofIndices 2 1 5 3) ∧
      (ofIndices 2 1 5 3).cells = (columns 1 3).cells ∩ (rows 2 5).cells ∧
      (columns 1 3).rowCount < 2 ^ 32 ∧ (columns 1 3).colCount < 2 ^ 32 ∧
      (columns 1 3).cellCount < 2 ^ 64 := by
  have hsheet : (columns 1 3).OnSheet := ⟨by decide, by decide⟩
  have hshared : (columns 1 3).intersect? (rows 2 5) = some (ofIndices 2 1 5 3) := by decide
  obtain ⟨-, -, -, -, -, -, -, -, hcells, -, -, hcounts⟩ :=
    operations_on_cells (.relative 1 1) (.relative 1 1) (columns 1 3) (rows 2 5)
  exact ⟨hsheet, hshared, hcells _ hshared, hcounts hsheet⟩

end Spreadsheet.Range
