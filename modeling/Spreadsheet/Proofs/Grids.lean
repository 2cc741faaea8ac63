import Spreadsheet.Grid
import Spreadsheet.Proofs.Evaluation.Pointwise
import Spreadsheet.Proofs.Ranges

/-!
The two ways to read a grid. A range delivers what its cells deliver one by one; cells behind the
data may be left away at its lower and right end, and they are blank.
-/

namespace Spreadsheet.Grid

variable {g : Grid} {r : RangeRef} {data values : List (List Value)}
  {row col height length lastRow lastCol : Nat}

/-- No sheet of the grid has cells that no address names. -/
def Fits (g : Grid) : Prop :=
  ∀ sheet ∈ g.sheets, sheet.2.length ≤ maxRow ∧ ∀ cells ∈ sheet.2, cells.length ≤ maxCol

theorem mem_sheets_or_nil (h : g.rows sheet = .ok data) :
    (∃ name, (name, data) ∈ g.sheets) ∨ data = [] := by
  rw [rows] at h
  split at h
  · next hfound =>
    cases h
    obtain ⟨before, behind, hsheets, -⟩ := List.lookup_eq_some_iff.1 hfound
    exact .inl ⟨_, hsheets ▸ List.mem_append_right before List.mem_cons_self⟩
  · split at h
    · cases h
      exact .inr rfl
    · cases h

theorem Fits.bounds (hg : g.Fits) (h : g.rows sheet = .ok data) :
    data.length ≤ maxRow ∧ width data ≤ maxCol := by
  rcases mem_sheets_or_nil h with ⟨name, hname⟩ | rfl
  · obtain ⟨hlength, hwidth⟩ := hg _ hname
    exact ⟨hlength, width_le hwidth⟩
  · exact ⟨Nat.zero_le _, Nat.zero_le _⟩

/-! ### Cells -/

theorem valueAt_of_length_lt (h : data.length < row) : valueAt data row col = .empty := by
  cases row with
  | zero => rfl
  | succ i =>
    cases col with
    | zero => rfl
    | succ j =>
      rw [valueAt, List.getElem?_eq_none (Nat.le_of_lt_succ h)]
      rfl

theorem valueAt_of_width_lt (h : width data < col) : valueAt data row col = .empty := by
  cases row with
  | zero => rfl
  | succ i =>
    cases col with
    | zero => rfl
    | succ j =>
      rw [valueAt]
      cases hcells : data[i]? with
      | none => rfl
      | some cells =>
        have hle := length_le_width (List.mem_of_getElem? hcells)
        rw [Option.getD_some, List.getElem?_eq_none (hle.trans (Nat.le_of_lt_succ h))]
        rfl

theorem valueAt_eq_empty_or_mem (data : List (List Value)) (row col : Nat) :
    valueAt data row col = .empty ∨ ∃ cells ∈ data, valueAt data row col ∈ cells := by
  unfold valueAt
  split
  · next i j =>
    cases hcells : data[i]? with
    | none => exact .inl rfl
    | some cells =>
      rw [Option.getD_some]
      cases hv : cells[j]? with
      | none => exact .inl rfl
      | some v => exact .inr ⟨cells, List.mem_of_getElem? hcells, List.mem_of_getElem? hv⟩
  · exact .inl rfl

theorem readCell_eq (g : Grid) (sheet : Option String) (a : Address) :
    g.readCell ⟨sheet, a⟩ = (g.rows sheet).map fun data => valueAt data a.row a.col := by
  rw [readCell]
  cases g.rows sheet <;> rfl

/-! ### Ranges -/

theorem length_valuesIn : (valuesIn data row col height length).length = height := by
  rw [valuesIn, List.length_map, List.length_range']

theorem length_of_mem_valuesIn (h : cells ∈ valuesIn data row col height length) :
    cells.length = length := by
  obtain ⟨i, -, rfl⟩ := List.mem_map.1 h
  rw [List.length_map, List.length_range']

theorem getElem?_valuesIn (hi : i < height) (hj : j < length) :
    ((valuesIn data row col height length)[i]?.getD [])[j]? =
      some (valueAt data (row + i) (col + j)) := by
  rw [valuesIn, List.getElem?_map, List.getElem?_range' hi, Option.map_some, Option.getD_some,
    List.getElem?_map, List.getElem?_range' hj, Option.map_some, Nat.one_mul, Nat.one_mul]

/-- What is kept of an axis that goes from `first` to `last`: something, and of what the data fill,
up to `stop`, everything. -/
structure Keeps (first last stop kept : Nat) : Prop where
  first_le : first ≤ kept
  le_last : kept ≤ last
  behind : ∀ i ≤ last, kept < i → stop < i

theorem keeps_clip (hle : first ≤ last) (hstop : stop ≤ edge) :
    Keeps first last stop (clip first last edge stop) := by
  rw [clip]
  by_cases h : last = edge
  · rw [if_pos h]
    exact ⟨Nat.le_max_right _ _, by omega, fun i _ hi => (Nat.le_max_left _ _).trans_lt hi⟩
  · rw [if_neg h]
    exact ⟨hle, Nat.le_refl _, fun i hi hlt => absurd hi (Nat.not_le.2 hlt)⟩

/-- The values delivered of a range make a rectangle at its upper left end. They are those of its
cells, and its other cells are blank. -/
structure Delivers (g : Grid) (r : RangeRef) (values : List (List Value)) (height length : Nat) :
    Prop where
  height_pos : 0 < height
  length_pos : 0 < length
  length_eq : values.length = height
  length_of_mem : ∀ cells ∈ values, cells.length = length
  height_le : height ≤ r.range.rowCount
  length_le : length ≤ r.range.colCount
  element : ∀ i < height, ∀ j < length, ∀ rowAbs colAbs, ∃ v,
    (values[i]?.getD [])[j]? = some v ∧
      g.readCell ⟨r.sheet, r.range.topLeft.row + i, r.range.topLeft.col + j, rowAbs, colAbs⟩ = .ok v
  blank : ∀ a, r.range.contains a = true →
    r.range.topLeft.row + height ≤ a.row ∨ r.range.topLeft.col + length ≤ a.col →
      g.readCell ⟨r.sheet, a⟩ = .ok .empty

theorem delivers_valuesIn (hdata : g.rows r.sheet = .ok data)
    (hrow : Keeps r.range.topLeft.row r.range.bottomRight.row data.length lastRow)
    (hcol : Keeps r.range.topLeft.col r.range.bottomRight.col (width data) lastCol) :
    g.Delivers r
      (valuesIn data r.range.topLeft.row r.range.topLeft.col (lastRow + 1 - r.range.topLeft.row)
        (lastCol + 1 - r.range.topLeft.col))
      (lastRow + 1 - r.range.topLeft.row) (lastCol + 1 - r.range.topLeft.col) := by
  obtain ⟨hfirstRow, hlastRow, hbehindRow⟩ := hrow
  obtain ⟨hfirstCol, hlastCol, hbehindCol⟩ := hcol
  have hcell (a : Address) : g.readCell ⟨r.sheet, a⟩ = .ok (valueAt data a.row a.col) := by
    rw [readCell_eq, hdata]
    rfl
  constructor
  case height_pos => omega
  case length_pos => omega
  case length_eq => exact length_valuesIn
  case length_of_mem => exact fun _ => length_of_mem_valuesIn
  case height_le =>
    rw [Range.rowCount]
    omega
  case length_le =>
    rw [Range.colCount]
    omega
  case element =>
    intro i hi j hj rowAbs colAbs
    exact ⟨_, getElem?_valuesIn hi hj, hcell _⟩
  case blank =>
    intro a ha hout
    have hmem := Range.mem_cells.1 (Range.contains_iff_mem_cells.1 ha)
    dsimp only at hmem
    rw [hcell]
    rcases hout with hout | hout
    · rw [valueAt_of_length_lt (hbehindRow a.row hmem.1.2 (by omega))]
    · rw [valueAt_of_width_lt (hbehindCol a.col hmem.2.2 (by omega))]

theorem exists_delivers (hg : g.Fits) (hdata : g.rows r.sheet = .ok data) :
    ∃ values height length, g.readRange r = .ok values ∧ g.Delivers r values height length := by
  obtain ⟨hheight, hwidth⟩ := hg.bounds hdata
  have hdelivers := delivers_valuesIn hdata (keeps_clip r.range.row_le hheight)
    (keeps_clip r.range.col_le hwidth)
  refine ⟨_, _, _, ?_, hdelivers⟩
  rw [readRange, hdata]
  rfl

/-- Reading a range fails just where reading a cell of its sheet fails, with the same message, and
delivers what its cells deliver. -/
theorem readRange_agrees (hg : g.Fits) :
    (∀ a message, g.readRange r = .error message ↔ g.readCell ⟨r.sheet, a⟩ = .error message) ∧
      ∀ values, g.readRange r = .ok values →
        ∃ height length, g.Delivers r values height length := by
  cases hdata : g.rows r.sheet with
  | error message =>
    have hread : g.readRange r = .error message := by
      rw [readRange, hdata]
      rfl
    constructor
    · intro a message'
      rw [hread, readCell_eq, hdata]
      exact ⟨fun h => congrArg _ (Except.error.inj h), fun h => congrArg _ (Except.error.inj h)⟩
    · intro values h
      rw [hread] at h
      cases h
  | ok data =>
    obtain ⟨values, height, length, hread, hdelivers⟩ := exists_delivers hg hdata
    constructor
    · intro a message
      rw [hread, readCell_eq, hdata]
      exact ⟨nofun, nofun⟩
    · intro values' h
      rw [hread] at h
      cases h
      exact ⟨height, length, hdelivers⟩

/-- A ragged sheet, of which whole columns are read. -/
theorem readRange_agrees_columns :
    let g : Grid := ⟨[("", [[.boolean true], [], [.empty, .boolean false]])]⟩
    let r : RangeRef := ⟨none, Range.ofCorners ⟨2, 1, false, false⟩ ⟨maxRow, 3, false, false⟩⟩
    g.Fits ∧ g.readRange r = .ok [[.empty, .empty, .empty], [.empty, .boolean false, .empty]] ∧
      ∃ height length, g.Delivers r [[.empty, .empty, .empty], [.empty, .boolean false, .empty]]
        height length := by
  intro g r
  have hg : g.Fits := by
    intro sheet hsheet
    rw [List.mem_singleton.1 hsheet]
    decide
  have hread : g.readRange r =
      .ok [[.empty, .empty, .empty], [.empty, .boolean false, .empty]] := rfl
  exact ⟨hg, hread, (readRange_agrees hg).2 _ hread⟩

end Spreadsheet.Grid
