import Spreadsheet.Proofs.Evaluation.Errors
import Spreadsheet.Proofs.Evaluation.Tables
import Spreadsheet.Proofs.Grids

/-!
What is read of an area of a sheet: a block of cells at its upper left end. A reference to one cell
is read as a block too, since cells from JSON hold no arrays.
-/

namespace Spreadsheet

namespace Query

variable {source : Source}

theorem run_readCell (ref : CellRef) : ((readCell ref).run source).1 = source.cell ref := by
  rw [readCell, run]
  cases source.cell ref <;> rfl

theorem run_readRange (ref : RangeRef) :
    ((readRange ref).run source).1 = (source.range ref).map padRows := by
  rw [readRange, run]
  cases source.range ref <;> rfl

end Query

theorem padRows_table {f : Nat → Nat → Value} (hh : 0 < h) (hw : 0 < w) :
    padRows (table h w f) = table h w f := by
  have hfull : (Value.array (table h w f)).Full := full_table hh hw
  have hwidth : width (table h w f) = w :=
    hfull.sameLength.width_eq.trans (length_headD_table hh)
  have hne : (table h w f).isEmpty = false := by
    rw [List.isEmpty_eq_false_iff, ← List.length_pos_iff, length_table]
    exact hh
  rw [padRows, hne, if_neg Bool.false_ne_true, hwidth]
  conv_rhs => rw [← List.map_id (table h w f)]
  apply List.map_congr_left
  intro row hrow
  have hlength : row.length = w :=
    (hfull.sameLength.length_eq hrow).trans (length_headD_table hh)
  rw [hlength, Nat.max_eq_right hw, Nat.sub_self]
  exact List.append_nil row

namespace Grid

/-- How many rows or columns are read of a range along one axis, where `stop` is the last with
data. -/
def kept (first last edge stop : Nat) : Nat := clip first last edge stop + 1 - first

/-- Whether the row or column at an offset is read of a range along one axis: all of them unless the
range goes to the edge of the sheet, and else the first and those up to the last with data. -/
def isRead (first last edge stop offset : Nat) : Bool :=
  last != edge || offset == 0 || first + offset ≤ stop

/-! ### Axes -/

section

variable {first last edge stop k : Nat}

theorem kept_pos (hle : first ≤ last) : 0 < kept first last edge stop := by
  unfold kept clip
  split <;> omega

theorem kept_le (hle : first ≤ last) (hstop : stop ≤ edge) :
    kept first last edge stop ≤ last - first + 1 := by
  unfold kept clip
  split <;> omega

theorem lt_kept_iff (hle : first ≤ last) (hk : k < last - first + 1) :
    k < kept first last edge stop ↔ isRead first last edge stop k = true := by
  unfold kept clip isRead
  simp only [Bool.or_eq_true, bne_iff_ne, beq_iff_eq, decide_eq_true_eq]
  split <;> omega

theorem kept_self (hstop : stop ≤ edge) : kept first first edge stop = 1 := by
  unfold kept clip
  split <;> omega

/-- What is not read of an axis is behind the data. -/
theorem of_not_isRead (h : isRead first last edge stop k = false) :
    last = edge ∧ stop < first + k := by
  simp only [isRead, Bool.or_eq_false_iff, bne_eq_false_iff_eq, decide_eq_false_iff_not] at h
  exact ⟨h.1.1, Nat.not_le.1 h.2⟩

/-! An axis of `n` rows or columns behind the first one, cut off at the edge of the sheet. -/

theorem add_le_of_lt_kept (hfirst : first ≤ edge) (hstop : stop ≤ edge)
    (hk : k < kept first (min (first + n) edge) edge stop) : first + k ≤ edge := by
  unfold kept clip at hk
  split at hk <;> omega

theorem beyond_of_kept_le (hfirst : first ≤ edge) (hk : k ≤ n)
    (h : kept first (min (first + n) edge) edge stop ≤ k) :
    edge < first + k ∨ stop < first + k := by
  unfold kept clip at h
  split at h <;> omega

end

/-! ### Cells from JSON -/

section

variable {g : Grid} {data : List (List Value)}

/-- No cell of the grid holds an array. -/
def Scalar (g : Grid) : Prop :=
  ∀ sheet ∈ g.sheets, ∀ row ∈ sheet.2, ∀ v ∈ row, v.isArray = false

theorem cellOf?_isArray {cell : Json} {v : Value} (h : cellOf? cell = some v) :
    v.isArray = false := by
  cases cell with
  | null | boolean | number =>
    cases h
    rfl
  | text s =>
    rw [cellOf?] at h
    split at h <;> cases h <;> rfl
  | array | object => cases h

theorem isArray_of_rowOf {json : Json} (h : rowOf sheet i json = .ok row) :
    ∀ v ∈ row, v.isArray = false := by
  cases json with
  | array cells =>
    refine forall_of_mapM_eq_ok (p := fun v => v.isArray = false) h fun cell v hv => ?_
    split at hv
    · next hcell =>
      cases hv
      exact cellOf?_isArray hcell
    · cases hv
  | _ => cases h

theorem isArray_of_rowsOf {json : Json} (h : rowsOf sheet json = .ok data) :
    ∀ row ∈ data, ∀ v ∈ row, v.isArray = false := by
  cases json with
  | array cells => exact forall_of_mapM_eq_ok h fun _ _ => isArray_of_rowOf
  | _ => cases h

theorem scalar_of_ofJson {json : Json} (h : ofJson json = .ok g) : g.Scalar := by
  cases json with
  | object fields =>
    obtain ⟨sheets, hsheets, h⟩ := bind_eq_ok.1 h
    cases h
    let p (sheet : String × List (List Value)) : Prop :=
      ∀ row ∈ sheet.2, ∀ v ∈ row, v.isArray = false
    refine forall_of_mapM_eq_ok (p := p) hsheets fun field sheet hsheet => ?_
    obtain ⟨rows, hrows, hsheet⟩ := bind_eq_ok.1 hsheet
    cases hsheet
    exact isArray_of_rowsOf hrows
  | _ => cases h

theorem Scalar.valueAt_isArray (hg : g.Scalar) (hdata : g.rows sheet = .ok data) (row col : Nat) :
    (valueAt data row col).isArray = false := by
  rcases valueAt_eq_empty_or_mem data row col with h | ⟨cells, hcells, hv⟩
  · rw [h]
    rfl
  · rcases mem_sheets_or_nil hdata with ⟨name, hname⟩ | rfl
    · exact hg _ hname cells hcells _ hv
    · cases hcells

/-! ### Blocks -/

theorem valuesIn_eq_table (data : List (List Value)) (row col h w : Nat) :
    valuesIn data row col h w = table h w fun i j => valueAt data (row + i) (col + j) := by
  simp only [valuesIn, table, List.range'_eq_map_range, List.map_map, Function.comp_def]

/-- Whether the cell at an offset in an area is read. -/
def covers (data : List (List Value)) (area : Range) (i j : Nat) : Bool :=
  isRead area.topLeft.row area.bottomRight.row maxRow data.length i &&
    isRead area.topLeft.col area.bottomRight.col maxCol (width data) j

theorem covers_iff {area : Range} (hi : i < area.rowCount) (hj : j < area.colCount) :
    covers data area i j = true ↔
      i < kept area.topLeft.row area.bottomRight.row maxRow data.length ∧
        j < kept area.topLeft.col area.bottomRight.col maxCol (width data) := by
  rw [covers, Bool.and_eq_true_iff, lt_kept_iff area.row_le hi, lt_kept_iff area.col_le hj]

/-- What is read of an area of a sheet. -/
def block (data : List (List Value)) (area : Range) : List (List Value) :=
  table (kept area.topLeft.row area.bottomRight.row maxRow data.length)
    (kept area.topLeft.col area.bottomRight.col maxCol (width data))
    fun i j => valueAt data (area.topLeft.row + i) (area.topLeft.col + j)

theorem readRange_eq_block (g : Grid) (ref : RangeRef) :
    g.readRange ref = (g.rows ref.sheet).map fun data => block data ref.range := by
  rw [readRange]
  cases g.rows ref.sheet with
  | error message => rfl
  | ok data => exact congrArg Except.ok (valuesIn_eq_table ..)

theorem run_readRange (g : Grid) (ref : RangeRef) :
    ((Query.readRange ref).run g.source).1 =
      (g.rows ref.sheet).map fun data => block data ref.range := by
  have hrange : g.source.range ref = _ := readRange_eq_block g ref
  rw [Query.run_readRange, hrange]
  cases g.rows ref.sheet with
  | error message => rfl
  | ok data =>
    exact congrArg Except.ok (padRows_table (kept_pos ref.range.row_le) (kept_pos ref.range.col_le))

/-- Reading a reference with an area delivers what is read of the area, also if that is one cell. -/
theorem run_read {r : Reference} {area : Range} (hg : g.Scalar) (hfits : g.Fits)
    (harea : r.area? = some area) :
    (r.read.run g.source).1.map Value.toRows =
      (g.rows r.sheet?).map fun data => block data area := by
  cases r with
  | cell ref =>
    cases harea
    have hcell : g.source.cell ref = _ := readCell_eq g ref.sheet ref.address
    rw [Reference.read, Query.run_readCell, hcell, Reference.sheet?]
    cases hdata : g.rows ref.sheet with
    | error message => rfl
    | ok data =>
      obtain ⟨hheight, hwidth⟩ := hfits.bounds hdata
      have hblock : block data (.single ref.address) =
          [[valueAt data ref.address.row ref.address.col]] := by
        rw [block, Range.single, kept_self hheight, kept_self hwidth]
        rfl
      change Except.ok (valueAt data ref.address.row ref.address.col).toRows = Except.ok (block ..)
      rw [hblock, Value.toRows_of_not_array (hg.valueAt_isArray hdata _ _)]
  | range ref =>
    cases harea
    rw [Reference.read, Query.run_map, run_readRange, Reference.sheet?]
    cases g.rows ref.sheet <;> rfl
  | union parts => cases harea

end

end Grid

end Spreadsheet
