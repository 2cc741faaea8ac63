import Spreadsheet.Number.Matrix
import Spreadsheet.Proofs.Evaluation.Pointwise

/-!
Tables: rows whose elements are told by their places. Rows of one length are a table, and
transposing a table exchanges the two indices of its elements.
-/

namespace Spreadsheet

variable {f g : Nat → Nat → α} {h w i j : Nat}

theorem length_table : (table h w f).length = h := by simp [table]

theorem getElem?_table (hi : i < h) : (table h w f)[i]? = some ((List.range w).map (f i)) := by
  rw [table, List.getElem?_map, List.getElem?_range hi]
  rfl

theorem headD_table (hh : 0 < h) : (table h w f).headD [] = (List.range w).map (f 0) := by
  rw [List.headD_eq_head?_getD, List.head?_eq_getElem?, getElem?_table hh]
  rfl

theorem length_headD_table (hh : 0 < h) : ((table h w f).headD []).length = w := by
  rw [headD_table hh, List.length_map, List.length_range]

theorem map_table (g : α → β) :
    (table h w f).map (fun row => row.map g) = table h w fun i j => g (f i j) := by
  simp [table, Function.comp_def]

/-- The column of a table. -/
theorem filterMap_table (g : α → β) (hj : j < w) :
    (table h w f).filterMap (fun row => row[j]?.map g) = (List.range h).map fun i => g (f i j) := by
  rw [table, List.filterMap_map, ← List.filterMap_eq_map]
  apply List.filterMap_congr
  intro i _
  simp [hj]

theorem transpose_table (hh : 0 < h) :
    Number.transpose (table h w f) = table w h fun j i => f i j := by
  rw [Number.transpose, length_headD_table hh]
  apply List.map_congr_left
  intro j hj
  have hcolumn := filterMap_table (f := f) (h := h) id (List.mem_range.1 hj)
  simpa using hcolumn

theorem map_getD_range (fill : α) (xs : List α) :
    ((List.range xs.length).map fun i => xs[i]?.getD fill) = xs := by
  apply List.ext_getElem (by simp)
  intro i hi hi'
  simp [hi']

theorem row_eq_table (fill : α) (xs : List α) :
    [xs] = table 1 xs.length fun _ j => xs[j]?.getD fill :=
  congrArg (fun row => [row]) (map_getD_range fill xs).symm

theorem column_eq_table (fill : α) (xs : List α) :
    xs.map (fun x => [x]) = table xs.length 1 fun i _ => xs[i]?.getD fill := by
  calc xs.map (fun x => [x])
      = ((List.range xs.length).map fun i => xs[i]?.getD fill).map fun x => [x] := by
        rw [map_getD_range]
    _ = table xs.length 1 fun i _ => xs[i]?.getD fill := List.map_map

/-- Rows of one length are a table. -/
theorem SameLength.exists_table {rows : List (List α)} (hrows : SameLength rows)
    (hw : 0 < (rows.headD []).length) :
    ∃ f, rows = table rows.length (rows.headD []).length f := by
  obtain ⟨fill⟩ : Nonempty α := ⟨(rows.headD [])[0]⟩
  refine ⟨fun i j => ((rows[i]?.getD [])[j]?).getD fill, ?_⟩
  apply List.ext_getElem?
  intro i
  by_cases hi : i < rows.length
  · have hlength := hrows.length_eq (List.getElem_mem hi)
    rw [getElem?_table hi, List.getElem?_eq_getElem hi]
    congr 1
    apply List.ext_getElem (by simpa using hlength)
    intro j hj _
    simp [hj]
  · rw [List.getElem?_eq_none (Nat.le_of_not_lt hi),
      List.getElem?_eq_none (by rw [length_table]; exact Nat.le_of_not_lt hi)]

theorem full_table {f : Nat → Nat → Value} (hh : 0 < h) (hw : 0 < w) :
    (Value.array (table h w f)).Full where
  sameLength := by
    apply SameLength.of_length
    intro row hrow
    obtain ⟨i, -, rfl⟩ := List.mem_map.1 hrow
    rw [List.length_map, List.length_range]
  nonempty := Nat.lt_of_lt_of_eq hw (length_headD_table hh).symm

/-! ### Elements -/

namespace Lookup

variable {f : Nat → Nat → Value}

theorem element_table (hi : i < h) (hj : j < w) :
    element (table h w f) (i + 1) (j + 1) = f i j := by
  rw [element, getElem?_table hi]
  simp [hj]

theorem element_row (hi : i < h) :
    element (table h w f) (i + 1) 0 = .array (table 1 w fun _ => f i) := by
  rw [element, getElem?_table hi]
  rfl

theorem element_column (hj : j < w) :
    element (table h w f) 0 (j + 1) = .array (table h 1 fun i _ => f i j) := by
  rw [element, column, filterMap_table (fun v => [v]) hj]
  rfl

end Lookup

end Spreadsheet
