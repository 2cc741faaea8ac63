import Spreadsheet.Proofs.Evaluation.Rectangular

/-!
Operators on arrays place by place. A single row or column is repeated, a value that is no array
counts as an array of one element, and what lies outside an operand counts as `#N/A`.
-/

namespace Spreadsheet

/-- The rows with the given elements. -/
def table (height width : Nat) (element : Nat → Nat → α) : List (List α) :=
  (List.range height).map fun i => (List.range width).map (element i)

/-- What a list has beside a place: an only element stands in all places, and `fill` where there is
none. -/
def nth (fill : α) (xs : List α) (i : Nat) : α := xs[if xs.length = 1 then 0 else i]?.getD fill

theorem map_nth (fill : α) (xs : List α) : (List.range xs.length).map (nth fill xs) = xs := by
  apply List.ext_getElem?
  intro i
  by_cases hi : i < xs.length
  · have hplace : (if xs.length = 1 then 0 else i) = i := by split <;> omega
    rw [List.getElem?_map, List.getElem?_range hi, Option.map_some, nth, hplace,
      List.getElem?_eq_getElem hi, Option.getD_some]
  · rw [List.getElem?_eq_none (by simpa using hi), List.getElem?_eq_none (by simpa using hi)]

theorem map_range_nth {g : α → β} (fill : α) (xs : List α) :
    ((List.range xs.length).map fun i => g (nth fill xs i)) = xs.map g := by
  rw [← Function.comp_def, ← List.map_map, map_nth]

theorem width_le {rows : List (List α)} (h : ∀ row ∈ rows, row.length ≤ n) : width rows ≤ n := by
  have hfold (m : Nat) (hm : m ≤ n) (rows : List (List α)) (h : ∀ row ∈ rows, row.length ≤ n) :
      rows.foldl (fun n row => max n row.length) m ≤ n := by
    induction rows generalizing m with
    | nil => exact hm
    | cons row rows ih =>
      obtain ⟨hrow, hrows⟩ := List.forall_mem_cons.1 h
      exact ih (max m row.length) (Nat.max_le.2 ⟨hm, hrow⟩) hrows
  exact hfold 0 (Nat.zero_le n) rows h

theorem SameLength.width_eq {rows : List (List α)} (h : SameLength rows) :
    width rows = (rows.headD []).length := by
  apply Nat.le_antisymm
  · exact width_le fun row hrow => Nat.le_of_eq (h.length_eq hrow)
  · cases rows with
    | nil => exact Nat.zero_le _
    | cons row rows => exact length_le_width List.mem_cons_self

theorem length_nth_le (rows : List (List α)) (i : Nat) : (nth [] rows i).length ≤ width rows := by
  unfold nth
  cases hrow : rows[if rows.length = 1 then 0 else i]? with
  | none => exact Nat.zero_le _
  | some row => exact length_le_width (List.mem_of_getElem? hrow)

namespace Value

def isArray : Value → Bool
  | array _ => true
  | _ => false

def rowCount (v : Value) : Nat := v.toRows.length

def colCount (v : Value) : Nat := (v.toRows.headD []).length

/-- The element of a value beside a place: an only row and an only column stand everywhere, and
outside of the value there is `#N/A`. -/
def beside (v : Value) (i j : Nat) : Value :=
  let row := v.toRows[if v.rowCount = 1 then 0 else i]?
  (row.bind fun row => row[if v.colCount = 1 then 0 else j]?).getD (.error .notAvailable)

/-- A value that is no array, or a rectangular array of at least one row and one column. -/
structure Full (v : Value) : Prop where
  sameLength : SameLength v.toRows
  nonempty : 0 < v.colCount

theorem toRows_of_not_array {v : Value} (h : v.isArray = false) : v.toRows = [[v]] := by
  cases v with
  | array rows => cases h
  | _ => rfl

theorem exists_of_isArray {v : Value} (h : v.isArray = true) : ∃ rows, v = .array rows := by
  cases v with
  | array rows => exact ⟨rows, rfl⟩
  | _ => cases h

theorem rowCount_of_not_array {v : Value} (h : v.isArray = false) : v.rowCount = 1 := by
  rw [rowCount, toRows_of_not_array h]
  rfl

theorem colCount_of_not_array {v : Value} (h : v.isArray = false) : v.colCount = 1 := by
  rw [colCount, toRows_of_not_array h]
  rfl

theorem beside_of_not_array {v : Value} (h : v.isArray = false) (i j : Nat) : v.beside i j = v := by
  simp [beside, rowCount, colCount, toRows_of_not_array h]

theorem Full.rowCount_pos {v : Value} (h : v.Full) : 0 < v.rowCount := by
  have hcol := h.nonempty
  unfold colCount at hcol
  unfold rowCount
  cases hrows : v.toRows with
  | nil =>
    rw [hrows] at hcol
    exact absurd hcol (Nat.lt_irrefl 0)
  | cons row rows => exact Nat.succ_pos _

/-- Where rows have one length, the element beside a place is found in the row beside it. -/
theorem Full.beside_eq {v : Value} (h : v.Full) (i j : Nat) :
    v.beside i j = nth (.error .notAvailable) (nth [] v.toRows i) j := by
  unfold beside nth rowCount colCount
  cases hrow : v.toRows[if v.toRows.length = 1 then 0 else i]? with
  | none => rfl
  | some row =>
    dsimp only
    rw [Option.bind_some, Option.getD_some, h.sameLength.length_eq (List.mem_of_getElem? hrow)]

theorem Full.of_toRows {v w : Value} (h : w.Full) (hrows : v.toRows = w.toRows) : v.Full where
  sameLength := by rw [hrows]; exact h.sameLength
  nonempty := by rw [colCount, hrows]; exact h.nonempty

/-- What is made of each element of an array makes a table of the same size. -/
theorem Full.map_elements (g : Value → Value) (h : (array rows).Full) :
    (rows.map fun row => row.map g) =
      table rows.length (array rows).colCount fun i j => g ((array rows).beside i j) := by
  have hrow (row : List Value) (hmem : row ∈ rows) : row.map g =
      (List.range (array rows).colCount).map fun j => g (nth (.error .notAvailable) row j) := by
    have hlen : row.length = (array rows).colCount := h.sameLength.length_eq hmem
    rw [← hlen, map_range_nth]
  simp only [table, h.beside_eq]
  calc rows.map (fun row => row.map g)
      = rows.map fun row => (List.range (array rows).colCount).map fun j =>
          g (nth (.error .notAvailable) row j) := List.map_congr_left hrow
    _ = _ := (map_range_nth [] rows).symm

end Value

namespace ValueOp

theorem getElem?_stretch {xs : List α} (h : xs.length ≤ n) (hi : i < n) :
    (stretch n fill xs)[i]? = some (nth fill xs i) := by
  unfold stretch
  split
  · simp [nth, hi]
  · next hne =>
    have hlen : xs.length ≠ 1 := by
      intro h
      obtain ⟨x, rfl⟩ := List.length_eq_one_iff.1 h
      exact hne x rfl
    rw [nth, if_neg hlen, List.getElem?_append]
    split
    · next hlt => simp [List.getElem?_eq_getElem hlt]
    · next hge =>
      rw [List.getElem?_eq_none (Nat.le_of_not_lt hge), List.getElem?_replicate, if_pos (by omega),
        Option.getD_none]

/-- Two lists that are stretched to a length and combined, place by place. -/
theorem zipWith_stretch {f : α → β → γ} {xs : List α} {ys : List β} (hx : xs.length ≤ n)
    (hy : ys.length ≤ n) :
    List.zipWith f (stretch n fill xs) (stretch n fill' ys) =
      (List.range n).map fun i => f (nth fill xs i) (nth fill' ys i) := by
  apply List.ext_getElem?
  intro i
  by_cases hi : i < n
  · rw [List.getElem?_zipWith, getElem?_stretch hx hi, getElem?_stretch hy hi, List.getElem?_map,
      List.getElem?_range hi]
    rfl
  · have hlen : (List.zipWith f (stretch n fill xs) (stretch n fill' ys)).length = n := by
      rw [List.length_zipWith, length_stretch hx, length_stretch hy, Nat.min_self]
    rw [List.getElem?_eq_none (by omega), List.getElem?_eq_none (by simpa using hi)]

theorem onRows_eq (op : ValueOp) {l r : List Value} (hl : l.length ≤ n) (hr : r.length ≤ n) :
    op.onRows n l r = (List.range n).map fun j =>
      op.onScalars (nth (.error .notAvailable) l j) (nth (.error .notAvailable) r j) :=
  zipWith_stretch hl hr

/-- Two rectangular arrays make an array of the larger height and the larger width. -/
theorem apply_arrays (op : ValueOp) {l r : List (List Value)} (hl : (Value.array l).Full)
    (hr : (Value.array r).Full) :
    op.apply (.array l) (.array r) =
      .array (table (max l.length r.length) (max (Value.array l).colCount (Value.array r).colCount)
        fun i j => op.onScalars ((Value.array l).beside i j) ((Value.array r).beside i j)) := by
  have hrows (i : Nat) := op.onRows_eq
    (Nat.le_trans (length_nth_le l i) (Nat.le_max_left (width l) (width r)))
    (Nat.le_trans (length_nth_le r i) (Nat.le_max_right (width l) (width r)))
  have hwidth : width l = (Value.array l).colCount := hl.sameLength.width_eq
  have hwidth' : width r = (Value.array r).colCount := hr.sameLength.width_eq
  simp only [hwidth, hwidth'] at hrows
  rw [apply, zipWith_stretch (Nat.le_max_left ..) (Nat.le_max_right ..)]
  simp only [hwidth, hwidth', hrows, hl.beside_eq, hr.beside_eq]
  rfl

theorem apply_of_not_array (op : ValueOp) {v w : Value} (hv : v.isArray = false)
    (hw : w.isArray = false) : op.apply v w = op.onScalars v w := by
  cases v with
  | array rows => cases hv
  | _ =>
    cases w with
    | array rows => cases hw
    | _ => rfl

theorem apply_array_left (op : ValueOp) {l : List (List Value)} {w : Value}
    (hw : w.isArray = false) :
    op.apply (.array l) w = .array (l.map fun row => row.map fun v => op.onScalars v w) := by
  cases w with
  | array rows => cases hw
  | _ => rfl

theorem apply_array_right (op : ValueOp) {v : Value} {r : List (List Value)}
    (hv : v.isArray = false) :
    op.apply v (.array r) = .array (r.map fun row => row.map fun w => op.onScalars v w) := by
  cases v with
  | array rows => cases hv
  | _ => rfl

/-- The operators on an array and something else, and on two arrays, are one. -/
theorem apply_eq_table (op : ValueOp) {v w : Value} (hv : v.Full) (hw : w.Full)
    (h : (v.isArray || w.isArray) = true) :
    op.apply v w = .array (table (max v.rowCount w.rowCount) (max v.colCount w.colCount)
      fun i j => op.onScalars (v.beside i j) (w.beside i j)) := by
  cases hva : v.isArray with
  | true =>
    obtain ⟨l, rfl⟩ := Value.exists_of_isArray hva
    cases hwa : w.isArray with
    | true =>
      obtain ⟨r, rfl⟩ := Value.exists_of_isArray hwa
      exact op.apply_arrays hv hw
    | false =>
      rw [op.apply_array_left hwa, hv.map_elements (op.onScalars · w),
        Value.rowCount_of_not_array hwa, Value.colCount_of_not_array hwa,
        Nat.max_eq_left hv.rowCount_pos, Nat.max_eq_left hv.nonempty]
      simp only [Value.beside_of_not_array hwa]
      rfl
  | false =>
    rw [hva, Bool.false_or] at h
    obtain ⟨r, rfl⟩ := Value.exists_of_isArray h
    rw [op.apply_array_right hva, hw.map_elements (op.onScalars v ·),
      Value.rowCount_of_not_array hva, Value.colCount_of_not_array hva,
      Nat.max_eq_right hw.rowCount_pos, Nat.max_eq_right hw.nonempty]
    simp only [Value.beside_of_not_array hva]
    rfl

/-- Beside an array it makes no difference whether an operand is an array of one element or that
element. -/
theorem apply_congr (op : ValueOp) {v v' w w' : Value} (hv : v.Full) (hw : w.Full)
    (hv' : v.toRows = v'.toRows) (hw' : w.toRows = w'.toRows)
    (h : (v.isArray || w.isArray) = true) (h' : (v'.isArray || w'.isArray) = true) :
    op.apply v w = op.apply v' w' := by
  rw [op.apply_eq_table hv hw h,
    op.apply_eq_table (hv.of_toRows hv'.symm) (hw.of_toRows hw'.symm) h']
  unfold Value.beside Value.rowCount Value.colCount
  rw [hv', hw']

/-- An operator on values of at least one row and column is the operator on their elements place by
place; beside an array, a value that is none is an array of one element. Signs and percents are
taken of each element. -/
theorem apply_pointwise (op : ValueOp) {v w : Value} (hv : v.Full) (hw : w.Full) :
    op.apply v w =
        (if v.isArray || w.isArray then
          .array (table (max v.rowCount w.rowCount) (max v.colCount w.colCount) fun i j =>
            op.onScalars (v.beside i j) (w.beside i j))
        else op.onScalars v w) ∧
      (op.onScalars v w).isArray = false ∧
      (v.isArray = false → w.isArray = true → op.apply v w = op.apply (.array [[v]]) w) ∧
      (v.isArray = true → w.isArray = false → op.apply v w = op.apply v (.array [[w]])) ∧
      ∀ f, v.mapNumbers f =
        if v.isArray then
          .array (table v.rowCount v.colCount fun i j => (v.beside i j).mapNumbers f)
        else .ofResult ((fun x => .number (f x)) <$> v.toNumber) := by
  refine ⟨?_, ?_, ?_, ?_, ?_⟩
  · split
    · next h => exact op.apply_eq_table hv hw h
    · next h =>
      obtain ⟨hva, hwa⟩ := Bool.or_eq_false_iff.1 (eq_false_of_ne_true h)
      exact op.apply_of_not_array hva hwa
  · cases hsimple : op.onScalars v w with
    | array rows =>
      have h := op.onScalars_simple v w
      rw [hsimple] at h
      cases h
    | _ => rfl
  · intro hva hwa
    have hrows : v.toRows = (Value.array [[v]]).toRows := Value.toRows_of_not_array hva
    exact op.apply_congr hv hw hrows rfl (by rw [hwa, Bool.or_true]) rfl
  · intro hva hwa
    have hrows : w.toRows = (Value.array [[w]]).toRows := Value.toRows_of_not_array hwa
    exact op.apply_congr hv hw rfl hrows (by rw [hva, Bool.true_or]) (by rw [hva, Bool.true_or])
  · intro f
    cases hva : v.isArray with
    | true =>
      obtain ⟨rows, rfl⟩ := Value.exists_of_isArray hva
      rw [Value.mapNumbers, Value.mapRows_eq, hv.map_elements]
      rfl
    | false =>
      have hne : ∀ rows, v ≠ .array rows := by
        rintro rows rfl
        cases hva
      exact Value.mapNumbers_of_ne_array hne f

theorem apply_pointwise_row :
    let v : Value := .array [[.boolean true, .boolean false], [.boolean false, .boolean true]]
    let w : Value := .array [[.boolean true, .boolean false, .empty]]
    v.Full ∧ w.Full ∧ (comparison .equal).apply v w = .array [
      [.boolean true, .boolean true, .error .notAvailable],
      [.boolean false, .boolean false, .error .notAvailable]] := by
  intro v w
  have hv : v.Full := ⟨.of_length (n := 2) (by simp [v, Value.toRows]), Nat.two_pos⟩
  have hw : w.Full := ⟨.of_length (n := 3) (by simp [w, Value.toRows]), Nat.succ_pos 2⟩
  exact ⟨hv, hw, (apply_pointwise (comparison .equal) hv hw).1⟩

end ValueOp

end Spreadsheet
