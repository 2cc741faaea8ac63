import Spreadsheet.Proofs.Evaluation.Rectangular

/-!
The functions that pick elements of arrays by their places. Each is told once more with a failure
where it looks for an element that is not there; on rectangular arrays it never fails.
-/

namespace Spreadsheet

theorem SameLength.getElem? {rows : List (List α)} (h : SameLength rows)
    (hj : j < (rows.headD []).length) : ∀ row ∈ rows, (row[j]?).isSome := by
  intro row hrow
  rw [← h.length_eq hrow] at hj
  rw [List.getElem?_eq_getElem hj]
  rfl

/-! ### `INDEX` -/

namespace Lookup

/-- The element at a row and a column, as `element` finds it; none if it is not there, for all rows
or columns if it is missing in one of them. -/
def element? (rows : List (List Value)) : (row col : Nat) → Option Value
  | 0, 0 => some (.array rows)
  | 0, j + 1 => (rows.mapM fun row => row[j]?.map fun v => [v]).map .array
  | i + 1, 0 => rows[i]?.map fun row => .array [row]
  | i + 1, j + 1 => do (← rows[i]?)[j]?

theorem element?_eq (h : SameLength rows) (hi : i ≤ rows.length)
    (hj : j ≤ (rows.headD []).length) : element? rows i j = some (element rows i j) := by
  have hrow {i : Nat} (hi : i + 1 ≤ rows.length) : rows[i]? = some (rows[i]?.getD []) := by
    rw [List.getElem?_eq_getElem hi]
    rfl
  cases i with
  | zero =>
    cases j with
    | zero => rfl
    | succ j =>
      have hcolumn : ∀ row ∈ rows, (row[j]?.map fun v => [v]).isSome := by
        intro row hr
        rw [Option.isSome_map]
        exact h.getElem? hj row hr
      rw [element?, mapM_eq_some_filterMap hcolumn]
      rfl
  | succ i =>
    cases j with
    | zero =>
      rw [element?, hrow hi]
      rfl
    | succ j =>
      have hmem : rows[i]?.getD [] ∈ rows := List.mem_of_getElem? (hrow hi)
      obtain ⟨v, hv⟩ := Option.isSome_iff_exists.1 (h.getElem? hj _ hmem)
      rw [element?, hrow hi]
      show (rows[i]?.getD [])[j]? = some (((rows[i]?.getD [])[j]?).getD .empty)
      rw [hv]
      rfl

/-- What `INDEX` picks from, with the row and the column that it picks. -/
def picked (args : List Argument) : Result (List (List Value) × Nat × Nat) := do
  let rows := (← valueAt args 0).toRows
  let height := rows.length
  let width := (rows.headD []).length
  let first ← match givenAt? args 1 with
    | some v => indexOf v
    | none => .ok 0
  let (row, col) ← match givenAt? args 2 with
    | some v => do pure (first, ← indexOf v)
    | none => .ok (if height = 1 then (1, first) else if width = 1 then (first, 1) else (first, 0))
  if height < row || width < col then throw .ref
  return (rows, row, col)

theorem index_eq (args : List Argument) :
    index args = (fun p => element p.1 p.2.1 p.2.2) <$> picked args := by
  -- the two do the same up to the check, and `element` is applied behind it
  unfold index picked
  rw [map_bind]
  congr 1
  funext v
  cases givenAt? args 1 <;> cases givenAt? args 2 <;> simp only [map_bind, map_check]

/-- Whatever the numbers among the arguments are, the place that is picked is in the array. -/
theorem picked_yields (args : List Argument) :
    Yields (fun p => (∃ v, valueAt args 0 = .ok v ∧ p.1 = v.toRows) ∧
      p.2.1 ≤ p.1.length ∧ p.2.2 ≤ (p.1.headD []).length) (picked args) := by
  unfold picked
  rw [yields_bind]
  intro v hv
  have hrows : ∃ w, valueAt args 0 = .ok w ∧ v.toRows = w.toRows := ⟨v, hv, rfl⟩
  cases givenAt? args 1 <;> cases givenAt? args 2 <;> simp [hrows]

/-- `INDEX` with a failure where the element is not there. -/
def index? (args : List Argument) : Option (Result Value) :=
  match picked args with
  | .ok (rows, row, col) => (element? rows row col).map .ok
  | .error e => some (.error e)

theorem index?_eq {args : List Argument} (h : ∀ a ∈ args, a.value.Rectangular) :
    index? args = some (index args) := by
  have hpicked := picked_yields args
  rw [index?, index_eq]
  cases hp : picked args with
  | error e => rfl
  | ok p =>
    obtain ⟨⟨v, hv, hrows⟩, hi, hj⟩ := hpicked p hp
    have hlen : SameLength p.1 := by
      rw [hrows]
      exact (rectangular_array.1 (valueAt_yields h 0 v hv).toRows).1
    dsimp only
    rw [element?_eq hlen hi hj]
    rfl

theorem element_rectangular {rows : List (List Value)} (h : (Value.array rows).Rectangular)
    (i j : Nat) : (element rows i j).Rectangular := by
  refine element_has h (rectangular_array.1 h).2 (fun vs hvs => .array ?_ ?_)
    (fun _ => rectangular_row) .empty i j
  · apply SameLength.of_length
    intro row hrow
    obtain ⟨v, -, rfl⟩ := List.mem_map.1 hrow
    exact List.length_singleton
  · intro row hrow w hw
    obtain ⟨v, hv, rfl⟩ := List.mem_map.1 hrow
    exact List.mem_singleton.1 hw ▸ hvs v hv

theorem index_rectangular : Keeps Value.Rectangular index :=
  index_maps fun _ hv => element_rectangular hv.toRows

end Lookup

/-! ### `TRANSPOSE` and `MMULT` -/

namespace Matrix

/-- The columns of rows; none if a row lacks an element of one. -/
def columns? (rows : List (List α)) : Option (List (List α)) :=
  (List.range (rows.headD []).length).mapM fun j => rows.mapM fun row => row[j]?

theorem columns?_eq {rows : List (List α)} (h : SameLength rows) :
    columns? rows = some (Number.transpose rows) := by
  have hcolumn : ∀ j ∈ List.range (rows.headD []).length,
      rows.mapM (fun row => row[j]?) = some (rows.filterMap fun row => row[j]?) :=
    fun j hj => mapM_eq_some_filterMap (h.getElem? (List.mem_range.1 hj))
  rw [columns?, mapM_eq_some_filterMap fun j hj => by rw [hcolumn j hj]; rfl, Number.transpose,
    ← List.filterMap_eq_map]
  exact congrArg some (List.filterMap_congr hcolumn)

theorem length_column {rows : List (List α)} (h : SameLength rows)
    (hj : j < (rows.headD []).length) : (rows.filterMap fun row => row[j]?).length = rows.length :=
  List.filterMap_length_eq_length.2 (h.getElem? hj)

/-- `TRANSPOSE` with a failure where an element is not there. -/
def transpose? (args : List Argument) : Option (Result Value) :=
  match valueAt args 0 with
  | .ok v => (columns? v.toRows).map fun columns => .ok (.array columns)
  | .error e => some (.error e)

theorem transpose?_eq {args : List Argument} (h : ∀ a ∈ args, a.value.Rectangular) :
    transpose? args = some (transpose args) := by
  rw [transpose?, transpose]
  cases hv : valueAt args 0 with
  | error e => rfl
  | ok v =>
    have hrows := (valueAt_yields h 0 v hv).toRows
    dsimp only
    rw [columns?_eq (rectangular_array.1 hrows).1]
    rfl

theorem transpose_rectangular : Keeps Value.Rectangular transpose := by
  refine transpose_maps fun v hv => ?_
  obtain ⟨hlen, hrows⟩ := rectangular_array.1 hv.toRows
  refine .array ?_ (transpose_values hrows)
  apply SameLength.of_length
  intro row hrow
  obtain ⟨j, hj, rfl⟩ := List.mem_map.1 hrow
  exact length_column hlen (List.mem_range.1 hj)

/-- The matrices that `MMULT` multiplies, the first as wide as the second is high. -/
def factors (args : List Argument) : Result (List (List Float) × List (List Float)) := do
  let a ← numericRows (← valueAt args 0)
  let b ← numericRows (← valueAt args 1)
  if (a.headD []).length != b.length then throw .value
  return (a, b)

/-- The products of the rows of a matrix with columns. -/
def product (a columns : List (List Float)) : Value :=
  .array (a.map fun row => columns.map fun column => .number (scalarProduct row column))

theorem product_rectangular (a columns : List (List Float)) : (product a columns).Rectangular := by
  apply Value.Rectangular.array
  · apply SameLength.of_length
    intro row hrow
    obtain ⟨r, -, rfl⟩ := List.mem_map.1 hrow
    exact List.length_map _
  · intro row hrow v hv
    obtain ⟨r, -, rfl⟩ := List.mem_map.1 hrow
    obtain ⟨column, -, rfl⟩ := List.mem_map.1 hv
    exact .simple (.number _)

theorem mmult_eq (args : List Argument) :
    mmult args = (fun p => product p.1 (Number.transpose p.2)) <$> factors args := by
  unfold mmult factors
  simp only [map_bind, map_check]
  rfl

theorem numericRows_sameLength {v : Value} (h : v.Rectangular) :
    Yields SameLength (numericRows v) := by
  intro rows hrows
  unfold numericRows at hrows
  dsimp only at hrows
  split at hrows
  · cases hrows
  · apply (rectangular_array.1 h.toRows).1.of_forall₂
    exact (forall₂_of_mapM_eq_ok hrows).imp fun _ _ hr => (forall₂_of_mapM_eq_ok hr).length_eq

/-- `MMULT` with a failure where an element is not there. -/
def mmult? (args : List Argument) : Option (Result Value) :=
  match factors args with
  | .ok (a, b) => (columns? b).map fun columns => .ok (product a columns)
  | .error e => some (.error e)

theorem mmult?_eq {args : List Argument} (h : ∀ a ∈ args, a.value.Rectangular) :
    mmult? args = some (mmult args) := by
  have hlen : Yields (fun p => SameLength p.2) (factors args) := by
    intro p hp
    unfold factors at hp
    obtain ⟨v, -, hp⟩ := bind_eq_ok.1 hp
    obtain ⟨a, -, hp⟩ := bind_eq_ok.1 hp
    obtain ⟨w, hw, hp⟩ := bind_eq_ok.1 hp
    obtain ⟨b, hb, hp⟩ := bind_eq_ok.1 hp
    have hrows := numericRows_sameLength (valueAt_yields h 1 w hw) b hb
    split at hp
    · cases hp
    · cases hp
      exact hrows
  rw [mmult?, mmult_eq]
  cases hp : factors args with
  | error e => rfl
  | ok p =>
    dsimp only
    rw [columns?_eq (hlen p hp)]
    rfl

theorem mmult_rectangular : Keeps Value.Rectangular mmult := by
  intro args _
  rw [mmult_eq, yields_map]
  exact .of_forall fun p => product_rectangular _ _

end Matrix

end Spreadsheet
