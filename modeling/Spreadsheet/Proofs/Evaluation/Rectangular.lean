import Spreadsheet.Proofs.Evaluation.Kinds
import Spreadsheet.Proofs.Grammar.Constants

/-!
Values whose arrays are rectangular, also those inside arrays. Reading pads ranges to such arrays,
operators and built-in functions make no others of them, and `INDEX`, `TRANSPOSE` and `MMULT` find
in them every element that they look for.
-/

namespace Spreadsheet

/-! ### Rows of one length -/

theorem SameLength.of_length {rows : List (List α)} (h : ∀ row ∈ rows, row.length = n) :
    SameLength rows := by
  intro row hrow row' hrow'
  rw [h row hrow, h row' hrow']

theorem SameLength.length_eq {rows : List (List α)} (h : SameLength rows) (hrow : row ∈ rows) :
    row.length = (rows.headD []).length := by
  cases rows with
  | nil => exact absurd hrow List.not_mem_nil
  | cons first rest => exact h row hrow first (List.mem_cons_self ..)

theorem SameLength.of_map_length {rows : List (List α)} {rows' : List (List β)}
    (h : SameLength rows) (hlen : rows'.map List.length = rows.map List.length) :
    SameLength rows' := by
  apply SameLength.of_length
  intro row hrow
  have hmem : row.length ∈ rows.map List.length := by
    rw [← hlen]
    exact List.mem_map_of_mem hrow
  obtain ⟨r, hr, hlen⟩ := List.mem_map.1 hmem
  rw [← hlen, h.length_eq hr]

theorem SameLength.of_forall₂ {rows : List (List α)} {rows' : List (List β)}
    (h : SameLength rows)
    (hall : List.Forall₂ (fun row row' => row.length = row'.length) rows rows') :
    SameLength rows' := by
  apply h.of_map_length
  clear h
  induction hall with
  | nil => rfl
  | cons hrow _ ih => rw [List.map_cons, List.map_cons, hrow, ih]

theorem SameLength.map {rows : List (List α)} (h : SameLength rows) {f : List α → List β}
    (hf : ∀ row, (f row).length = row.length) : SameLength (rows.map f) := by
  apply h.of_map_length
  rw [List.map_map]
  exact List.map_congr_left fun row _ => hf row

theorem length_le_width {rows : List (List α)} (h : row ∈ rows) : row.length ≤ width rows := by
  -- the fold goes on from the widest row so far, so that the bound is on it as well
  have hfold (n : Nat) (rows : List (List α)) :
      n ≤ rows.foldl (fun n row => max n row.length) n ∧
        ∀ row ∈ rows, row.length ≤ rows.foldl (fun n row => max n row.length) n := by
    induction rows generalizing n with
    | nil => exact ⟨Nat.le_refl n, fun _ hr => absurd hr List.not_mem_nil⟩
    | cons first rest ih =>
      obtain ⟨hle, hrest⟩ := ih (max n first.length)
      refine ⟨Nat.le_trans (Nat.le_max_left ..) hle, List.forall_mem_cons.2 ⟨?_, hrest⟩⟩
      exact Nat.le_trans (Nat.le_max_right ..) hle
  exact (hfold 0 rows).2 row h

/-! ### Values -/

/-- Every array in the value has rows of one length. -/
inductive Value.Rectangular : Value → Prop
  | simple {v : Value} (h : v.Simple) : Rectangular v
  | reference (r : Reference) : Rectangular (.reference r)
  | empty : Rectangular .empty
  | array {rows : List (List Value)} (hlen : SameLength rows)
      (h : ∀ row ∈ rows, ∀ v ∈ row, Rectangular v) : Rectangular (.array rows)

theorem hasSimple_rectangular : HasSimple Value.Rectangular := fun _ => .simple

theorem rectangular_array {rows : List (List Value)} :
    (Value.array rows).Rectangular ↔
      SameLength rows ∧ ∀ row ∈ rows, ∀ v ∈ row, v.Rectangular := by
  constructor
  · intro h
    cases h with
    | simple h => cases h
    | array hlen h => exact ⟨hlen, h⟩
  · intro h
    exact .array h.1 h.2

theorem rectangular_row (h : ∀ v ∈ row, v.Rectangular) : (Value.array [row]).Rectangular := by
  apply Value.Rectangular.array
  · apply SameLength.of_length
    intro r hr
    rw [List.mem_singleton.1 hr]
  · intro r hr
    rwa [List.mem_singleton.1 hr]

namespace Value.Rectangular

theorem toRows {v : Value} (h : v.Rectangular) : (Value.array v.toRows).Rectangular := by
  cases v with
  | array rows => exact h
  | _ => exact rectangular_row fun w hw => List.mem_singleton.1 hw ▸ h

theorem elements {v : Value} (h : v.Rectangular) : ∀ w ∈ v.elements, w.Rectangular := by
  cases v with
  | array rows =>
    intro w hw
    obtain ⟨row, hrow, hw⟩ := List.mem_flatten.1 hw
    exact (rectangular_array.1 h).2 row hrow w hw
  | _ => exact fun w hw => List.mem_singleton.1 hw ▸ h

end Value.Rectangular

/-- However ragged the rows of a range are, what is read is rectangular. -/
theorem rectangular_padRows {rows : List (List Value)}
    (h : ∀ row ∈ rows, ∀ v ∈ row, v.Rectangular) : (Value.array (padRows rows)).Rectangular := by
  unfold padRows
  split
  · exact rectangular_row fun v hv => List.mem_singleton.1 hv ▸ .empty
  · have hlen : ∀ row ∈ rows.map fun row =>
        row ++ List.replicate (max 1 (width rows) - row.length) Value.empty,
        row.length = max 1 (width rows) := by
      intro padded hpadded
      obtain ⟨row, hrow, rfl⟩ := List.mem_map.1 hpadded
      have hle := length_le_width hrow
      rw [List.length_append, List.length_replicate]
      omega
    apply Value.Rectangular.array (.of_length hlen)
    intro padded hpadded v hv
    obtain ⟨row, hrow, rfl⟩ := List.mem_map.1 hpadded
    rcases List.mem_append.1 hv with hv | hv
    · exact h row hrow v hv
    · rw [List.eq_of_mem_replicate hv]
      exact .empty

/-- What a source gives is rectangular, but for the rows of a range, which may be ragged. -/
structure Source.Rectangular (source : Source) : Prop where
  cell : ∀ ref v, source.cell ref = .ok v → v.Rectangular
  range : ∀ ref rows, source.range ref = .ok rows → ∀ row ∈ rows, ∀ v ∈ row, v.Rectangular

theorem Source.Rectangular.gives {source : Source} (h : source.Rectangular) :
    source.Gives Value.Rectangular where
  cell := h.cell
  range := fun ref rows hrows => rectangular_padRows (h.range ref rows hrows)
  elements := fun _ hv => hv.elements
  row := fun _ hrow => rectangular_row hrow

/-! ### Operators -/

namespace Value

theorem Rectangular.mapNumbers (f : Float → Float) {v : Value} (h : v.Rectangular) :
    (v.mapNumbers f).Rectangular := by
  induction h with
  | @array rows hlen _ ih =>
    rw [Value.mapNumbers, mapRows_eq]
    apply Rectangular.array
    · exact hlen.map fun row => List.length_map _
    · intro mapped hmapped w hw
      obtain ⟨row, hrow, rfl⟩ := List.mem_map.1 hmapped
      obtain ⟨v, hv, rfl⟩ := List.mem_map.1 hw
      exact ih row hrow v hv
  | simple h => exact .simple (mapNumbers_simple (by rintro rows rfl; cases h) f)
  | _ => exact .simple (mapNumbers_simple (fun _ h => by cases h) f)

end Value

theorem SignOp.apply_rectangular (op : SignOp) {v : Value} (h : v.Rectangular) :
    (op.apply v).Rectangular := by
  cases op with
  | plus => exact h
  | negate => exact h.mapNumbers _

namespace ValueOp

theorem length_stretch {xs : List α} (h : xs.length ≤ n) : (stretch n fill xs).length = n := by
  unfold stretch
  split
  · exact List.length_replicate
  · rw [List.length_append, List.length_replicate]
    omega

theorem mem_stretch {xs : List α} (h : x ∈ stretch n fill xs) : x ∈ xs ∨ x = fill := by
  unfold stretch at h
  split at h
  · exact .inl (List.mem_singleton.2 (List.eq_of_mem_replicate h))
  · exact (List.mem_append.1 h).imp id List.eq_of_mem_replicate

theorem length_onRows (op : ValueOp) {l r : List Value} (hl : l.length ≤ n) (hr : r.length ≤ n) :
    (op.onRows n l r).length = n := by
  rw [onRows, List.length_zipWith, length_stretch hl, length_stretch hr, Nat.min_self]

theorem length_of_mem_stretch {rows : List (List Value)} (h : row ∈ stretch n [] rows)
    (hle : width rows ≤ m) : row.length ≤ m := by
  rcases mem_stretch h with h | rfl
  · exact Nat.le_trans (length_le_width h) hle
  · exact Nat.zero_le m

/-- Two arrays make an array with rows of one length, even if they have none themselves. -/
theorem apply_sameLength (op : ValueOp) {v w : Value} (hv : v.Rectangular) (hw : w.Rectangular)
    (h : op.apply v w = .array rows) : SameLength rows := by
  unfold apply at h
  split at h
  · cases h
    apply SameLength.of_length
    intro row hrow
    obtain ⟨x, hx, y, hy, rfl⟩ := exists_mem_of_mem_zipWith hrow
    -- both rows are stretched to the width of the wider array, those that are missing too
    exact op.length_onRows (length_of_mem_stretch hx (Nat.le_max_left ..))
      (length_of_mem_stretch hy (Nat.le_max_right ..))
  · cases h
    exact (rectangular_array.1 hv).1.map fun row => List.length_map _
  · cases h
    exact (rectangular_array.1 hw).1.map fun row => List.length_map _
  · have hsimple := op.onScalars_simple v w
    rw [h] at hsimple
    cases hsimple

theorem apply_rectangular (op : ValueOp) {v w : Value} (hv : v.Rectangular) (hw : w.Rectangular) :
    (op.apply v w).Rectangular := by
  rcases op.apply_cases v w with h | ⟨rows, heq, hrows⟩
  · exact .simple h
  · rw [heq]
    exact .array (op.apply_sameLength hv hw heq)
      fun row hrow x hx => .simple (hrows row hrow x hx)

end ValueOp

end Spreadsheet
