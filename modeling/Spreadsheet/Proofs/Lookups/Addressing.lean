import Spreadsheet.Proofs.Evaluation.Tables
import Spreadsheet.Proofs.Lookups.Indices

/-!
Elements, rows and columns of arrays by their indices. `INDEX` finds the same element of an array at
once, in its row, in its column and in the transposed array, whatever the shape of the array is.
-/

namespace Spreadsheet

/-- An expression that is read as a number that stands for an index. -/
def Expr.Counts (scope : Scope) (source : Source) (e : Expr) (n : Nat) : Prop :=
  ∃ x, e.Reads scope source (.number x) ∧ Lookup.indexOf (.number x) = .ok n

variable {scope : Scope} {source : Source}

/-- The whole numbers that floats can tell apart stand for themselves. -/
theorem Expr.counts_ofNat {n : Nat} (h : n < 2 ^ 53) :
    (literal (.number (Float.ofNat n))).Counts scope source n :=
  ⟨_, reads_number _, Lookup.indexOf_ofNat h⟩

namespace Lookup

/-- The element of an array at indices that may lie beyond it. -/
def pick (rows : List (List Value)) (p : Nat × Nat) : Result Value :=
  if rows.length < p.1 || (rows.headD []).length < p.2 then .error .ref
  else .ok (element rows p.1 p.2)

/-- The row and the column that a single index stands for. -/
def placeOf (rows : List (List Value)) (n : Nat) : Nat × Nat :=
  if rows.length = 1 then (1, n) else if (rows.headD []).length = 1 then (n, 1) else (n, 0)

theorem index_of_two {args : List Argument} {a v w : Value} (h : AreArguments args [a, v, w]) :
    index args = indexOf v >>= fun r => indexOf w >>= fun c => pick a.toRows (r, c) := by
  have hrows : valueAt args 0 = .ok a := h.valueAt 0
  have hfirst : givenAt? args 1 = some v := h.givenAt? 1
  have hsecond : givenAt? args 2 = some w := h.givenAt? 2
  unfold index pick
  rw [hrows, hfirst, hsecond]
  dsimp only
  cases indexOf v with
  | error e => rfl
  | ok r =>
    cases indexOf w with
    | error e => rfl
    | ok c => rfl

theorem index_of_one {args : List Argument} {a v : Value} (h : AreArguments args [a, v]) :
    index args = indexOf v >>= fun n => pick a.toRows (placeOf a.toRows n) := by
  have hrows : valueAt args 0 = .ok a := h.valueAt 0
  have hfirst : givenAt? args 1 = some v := h.givenAt? 1
  have hsecond : givenAt? args 2 = none := h.givenAt? 2
  unfold index pick
  rw [hrows, hfirst, hsecond]
  dsimp only
  cases indexOf v with
  | error e => rfl
  | ok n => rfl

theorem pick_eq_element {rows : List (List Value)} {r c : Nat} (hr : r ≤ rows.length)
    (hc : c ≤ (rows.headD []).length) : pick rows (r, c) = .ok (element rows r c) := by
  rw [pick, if_neg]
  simp only [Bool.or_eq_true, decide_eq_true_eq]
  omega

theorem pick_beyond {rows : List (List Value)} {r c : Nat}
    (h : rows.length < r ∨ (rows.headD []).length < c) : pick rows (r, c) = .error .ref := by
  rw [pick, if_pos]
  simpa only [Bool.or_eq_true, decide_eq_true_eq] using h

theorem pick_table {f : Nat → Nat → Value} {h w r c : Nat} (hr : r < h) (hc : c < w) :
    pick (table h w f) (r + 1, c + 1) = .ok (f r c) := by
  have hh : 0 < h := Nat.lt_of_le_of_lt (Nat.zero_le r) hr
  rw [pick_eq_element, element_table hr hc]
  · rw [length_table]
    exact hr
  · rw [length_headD_table hh]
    exact hc

/-- A single index counts in the only row. -/
theorem pick_in_row {f : Nat → Nat → Value} {w c : Nat} (hc : c < w) :
    pick (table 1 w f) (placeOf (table 1 w f) (c + 1)) = .ok (f 0 c) := by
  rw [placeOf, if_pos length_table, pick_table Nat.one_pos hc]

/-- A single index counts in the only column, also if it has just one element. -/
theorem pick_in_column {f : Nat → Nat → Value} {h r : Nat} (hr : r < h) :
    pick (table h 1 f) (placeOf (table h 1 f) (r + 1)) = .ok (f r 0) := by
  have hplace : placeOf (table h 1 f) (r + 1) = (r + 1, 1) := by
    unfold placeOf
    rw [length_table]
    split
    · next hone =>
      obtain rfl : r = 0 := by omega
      rfl
    · rw [if_pos (length_headD_table (by omega))]
  rw [hplace, pick_table hr Nat.one_pos]

/-! ### Calls -/

section

variable {a i j : Expr} {rows : List (List Value)} {f : Nat → Nat → Value} {h w r c : Nat}

/-- The call of `INDEX` on an array with the indices. -/
def indexed (a : Expr) (indices : List Expr) : Expr := .call "INDEX" (a :: indices)

theorem find?_index (hfind : scope.functions.find? "INDEX" = Registry.find? builtins "INDEX") :
    scope.functions.find? "INDEX" = some (.ofValues "INDEX" .reference 2 (some 3) index) :=
  hfind

variable (hfind : scope.functions.find? "INDEX" = Registry.find? builtins "INDEX")
include hfind

theorem evaluates_two (ha : a.Reads scope source (.array rows))
    (hi : i.Reads scope source (.number x)) (hj : j.Reads scope source (.number y)) :
    (indexed a [i, j]).Evaluates scope source (Function.close (.ofResult
      (indexOf (.number x) >>= fun r => indexOf (.number y) >>= fun c => pick rows (r, c)))) := by
  apply evaluates_call (find?_index hfind) rfl rfl (.cons ha (.cons hi (.cons hj .nil)))
  · simp [Value.isPlain]
  · exact fun args => index_of_two

theorem evaluates_one (ha : a.Reads scope source (.array rows))
    (hi : i.Reads scope source (.number x)) :
    (indexed a [i]).Evaluates scope source (Function.close (.ofResult
      (indexOf (.number x) >>= fun n => pick rows (placeOf rows n)))) := by
  apply evaluates_call (find?_index hfind) rfl rfl (.cons ha (.cons hi .nil))
  · simp [Value.isPlain]
  · exact fun args => index_of_one

theorem evaluates_place (ha : a.Reads scope source (.array rows)) (hi : i.Counts scope source r)
    (hj : j.Counts scope source c) :
    (indexed a [i, j]).Evaluates scope source (Function.close (.ofResult (pick rows (r, c)))) := by
  obtain ⟨x, hx, hr⟩ := hi
  obtain ⟨y, hy, hc⟩ := hj
  have hcall := evaluates_two hfind ha hx hy
  rw [hr, hc] at hcall
  exact hcall

theorem evaluates_placeOf (ha : a.Reads scope source (.array rows))
    (hi : i.Counts scope source r) :
    (indexed a [i]).Evaluates scope source
      (Function.close (.ofResult (pick rows (placeOf rows r)))) := by
  obtain ⟨x, hx, hr⟩ := hi
  have hcall := evaluates_one hfind ha hx
  rw [hr] at hcall
  exact hcall

/-- Elements are found at once. -/
theorem evaluates_element (ha : a.Reads scope source (.array (table h w f)))
    (hi : i.Counts scope source (r + 1)) (hj : j.Counts scope source (c + 1)) (hr : r < h)
    (hc : c < w) : (indexed a [i, j]).Evaluates scope source (Function.close (f r c)) := by
  have hcall := evaluates_place hfind ha hi hj
  rw [pick_table hr hc] at hcall
  exact hcall

theorem evaluates_row (ha : a.Reads scope source (.array (table h w f)))
    (hi : i.Counts scope source (r + 1)) (hj : j.Counts scope source 0) (hr : r < h) :
    (indexed a [i, j]).Evaluates scope source (.array (table 1 w fun _ => f r)) := by
  have hcall := evaluates_place hfind ha hi hj
  rw [pick_eq_element (by rwa [length_table]) (Nat.zero_le _), element_row hr] at hcall
  exact hcall

theorem evaluates_column (ha : a.Reads scope source (.array (table h w f)))
    (hi : i.Counts scope source 0) (hj : j.Counts scope source (c + 1)) (hh : 0 < h) (hc : c < w) :
    (indexed a [i, j]).Evaluates scope source (.array (table h 1 fun r _ => f r c)) := by
  have hcall := evaluates_place hfind ha hi hj
  rw [pick_eq_element (Nat.zero_le _) (by rwa [length_headD_table hh]), element_column hc] at hcall
  exact hcall

theorem evaluates_in_row (ha : a.Reads scope source (.array (table 1 w f)))
    (hj : j.Counts scope source (c + 1)) (hc : c < w) :
    (indexed a [j]).Evaluates scope source (Function.close (f 0 c)) := by
  have hcall := evaluates_placeOf hfind ha hj
  rw [pick_in_row hc] at hcall
  exact hcall

theorem evaluates_in_column (ha : a.Reads scope source (.array (table h 1 f)))
    (hi : i.Counts scope source (r + 1)) (hr : r < h) :
    (indexed a [i]).Evaluates scope source (Function.close (f r 0)) := by
  have hcall := evaluates_placeOf hfind ha hi
  rw [pick_in_column hr] at hcall
  exact hcall

theorem evaluates_beyond (ha : a.Reads scope source (.array rows)) (hi : i.Counts scope source r)
    (hj : j.Counts scope source c) (hbeyond : rows.length < r ∨ (rows.headD []).length < c) :
    (indexed a [i, j]).Evaluates scope source (.error .ref) := by
  have hcall := evaluates_place hfind ha hi hj
  rw [pick_beyond hbeyond] at hcall
  exact hcall

theorem evaluates_beyond_one (ha : a.Reads scope source (.array rows))
    (hi : i.Counts scope source r)
    (hbeyond : (if rows.length = 1 then (rows.headD []).length else rows.length) < r) :
    (indexed a [i]).Evaluates scope source (.error .ref) := by
  have hcall := evaluates_placeOf hfind ha hi
  have hpick : pick rows (placeOf rows r) = .error .ref := by
    unfold placeOf
    split at hbeyond
    · rw [if_pos ‹_›, pick_beyond (.inr hbeyond)]
    · rw [if_neg ‹_›]
      split <;> exact pick_beyond (.inl hbeyond)
  rw [hpick] at hcall
  exact hcall

/-- A negative index is looked at before the size of the array is. -/
theorem evaluates_negative (ha : a.Reads scope source (.array rows))
    (hi : i.Reads scope source (.number x)) (hj : j.Reads scope source (.number y))
    (hneg : x ≤ -1) :
    (indexed a [i]).Evaluates scope source (.error .value) ∧
      (indexed a [i, j]).Evaluates scope source (.error .value) ∧
      (indexed a [j, i]).Evaluates scope source (.error .value) := by
  have hone := evaluates_one hfind ha hi
  have hfirst := evaluates_two hfind ha hi hj
  have hsecond := evaluates_two hfind ha hj hi
  rw [indexOf_negative hneg] at hone hfirst hsecond
  refine ⟨hone, hfirst, ?_⟩
  rw [indexOf_number] at hsecond
  split at hsecond <;> exact hsecond

end

end Lookup

namespace Matrix

/-- The call of `TRANSPOSE` on an array. -/
def transposed (a : Expr) : Expr := .call "TRANSPOSE" [a]

theorem evaluates_transposed {a : Expr} {f : Nat → Nat → Value} {h w : Nat}
    (hfind : scope.functions.find? "TRANSPOSE" = Registry.find? builtins "TRANSPOSE")
    (ha : a.Reads scope source (.array (table h w f))) (hh : 0 < h) :
    (transposed a).Evaluates scope source (.array (table w h fun j i => f i j)) := by
  have hfind : scope.functions.find? "TRANSPOSE" =
      some (.ofValues "TRANSPOSE" .reference 1 (some 1) transpose) := hfind
  have htranspose (args : List Argument) (hargs : AreArguments args [.array (table h w f)]) :
      transpose args = .ok (.array (table w h fun j i => f i j)) := by
    have hrows : valueAt args 0 = .ok (.array (table h w f)) := hargs.valueAt 0
    rw [transpose, hrows, ← transpose_table hh]
    rfl
  exact evaluates_call hfind rfl rfl (.cons ha .nil) (by simp [Value.isPlain]) htranspose

end Matrix

open Lookup in
/-- `INDEX` finds an element of an array of any shape at its indices, at the exchanged indices in
the transposed array, and at the one index in its row and at the other in its column. Two zeros are
the whole array, an index beyond the array is `#REF!`, and a negative index is `#VALUE!` whatever
the other is. -/
theorem array_addressing {a : Expr} {rows : List (List Value)}
    (hindex : scope.functions.find? "INDEX" = Registry.find? builtins "INDEX")
    (htranspose : scope.functions.find? "TRANSPOSE" = Registry.find? builtins "TRANSPOSE")
    (ha : a.Reads scope source (.array rows)) (hfull : (Value.array rows).Full) :
    let height := (Value.array rows).rowCount
    let width := (Value.array rows).colCount
    (Matrix.transposed (Matrix.transposed a)).Evaluates scope source (.array rows) ∧
    (∀ (zero i j : Expr) (r c : Nat), zero.Counts scope source 0 → i.Counts scope source r →
      j.Counts scope source c →
      (indexed a [zero, zero]).Evaluates scope source (.array rows) ∧
      (0 < r → r ≤ height → 0 < c → c ≤ width → ∃ row v,
        rows[r - 1]? = some row ∧ row[c - 1]? = some v ∧
        (indexed a [i, j]).Evaluates scope source (Function.close v) ∧
        (indexed (Matrix.transposed a) [j, i]).Evaluates scope source (Function.close v) ∧
        (indexed (indexed a [i, zero]) [j]).Evaluates scope source (Function.close v) ∧
        (indexed (indexed a [zero, j]) [i]).Evaluates scope source (Function.close v)) ∧
      (height < r ∨ width < c → (indexed a [i, j]).Evaluates scope source (.error .ref)) ∧
      ((if height = 1 then width else height) < r →
        (indexed a [i]).Evaluates scope source (.error .ref))) ∧
    (∀ (i j : Expr) (x y : Float), i.Reads scope source (.number x) →
      j.Reads scope source (.number y) → x ≤ -1 →
      (indexed a [i]).Evaluates scope source (.error .value) ∧
      (indexed a [i, j]).Evaluates scope source (.error .value) ∧
      (indexed a [j, i]).Evaluates scope source (.error .value)) := by
  have hwidth : 0 < (rows.headD []).length := hfull.nonempty
  have hheight : 0 < rows.length := hfull.rowCount_pos
  obtain ⟨f, hf⟩ := hfull.sameLength.exists_table hwidth
  change rows = table rows.length (rows.headD []).length f at hf
  have hreads {e : Expr} {rows : List (List Value)}
      (he : e.Evaluates scope source (.array rows)) : e.Reads scope source (.array rows) :=
    he.reads nofun
  have ha' : a.Reads scope source (.array (table rows.length (rows.headD []).length f)) := hf ▸ ha
  have htransposed := Matrix.evaluates_transposed htranspose ha' hheight
  refine ⟨?_, ?_, fun i j x y hi hj => evaluates_negative hindex ha hi hj⟩
  · have htwice := Matrix.evaluates_transposed htranspose (hreads htransposed) hwidth
    rw [← hf] at htwice
    exact htwice
  · intro zero i j r c hzero hi hj
    refine ⟨evaluates_place hindex ha hzero hzero, ?_, evaluates_beyond hindex ha hi hj,
      evaluates_beyond_one hindex ha hi⟩
    intro hr hr' hc hc'
    obtain ⟨r, rfl⟩ := Nat.exists_eq_succ_of_ne_zero (Nat.ne_of_gt hr)
    obtain ⟨c, rfl⟩ := Nat.exists_eq_succ_of_ne_zero (Nat.ne_of_gt hc)
    change r < rows.length at hr'
    change c < (rows.headD []).length at hc'
    refine ⟨(List.range (rows.headD []).length).map (f r), f r c, ?_, ?_, ?_, ?_, ?_, ?_⟩
    · exact (congrArg (·[r]?) hf).trans (getElem?_table hr')
    · rw [Nat.succ_sub_one, List.getElem?_map, List.getElem?_range hc']
      rfl
    · exact evaluates_element hindex ha' hi hj hr' hc'
    · have helement := evaluates_element hindex (hreads htransposed) hj hi hc' hr'
      exact helement
    · have hrow := evaluates_row hindex ha' hi hzero hr'
      exact evaluates_in_row hindex (hreads hrow) hj hc'
    · have hcolumn := evaluates_column hindex ha' hzero hj hheight hc'
      exact evaluates_in_column hindex (hreads hcolumn) hi hr'

theorem array_addressing_block :
    let scope : Scope := ⟨builtins, [], none⟩
    let a : Expr := .array [[.boolean true, .text "x", .text ""], [.text "y", .text "z", .text ""]]
    let rows : List (List Value) :=
      [[.boolean true, .text "x", .text ""], [.text "y", .text "z", .text ""]]
    let index (n : Nat) : Expr := .literal (.number (Float.ofNat n))
    (Matrix.transposed (Matrix.transposed a)).Evaluates scope .zero (.array rows) ∧
      (Lookup.indexed (Lookup.indexed a [index 2, index 0]) [index 1]).Evaluates scope .zero
        (.text "y") ∧
      (Lookup.indexed a [index 2, index 4]).Evaluates scope .zero (.error .ref) ∧
      (Lookup.indexed a [.literal (.number (-1)), index 4]).Evaluates scope .zero
        (.error .value) := by
  intro scope a rows index
  have hfull : (Value.array rows).Full :=
    ⟨.of_length (n := 3) (by simp [rows, Value.toRows]), Nat.succ_pos 2⟩
  have ha : a.Reads scope .zero (.array rows) := rfl
  obtain ⟨htwice, hplaces, hnegative⟩ := array_addressing rfl rfl ha hfull
  have hcounts (n : Nat) (h : n < 2 ^ 53) : (index n).Counts scope .zero n := Expr.counts_ofNat h
  obtain ⟨-, hinside, -, -⟩ := hplaces (index 0) (index 2) (index 1) 2 1 (hcounts 0 (by decide))
    (hcounts 2 (by decide)) (hcounts 1 (by decide))
  obtain ⟨row, v, hrow, hv, -, -, helement, -⟩ :=
    hinside (by decide) (by decide) (by decide) (by decide)
  cases hrow
  cases hv
  obtain ⟨-, -, hbeyond, -⟩ := hplaces (index 0) (index 2) (index 4) 2 4 (hcounts 0 (by decide))
    (hcounts 2 (by decide)) (hcounts 4 (by decide))
  obtain ⟨-, hfirst, -⟩ :=
    hnegative (.literal (.number (-1))) (index 4) (-1) (Float.ofNat 4) rfl rfl (by decide)
  exact ⟨htwice, helement, hbeyond (.inr (by decide)), hfirst⟩

end Spreadsheet
