import Spreadsheet.Proofs.Comparing.Criteria
import Spreadsheet.Proofs.Lookups.Addressing
import Spreadsheet.Proofs.Wildcards.Matching

/-!
Positions of values in a row or column. `MATCH` finds the first value that equals the one looked up,
or the last that does not lie beyond it if the values of its kind are sorted; values of other kinds
are passed over.
-/

namespace Spreadsheet

open Float.Model

/-! ### First and last places -/

/-- The place of the first element of which something holds. -/
def FirstAt (p : α → Prop) (xs : List α) (i : Nat) : Prop :=
  (∃ x, xs[i]? = some x ∧ p x) ∧ ∀ j < i, ∀ y, xs[j]? = some y → ¬ p y

/-- The place of the last element of which something holds. -/
def LastAt (p : α → Prop) (xs : List α) (i : Nat) : Prop :=
  (∃ x, xs[i]? = some x ∧ p x) ∧ ∀ j > i, ∀ y, xs[j]? = some y → ¬ p y

theorem findIdx?_of_firstAt {p : α → Bool} {xs : List α} {i : Nat}
    (h : FirstAt (fun x => p x = true) xs i) : xs.findIdx? p = some i := by
  obtain ⟨⟨x, hx, hp⟩, hfirst⟩ := h
  obtain ⟨hi, rfl⟩ := List.getElem?_eq_some_iff.1 hx
  refine List.findIdx?_eq_some_iff_getElem.2 ⟨hi, hp, fun j hj => ?_⟩
  exact hfirst j hj _ (List.getElem?_eq_getElem (Nat.lt_trans hj hi))

/-- The last of the elements of which something holds has the place of the last such element. -/
theorem getLast?_of_lastAt {p : α → Bool} {xs : List α} {i : Nat}
    (h : LastAt (fun x => p x = true) xs i) :
    ((xs.zipIdx.filter fun e => p e.1).getLast?).map Prod.snd = some i := by
  induction xs using List.reverseRecOn with
  | nil =>
    obtain ⟨⟨x, hx, -⟩, -⟩ := h
    cases hx
  | append_singleton xs x ih =>
    obtain ⟨⟨y, hy, hp⟩, hlast⟩ := h
    have hend : (xs ++ [x])[xs.length]? = some x := by simp
    rw [List.zipIdx_append, List.filter_append]
    cases hx : p x with
    | true =>
      have hi : i = xs.length := by
        rcases Nat.lt_trichotomy i xs.length with hlt | heq | hgt
        · exact absurd hx (hlast _ hlt x hend)
        · exact heq
        · rw [List.getElem?_eq_none (by simpa using hgt)] at hy
          cases hy
      simp [hx, hi]
    | false =>
      have hi : i < xs.length := by
        rcases Nat.lt_trichotomy i xs.length with hlt | rfl | hgt
        · exact hlt
        · rw [hend] at hy
          cases hy
          rw [hx] at hp
          cases hp
        · rw [List.getElem?_eq_none (by simpa using hgt)] at hy
          cases hy
      have hplace : LastAt (fun x => p x = true) xs i := by
        refine ⟨⟨y, by rwa [List.getElem?_append_left hi] at hy, hp⟩, fun j hj z hz => ?_⟩
        obtain ⟨hlt, -⟩ := List.getElem?_eq_some_iff.1 hz
        exact hlast j hj z (by rwa [List.getElem?_append_left hlt])
      simpa [hx] using ih hplace

/-- Where nothing follows that holds after something that does not, the head of a list is all that
holds. -/
theorem takeWhile_eq_filter {p : α → Bool} {xs : List α}
    (h : xs.Pairwise fun x y => p y = true → p x = true) : xs.takeWhile p = xs.filter p := by
  induction xs with
  | nil => rfl
  | cons x xs ih =>
    obtain ⟨hx, hxs⟩ := List.pairwise_cons.1 h
    cases hp : p x with
    | true => rw [List.takeWhile_cons_of_pos hp, List.filter_cons_of_pos hp, ih hxs]
    | false =>
      have hnone : xs.filter p = [] := by
        rw [List.filter_eq_nil_iff]
        intro y hy hpy
        rw [hx y hy hpy] at hp
        cases hp
      rw [List.takeWhile_cons_of_neg (by simp [hp]), List.filter_cons_of_neg (by simp [hp]), hnone]

/-! ### Rows and columns -/

/-- The values stand in a single row or in a single column. -/
def Value.IsLine (w : Value) (values : List Value) : Prop :=
  w.toRows = [values] ∨ w.toRows = values.map fun x => [x]

namespace Lookup

theorem line?_of_isLine {w : Value} {values : List Value} (h : w.IsLine values) :
    line? w.toRows = some values := by
  rcases h with h | h
  · rw [h]
    rfl
  · rw [h]
    match values with
    | [] | [x] => rfl
    | x :: y :: rest =>
      have hall : ((x :: y :: rest).map fun x => [x]).all (·.length == 1) = true := by simp
      have hflatten : ((x :: y :: rest).map fun x => [x]).flatten = x :: y :: rest := by
        rw [← List.flatMap_def]
        exact List.flatMap_singleton' _
      exact (if_pos hall).trans (congrArg some hflatten)

/-- A block is no line. -/
theorem line?_block {rows : List (List Value)} (hheight : rows.length ≠ 1) {row : List Value}
    (hrow : row ∈ rows) (hwidth : row.length ≠ 1) : line? rows = none := by
  unfold line?
  split
  · exact absurd rfl hheight
  · rw [if_neg]
    intro hall
    exact hwidth (by simpa using List.all_eq_true.1 hall row hrow)

/-- A position in a row or column is the single index of the value there. -/
theorem index_line {w x : Value} {values : List Value} {i : Nat} (h : w.IsLine values)
    (hx : values[i]? = some x) (hi : i + 1 < 2 ^ 53) :
    index [.ofValue w, .ofValue (.number (Float.ofNat (i + 1)))] = .ok x := by
  obtain ⟨hlt, -⟩ := List.getElem?_eq_some_iff.1 hx
  have hargs : AreArguments [.ofValue w, .ofValue (.number (Float.ofNat (i + 1)))]
      [w, .number (Float.ofNat (i + 1))] := ⟨rfl, by simp [Argument.ofValue]⟩
  rw [index_of_one hargs, indexOf_ofNat hi]
  change pick w.toRows (placeOf w.toRows (i + 1)) = _
  rcases h with h | h
  · rw [h, row_eq_table .empty, pick_in_row hlt, hx]
    rfl
  · rw [h, column_eq_table .empty, pick_in_column hlt, hx]
    rfl

/-! ### Equal values -/

theorem equals_iff {l x : Value} (hl : l.isOperand = true) (htext : ∀ s, l ≠ .text s) :
    equals l x = true ↔ x.sameKind l = true ∧ x.order l = .eq := by
  have hequals : equals l x = (x.sameKind l && x.order l == .eq) := by
    cases l with
    | text s => exact absurd rfl (htext s)
    | number y => rfl
    | boolean b => rfl
    | _ => cases hl
  rw [hequals, Bool.and_eq_true, beq_iff_eq]

/-- A value of the kind looked up that equals it is equal to it in formulas. -/
theorem compares_equal {l x : Value} (hl : l.isOperand = true) (hkind : x.sameKind l = true)
    (heq : x.order l = .eq) : x.Compares .equal l := by
  have hx : x.isOperand = true := by
    cases x with
    | number y | text s | boolean b => rfl
    | _ => cases hkind
  rw [Value.compares_iff_of_not_array (Value.not_isArray_of_isOperand hx)
    (Value.not_isArray_of_isOperand hl) (Value.error?_of_isOperand hx)
    (Value.error?_of_isOperand hl), heq]
  rfl

/-! ### Sorted values -/

/-- What stands before a value that does not lie beyond the one looked up does not either. -/
theorem order_ne_beyond {l x y : Value} {beyond : Ordering} (hbeyond : beyond ≠ .eq)
    (hx : x.Ordered) (hy : y.Ordered) (hkind : x.sameKind l = true)
    (hxy : x.order y ≠ beyond) (hyl : y.order l ≠ beyond) : x.order l ≠ beyond := by
  by_cases hl : l.Ordered
  · cases beyond with
    | eq => exact absurd rfl hbeyond
    | gt =>
      have hle (v w : Value) : v.order w ≠ .gt ↔ (v.order w).isLE = true := by
        cases v.order w <;> decide
      rw [hle] at *
      exact Value.order_isLE_trans hx hy hl hxy hyl
    | lt =>
      have hge (v w : Value) : v.order w ≠ .lt ↔ (w.order v).isLE = true := by
        rw [Value.order_swap v w]
        cases v.order w <;> decide
      rw [hge] at *
      exact Value.order_isLE_trans hl hy hx hyl hxy
  · -- the value that is looked up is NaN, and nothing lies beyond that
    cases l with
    | number z =>
      cases x with
      | number u =>
        have hnan : z.isNaN = true := by simpa [Value.Ordered] using hl
        have heq : (Value.number u).order (.number z) = .eq := compareNumbers_of_isNaN (.inr hnan)
        rw [heq]
        exact hbeyond.symm
      | _ => cases hkind
    | text s | boolean b => exact absurd trivial hl
    | _ => cases x <;> cases hkind

theorem ordered_of_sameKind {l x : Value} (hkind : x.sameKind l = true)
    (hnan : ∀ y, x = .number y → y.isNaN = false) : x.Ordered := by
  cases x with
  | number y => exact hnan y rfl
  | text s | boolean b => trivial
  | _ => cases hkind

/-- The values of the kind looked up are sorted, those beyond the others at the end. -/
def Sorted (l : Value) (beyond : Ordering) (values : List Value) : Prop :=
  (values.filter fun x => x.sameKind l).Pairwise fun x y => x.order y ≠ beyond

/-- Among sorted values, those that do not lie beyond the one looked up come first. -/
theorem lastBefore_eq {l : Value} {beyond : Ordering} {values : List Value}
    (hbeyond : beyond ≠ .eq) (hsorted : Sorted l beyond values)
    (hnan : ∀ y, .number y ∈ values → y.isNaN = false) :
    lastBefore l beyond values =
      ((values.zipIdx.filter fun e => e.1.sameKind l && e.1.order l != beyond).getLast?).map
        Prod.snd := by
  have hprefix : (values.filter fun x => x.sameKind l).Pairwise fun x y =>
      (y.order l != beyond) = true → (x.order l != beyond) = true := by
    refine hsorted.imp_of_mem fun {x y} hx hy hxy hyl => ?_
    obtain ⟨hxmem, hxkind⟩ := List.mem_filter.1 hx
    obtain ⟨hymem, hykind⟩ := List.mem_filter.1 hy
    have hxo : x.Ordered := ordered_of_sameKind hxkind fun z hz => hnan z (hz ▸ hxmem)
    have hyo : y.Ordered := ordered_of_sameKind hykind fun z hz => hnan z (hz ▸ hymem)
    exact bne_iff_ne.2 (order_ne_beyond hbeyond hxo hyo hxkind hxy (bne_iff_ne.1 hyl))
  have hcandidates : (values.zipIdx.filter fun e => e.1.sameKind l).map Prod.fst =
      values.filter fun x => x.sameKind l :=
    (List.filter_map (p := fun x : Value => x.sameKind l)).symm.trans
      (congrArg (List.filter _) (List.zipIdx_map_fst 0 values))
  rw [← hcandidates, List.pairwise_map] at hprefix
  have htake := takeWhile_eq_filter hprefix
  unfold lastBefore
  dsimp only
  rw [htake, List.filter_filter]
  simp only [Bool.and_comm]

/-- What is found among sorted values: the last that does not lie beyond the one looked up. -/
theorem lastBefore_spec {l : Value} {beyond : Ordering} {values : List Value}
    (hbeyond : beyond ≠ .eq) (hsorted : Sorted l beyond values)
    (hnan : ∀ y, .number y ∈ values → y.isNaN = false) :
    (∀ i, LastAt (fun x => x.sameKind l = true ∧ x.order l ≠ beyond) values i →
      lastBefore l beyond values = some i) ∧
    (lastBefore l beyond values = none ↔
      ∀ x ∈ values, x.sameKind l = true → x.order l = beyond) := by
  rw [lastBefore_eq hbeyond hsorted hnan]
  constructor
  · intro i hi
    apply getLast?_of_lastAt (p := fun x : Value => x.sameKind l && x.order l != beyond)
    simpa using hi
  · rw [Option.map_eq_none_iff, List.getLast?_eq_none_iff, List.filter_eq_nil_iff]
    constructor
    · intro h x hx hkind
      obtain ⟨i, hi⟩ := List.getElem?_of_mem hx
      have hnot := h (x, i) (List.mk_mem_zipIdx_iff_getElem?.2 hi)
      simpa [hkind] using hnot
    · intro h e he
      have hmem : e.1 ∈ values := by
        rw [← List.zipIdx_map_fst 0 values]
        exact List.mem_map_of_mem he
      have hbeyond := h e.1 hmem
      simpa using hbeyond

end Lookup

/-! ### Types -/

theorem beq_zero_of_lt {x : Float} (h : 0 < x ∨ x < 0) : (x == 0) = false := by
  have hzero : (0 : Float).toModel.unpack = .zero .positive := rfl
  rw [lt_iff_compare, lt_iff_compare, hzero] at h
  change UnpackedFloat.beq x.toModel.unpack (0 : Float).toModel.unpack = false
  rw [hzero]
  cases hx : x.toModel.unpack with
  | zero s =>
    rw [hx] at h
    rcases h with h | h <;> cases h
  | notANumber => rfl
  | infinity s => cases s <;> rfl
  | finite s m e hm => cases s <;> rfl

theorem float_lt_asymm {x y : Float} (h : x < y) : ¬ y < x := by
  intro h'
  have hlt : compareNumbers x y = .lt := if_pos h
  have hlt' : compareNumbers y x = .lt := if_pos h'
  rw [compareNumbers_swap, hlt] at hlt'
  cases hlt'

open Lookup in
/-- What `MATCH` finds in a single row or column without NaN. Type 0 finds the first value that
equals the one looked up, unless that is a text and so a pattern, and `INDEX` gives it back. Other
types find the last value that does not lie beyond it, if the values of its kind are sorted. What is
not found is `#N/A`, and so is anything in a block. -/
theorem match_positions {args : List Argument} {v w l : Value} {type : Float}
    (hlookup : valueAt args 0 = .ok v) (hv : v.scalar = l) (hl : l.isOperand = true)
    (hcells : valueAt args 1 = .ok w) (htype : numberAtOr args 2 1 = .ok type) :
    (∀ values, w.IsLine values → (∀ x, .number x ∈ values → x.isNaN = false) →
      ((type == 0) = true → (∀ s, l ≠ .text s) →
        (∀ i, FirstAt (fun x => x.sameKind l = true ∧ x.order l = .eq) values i →
          position args = .ok (Float.ofNat (i + 1)) ∧
          (i + 1 < 2 ^ 53 → ∃ x,
            index [.ofValue w, .ofValue (.number (Float.ofNat (i + 1)))] = .ok x ∧
            x.Compares .equal l)) ∧
        (position args = .error .notAvailable ↔
          ∀ x ∈ values, ¬ (x.sameKind l = true ∧ x.order l = .eq))) ∧
      (0 < type → Sorted l .gt values →
        (∀ i, LastAt (fun x => x.sameKind l = true ∧ x.order l ≠ .gt) values i →
          position args = .ok (Float.ofNat (i + 1))) ∧
        (position args = .error .notAvailable ↔
          ∀ x ∈ values, x.sameKind l = true → x.order l = .gt)) ∧
      (type < 0 → Sorted l .lt values →
        (∀ i, LastAt (fun x => x.sameKind l = true ∧ x.order l ≠ .lt) values i →
          position args = .ok (Float.ofNat (i + 1))) ∧
        (position args = .error .notAvailable ↔
          ∀ x ∈ values, x.sameKind l = true → x.order l = .lt))) ∧
    (w.toRows.length ≠ 1 → (∃ row ∈ w.toRows, row.length ≠ 1) →
      position args = .error .notAvailable) := by
  subst hv
  refine ⟨fun values hline hnan => ?_, ?_⟩
  · have hposition := position_of_line hlookup hcells (line?_of_isLine hline) htype
    -- where the type is not 0, the answer is that of `lastBefore`
    have hsorted {beyond : Ordering} (hbeyond : beyond ≠ .eq) (hs : Sorted v.scalar beyond values)
        (hrun : position args = (orError .notAvailable (lastBefore v.scalar beyond values)).map
          fun i => Float.ofNat (i + 1)) :
        (∀ i, LastAt (fun x => x.sameKind v.scalar = true ∧ x.order v.scalar ≠ beyond) values i →
          position args = .ok (Float.ofNat (i + 1))) ∧
        (position args = .error .notAvailable ↔
          ∀ x ∈ values, x.sameKind v.scalar = true → x.order v.scalar = beyond) := by
      obtain ⟨hfound, hnone⟩ := lastBefore_spec hbeyond hs hnan
      rw [hrun, orError_map_eq_error, hnone]
      refine ⟨fun i hi => ?_, Iff.rfl⟩
      rw [hfound i hi]
      rfl
    refine ⟨?_, ?_, ?_⟩
    · intro hzero htext
      rw [if_pos hzero] at hposition
      rw [hposition, orError_map_eq_error, List.findIdx?_eq_none_iff]
      refine ⟨fun i hi => ?_, ?_⟩
      · have hfirst : FirstAt (fun x => equals v.scalar x = true) values i := by
          simpa only [equals_iff hl htext] using hi
        obtain ⟨⟨x, hx, hkind, heq⟩, -⟩ := hi
        rw [findIdx?_of_firstAt hfirst]
        exact ⟨rfl, fun hlt => ⟨x, index_line hline hx hlt, compares_equal hl hkind heq⟩⟩
      · simp only [← equals_iff hl htext, Bool.not_eq_true]
    · intro hpos hs
      rw [beq_zero_of_lt (.inl hpos), if_neg Bool.false_ne_true, if_pos hpos] at hposition
      exact hsorted nofun hs hposition
    · intro hneg hs
      rw [beq_zero_of_lt (.inr hneg), if_neg Bool.false_ne_true,
        if_neg (float_lt_asymm hneg)] at hposition
      exact hsorted nofun hs hposition
  · rintro hheight ⟨row, hrow, hwidth⟩
    rw [position, hlookup, hcells]
    dsimp only [bind, Except.bind]
    rw [line?_block hheight hrow hwidth]
    rfl

theorem match_positions_mixed :
    let cells : Value := .array [[.text "a", .boolean false, .number 3, .boolean true, .number 1]]
    let args (type : Float) : List Argument :=
      [.ofValue (.boolean true), .ofValue cells, .ofValue (.number type)]
    (Lookup.position (args 0) = .ok 4 ∧
      ∃ x, Lookup.index [.ofValue cells, .ofValue (.number 4)] = .ok x ∧
        x.Compares .equal (.boolean true)) ∧
    Lookup.position (args 1) = .ok 4 := by
  intro cells args
  let values : List Value := [.text "a", .boolean false, .number 3, .boolean true, .number 1]
  have hnan : ∀ x, .number x ∈ values → x.isNaN = false := by
    intro x hx
    simp only [values, List.mem_cons, List.not_mem_nil, reduceCtorEq, or_false, false_or,
      Value.number.injEq] at hx
    rcases hx with rfl | rfl <;> decide
  have hsorted : Lookup.Sorted (.boolean true) .gt values := by
    change List.Pairwise _ [Value.boolean false, .boolean true]
    exact List.pairwise_pair.2 (by decide)
  have hlookup (type : Float) : valueAt (args type) 0 = .ok (.boolean true) := rfl
  obtain ⟨hlines, -⟩ := match_positions (hlookup 0) rfl rfl rfl rfl
  obtain ⟨hequal, -, -⟩ := hlines values (.inl rfl) hnan
  obtain ⟨hfirst, -⟩ := hequal rfl nofun
  obtain ⟨hposition, hindex⟩ := hfirst 3 ⟨⟨_, rfl, rfl, rfl⟩, by
    intro j hj y hy
    match j with
    | 0 | 1 | 2 =>
      cases hy
      decide⟩
  obtain ⟨hlines, -⟩ := match_positions (hlookup 1) rfl rfl rfl rfl
  obtain ⟨-, hascending, -⟩ := hlines values (.inl rfl) hnan
  obtain ⟨hlast, -⟩ := hascending (by decide) hsorted
  have hposition' := hlast 3 ⟨⟨_, rfl, rfl, nofun⟩, by
    intro j hj y hy
    match j with
    | 4 =>
      cases hy
      decide
    | j + 5 => cases hy⟩
  exact ⟨⟨hposition, hindex (by decide)⟩, hposition'⟩

end Spreadsheet
