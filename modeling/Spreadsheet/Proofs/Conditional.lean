import Spreadsheet.Proofs.Blocks
import Spreadsheet.Proofs.Evaluation.Bare
import Spreadsheet.Proofs.Lookups.Arguments

/-!
Sums of the cells that meet a criterion, on grids. `SUMIF` looks at two blocks of cells side by
side. Each is read up to the edge of the sheet or, where it goes that far, up to the data of its own
sheet, and the sum is over the offsets that are left in both.
-/

namespace Spreadsheet

/-! ### Blocks of numbers -/

theorem flatMap_range_of_le {a b : Nat → List α} (h : n ≤ m) (hin : ∀ i < n, a i = b i)
    (hout : ∀ i < m, n ≤ i → b i = []) : (List.range n).flatMap a = (List.range m).flatMap b := by
  obtain ⟨k, rfl⟩ := Nat.exists_eq_add_of_le h
  have hfirst : (List.range n).flatMap a = (List.range n).flatMap b :=
    List.flatMap_congr fun i hi => hin i (List.mem_range.1 hi)
  have hrest : ((List.range k).map (n + ·)).flatMap b = [] := by
    simp only [List.flatMap_eq_nil_iff, List.forall_mem_map, List.mem_range]
    intro i hi
    exact hout (n + i) (Nat.add_lt_add_left hi n) (Nat.le_add_right n i)
  rw [List.range_add, List.flatMap_append, hfirst, hrest, List.append_nil]

theorem filterMap_range_of_le {a b : Nat → Option α} (h : n ≤ m) (hin : ∀ i < n, a i = b i)
    (hout : ∀ i < m, n ≤ i → b i = none) :
    (List.range n).filterMap a = (List.range m).filterMap b := by
  simp only [List.filterMap_eq_flatMap_toList]
  apply flatMap_range_of_le h
  · exact fun i hi => congrArg Option.toList (hin i hi)
  · exact fun i hi hle => congrArg Option.toList (hout i hi hle)

theorem zip_map_range (f : Nat → α) (g : Nat → β) (m n : Nat) :
    ((List.range m).map f).zip ((List.range n).map g) =
      (List.range (min m n)).map fun i => (f i, g i) := by
  apply List.ext_getElem (by simp)
  intro i hi hi'
  simp

namespace Conditional

/-- The numbers that stand in a block, row by row. -/
def addends (height width : Nat) (addend : Nat → Nat → Option Float) : List Float :=
  (List.range height).flatMap fun i => (List.range width).filterMap (addend i)

def sumOver (height width : Nat) (addend : Nat → Nat → Option Float) : Float :=
  (addends height width addend).foldl (· + ·) 0

variable {a b : Nat → Nat → Option Float} {h w m n : Nat}

/-- A block may be made larger by places without numbers. -/
theorem addends_of_le (hm : h ≤ m) (hn : w ≤ n) (hin : ∀ i < h, ∀ j < w, a i j = b i j)
    (hout : ∀ i < m, ∀ j < n, h ≤ i ∨ w ≤ j → b i j = none) :
    addends h w a = addends m n b := by
  apply flatMap_range_of_le hm
  · intro i hi
    apply filterMap_range_of_le hn (hin i hi)
    exact fun j hj hle => hout i (Nat.lt_of_lt_of_le hi hm) j hj (.inr hle)
  · intro i hi hle
    rw [List.filterMap_eq_nil_iff]
    exact fun j hj => hout i hi j (List.mem_range.1 hj) (.inl hle)

theorem sumOver_congr (hab : ∀ i < h, ∀ j < w, a i j = b i j) :
    sumOver h w a = sumOver h w b := by
  have haddends : addends h w a = addends h w b :=
    addends_of_le (Nat.le_refl h) (Nat.le_refl w) hab fun i hi j hj hout => by omega
  rw [sumOver, sumOver, haddends]

theorem contributions_tables (criterion : Criterion) (cell target : Nat → Nat → Value)
    (h w m n : Nat) :
    contributions criterion (table h w cell) (table m n target) =
      addends (min h m) (min w n) fun i j => contribution? criterion (cell i j) (target i j) := by
  rw [contributions, table, table, zip_map_range, List.flatMap_map, addends]
  congr 1
  funext i
  dsimp only
  rw [zip_map_range, List.filterMap_map]
  rfl

theorem contribution?_empty_right (criterion : Criterion) (cell : Value) :
    contribution? criterion cell .empty = none := rfl

theorem contribution?_empty_left {criterion : Criterion} (h : criterion.holds .empty = false)
    (target : Value) : contribution? criterion .empty target = none := by
  cases target with
  | number x => rw [contribution?, h, if_neg Bool.false_ne_true]
  | _ => rfl

/-! ### Blocks of cells side by side -/

variable {source : Source}

theorem run_sumIf {cells criterion : Operand} {q : Query Value} {r s : Reference} {c : Value}
    {ref : RangeRef} (hcells : (cells.query.run source).1 = .ok (.reference r))
    (hc : ((criterion.query >>= Value.read).run source).1 = .ok c)
    (hq : (q.run source).1 = .ok (.reference s))
    (hsame : resized? (.reference r) (.reference s) = some ref) (position : Option Position) :
    ((sumIf position [cells, criterion, .given q]).run source).1 =
      (r.read.run source).1.map Value.toRows >>= fun rows =>
        ((Query.readRange ref).run source).1.map fun targets =>
          .ok (.number ((contributions (Criterion.ofValue c) rows targets).foldl (· + ·) 0)) := by
  rw [Query.run_bind_fst] at hc
  obtain ⟨w, hw, hc⟩ := bind_eq_ok.1 hc
  refine (Query.bind_ends_in hcells).trans ((Query.run_bind_fst _ _).trans ?_)
  change (r.read.run source).1 >>= _ = _
  cases (r.read.run source).1 with
  | error message => rfl
  | ok v =>
    refine (Query.bind_ends_in hw).trans ((Query.bind_ends_in hc).trans ?_)
    refine (Query.run_bind_fst _ _).trans ?_
    change ((summedRows (.reference r) v.toRows (.given q)).run source).1 >>= _ = _
    rw [summedRows_given, Query.bind_ends_in hq, hsame]
    change ((Query.readRange ref).run source).1 >>= _ = _
    cases ((Query.readRange ref).run source).1 <;> rfl

/-- The range that a block is summed over, in the size of `area` from a place on the sheet on. -/
theorem range_of_sameSize? {area target : Range} {s : Reference} {ref : RangeRef}
    (htarget : s.area? = some target) (hrow : target.topLeft.row ≤ maxRow)
    (hcol : target.topLeft.col ≤ maxCol) (hsame : sameSize? area s = some ref) :
    ref.sheet = s.sheet? ∧
      ref.range.topLeft.row = target.topLeft.row ∧ ref.range.topLeft.col = target.topLeft.col ∧
      ref.range.bottomRight.row = min (target.topLeft.row + (area.rowCount - 1)) maxRow ∧
      ref.range.bottomRight.col = min (target.topLeft.col + (area.colCount - 1)) maxCol := by
  rw [sameSize?, htarget] at hsame
  cases hsame
  refine ⟨rfl, ?_⟩
  simp only [Range.ofCorners, Address.relative]
  omega

/-- The number beside the cell at an offset: the one at the same offset from `target`, if it is on
the sheet and the cell meets the criterion. -/
def addend? (criterion : Criterion) (cells targets : List (List Value)) (start target : Address)
    (i j : Nat) : Option Float :=
  if target.row + i ≤ maxRow ∧ target.col + j ≤ maxCol then
    contribution? criterion (Grid.valueAt cells (start.row + i) (start.col + j))
      (Grid.valueAt targets (target.row + i) (target.col + j))
  else none

theorem addend?_congr {target target' : Address} (hrow : target'.row = target.row)
    (hcol : target'.col = target.col) (criterion : Criterion) (cells targets : List (List Value))
    (start : Address) :
    addend? criterion cells targets start target' =
      addend? criterion cells targets start target := by
  funext i j
  rw [addend?, addend?, hrow, hcol]

theorem addend?_eq_none {criterion : Criterion} {cells targets : List (List Value)}
    {start target : Address} {i j : Nat}
    (h : maxRow < target.row + i ∨ targets.length < target.row + i ∨ maxCol < target.col + j ∨
      width targets < target.col + j) :
    addend? criterion cells targets start target i j = none := by
  rw [addend?]
  split
  · have hblank : Grid.valueAt targets (target.row + i) (target.col + j) = .empty := by
      rcases h with h | h | h | h
      · omega
      · exact Grid.valueAt_of_length_lt h
      · omega
      · exact Grid.valueAt_of_width_lt h
    rw [hblank, contribution?_empty_right]
  · rfl

/-- The sum does not go beyond the data of the second sheet. -/
theorem sumOver_data (criterion : Criterion) (cells targets : List (List Value)) (start : Address)
    {target : Address} (hrow : 0 < target.row) (hcol : 0 < target.col) (h w : Nat) :
    sumOver h w (addend? criterion cells targets start target) =
      sumOver (min h targets.length) (min w (width targets))
        (addend? criterion cells targets start target) := by
  have haddends : addends (min h targets.length) (min w (width targets))
        (addend? criterion cells targets start target) =
      addends h w (addend? criterion cells targets start target) := by
    apply addends_of_le (Nat.min_le_left _ _) (Nat.min_le_left _ _) fun i _ j _ => rfl
    intro i hi j hj hout
    apply addend?_eq_none
    omega
  rw [sumOver, sumOver, haddends]

/-- The data of the second sheet that lie beside an area of the first lie beside what is read of
it. -/
def AllBeside (cells targets : List (List Value)) (area target : Range) : Prop :=
  (area.bottomRight.row = maxRow →
    targets.length + area.topLeft.row ≤ cells.length + target.topLeft.row) ∧
  (area.bottomRight.col = maxCol →
    width targets + area.topLeft.col ≤ width cells + target.topLeft.col)

/-- Nothing is missing beside the blanks that are not read, if these are not asked for or there are
no data beside them. -/
theorem addend?_of_not_covers {criterion : Criterion} {cells targets : List (List Value)}
    {area target : Range} {i j : Nat}
    (h : criterion.holds .empty = false ∨ AllBeside cells targets area target)
    (hcovers : Grid.covers cells area i j = false) :
    addend? criterion cells targets area.topLeft target.topLeft i j = none := by
  rw [Grid.covers, Bool.and_eq_false_iff] at hcovers
  rcases h with h | ⟨hrows, hcols⟩
  · have hblank :
        Grid.valueAt cells (area.topLeft.row + i) (area.topLeft.col + j) = .empty := by
      rcases hcovers with hcovers | hcovers
      · exact Grid.valueAt_of_length_lt (Grid.of_not_isRead hcovers).2
      · exact Grid.valueAt_of_width_lt (Grid.of_not_isRead hcovers).2
    rw [addend?, hblank, contribution?_empty_left h, ite_self]
  · apply addend?_eq_none
    rcases hcovers with hcovers | hcovers
    · obtain ⟨hlast, hbehind⟩ := Grid.of_not_isRead hcovers
      have hdata := hrows hlast
      exact .inr (.inl (by omega))
    · obtain ⟨hlast, hbehind⟩ := Grid.of_not_isRead hcovers
      have hdata := hcols hlast
      exact .inr (.inr (.inr (by omega)))

/-- The numbers that two blocks make are those at the offsets that are read of the first one. Of the
second one nothing is missing. -/
theorem contributions_blocks {cells targets : List (List Value)} {area target : Range}
    {s : Reference} {ref : RangeRef} (criterion : Criterion)
    (hcells : cells.length ≤ maxRow ∧ width cells ≤ maxCol)
    (htargets : targets.length ≤ maxRow ∧ width targets ≤ maxCol)
    (htarget : s.area? = some target) (hrow : target.topLeft.row ≤ maxRow)
    (hcol : target.topLeft.col ≤ maxCol) (hsame : sameSize? area s = some ref) :
    contributions criterion (Grid.block cells area) (Grid.block targets ref.range) =
      addends area.rowCount area.colCount fun i j =>
        if Grid.covers cells area i j then
          addend? criterion cells targets area.topLeft target.topLeft i j
        else none := by
  obtain ⟨-, hfirstRow, hfirstCol, hlastRow, hlastCol⟩ :=
    range_of_sameSize? htarget hrow hcol hsame
  rw [Grid.block, Grid.block, contributions_tables, hfirstRow, hfirstCol, hlastRow, hlastCol]
  have hheight := Grid.kept_le area.row_le hcells.1
  have hwidth := Grid.kept_le area.col_le hcells.2
  apply addends_of_le ((Nat.min_le_left _ _).trans hheight) ((Nat.min_le_left _ _).trans hwidth)
  · intro i hi j hj
    obtain ⟨hi, hi'⟩ := Nat.lt_min.1 hi
    obtain ⟨hj, hj'⟩ := Nat.lt_min.1 hj
    have hcovers : Grid.covers cells area i j = true :=
      (Grid.covers_iff (hi.trans_le hheight) (hj.trans_le hwidth)).2 ⟨hi, hj⟩
    have hon : target.topLeft.row + i ≤ maxRow ∧ target.topLeft.col + j ≤ maxCol :=
      ⟨Grid.add_le_of_lt_kept hrow htargets.1 hi', Grid.add_le_of_lt_kept hcol htargets.2 hj'⟩
    rw [hcovers, if_pos rfl, addend?, if_pos hon]
  · intro i hi j hj hout
    split
    · next hcovers =>
      obtain ⟨hi', hj'⟩ := (Grid.covers_iff hi hj).1 hcovers
      apply addend?_eq_none
      rcases hout with hout | hout
      · have hbehind := (min_le_iff.1 hout).resolve_left (Nat.not_le.2 hi')
        have hbeyond := Grid.beyond_of_kept_le hrow (Nat.le_of_lt_succ hi) hbehind
        exact hbeyond.imp_right .inl
      · have hbehind := (min_le_iff.1 hout).resolve_left (Nat.not_le.2 hj')
        have hbeyond := Grid.beyond_of_kept_le hcol (Nat.le_of_lt_succ hj) hbehind
        exact .inr (.inr hbeyond)
    · rfl

end Conditional

/-! ### Calls -/

section

variable {scope : Scope} {source : Source} {R c S : Expr} {r s : Reference}

namespace Conditional

/-- The call of `SUMIF` on the cells, the criterion and the cells to be summed. -/
def summed (R c S : Expr) : Expr := .call "SUMIF" [R, c, S]

theorem run_summed {v : Value} {ref : RangeRef}
    (hfind : scope.functions.find? "SUMIF" = Registry.find? builtins "SUMIF")
    (hR : R.Evaluates scope source (.reference r)) (hc : c.Reads scope source v)
    (hS : S.Evaluates scope source (.reference s))
    (hsame : resized? (.reference r) (.reference s) = some ref) :
    ((evaluate scope (summed R c S)).run source).1 =
      (r.read.run source).1.map Value.toRows >>= fun rows =>
        ((Query.readRange ref).run source).1.map fun targets => Function.close
          (.number ((contributions (Criterion.ofValue v) rows targets).foldl (· + ·) 0)) := by
  have hfind : scope.functions.find? "SUMIF" =
      some (.ofOperands "SUMIF" .math 2 (some 3) sumIf) := hfind
  obtain ⟨cells, hcells, hfirst⟩ := operands_cons scope R
  obtain ⟨criterion, hcriterion, hsecond⟩ := operands_cons scope c
  have hthird : operands scope [S] = [.given (evaluate scope S)] := by
    apply operands_given
    rintro rfl
    cases hS
  rw [Expr.Evaluates, ← hcells] at hR
  rw [Expr.Reads, ← hcriterion] at hc
  rw [summed, evaluate_call hfind, hfirst, hsecond, hthird, Function.call_of_body rfl rfl,
    run_sumIf hR hc hS hsame]
  cases (r.read.run source).1 with
  | error message => rfl
  | ok w => cases ((Query.readRange ref).run source).1 <;> rfl

/-- The sum over the offsets that are read of the first reference. -/
theorem run_summed_grid {g : Grid} {v : Value} {area target : Range}
    (hfind : scope.functions.find? "SUMIF" = Registry.find? builtins "SUMIF")
    (hscalar : g.Scalar) (hfits : g.Fits) (hR : R.Evaluates scope g.source (.reference r))
    (harea : r.area? = some area) (hc : c.Reads scope g.source v)
    (hS : S.Evaluates scope g.source (.reference s)) (htarget : s.area? = some target)
    (hrow : target.topLeft.row ≤ maxRow) (hcol : target.topLeft.col ≤ maxCol) :
    ((evaluate scope (summed R c S)).run g.source).1 =
      g.rows r.sheet? >>= fun cells => (g.rows s.sheet?).map fun targets =>
        Function.close (.number (sumOver area.rowCount area.colCount fun i j =>
          if Grid.covers cells area i j then
            addend? (Criterion.ofValue v) cells targets area.topLeft target.topLeft i j
          else none)) := by
  obtain ⟨ref, hsame⟩ : ∃ ref, sameSize? area s = some ref := by
    rw [sameSize?, htarget]
    exact ⟨_, rfl⟩
  have hresized : resized? (.reference r) (.reference s) = some ref := by
    rw [resized?, harea]
    exact hsame
  have hsheet := (range_of_sameSize? htarget hrow hcol hsame).1
  rw [run_summed hfind hR hc hS hresized, Grid.run_read hscalar hfits harea, Grid.run_readRange,
    hsheet]
  cases hcells : g.rows r.sheet? with
  -- the failures are stated, or else what would have come after them is compared
  | error message => exact (rfl : Except.error message = Except.error message)
  | ok cells =>
    cases htargets : g.rows s.sheet? with
    | error message => exact (rfl : Except.error message = Except.error message)
    | ok targets =>
      have haddends := contributions_blocks (Criterion.ofValue v) (hfits.bounds hcells)
        (hfits.bounds htargets) htarget hrow hcol hsame
      exact congrArg (fun xs : List Float => Except.ok (Function.close (.number
        (xs.foldl (· + ·) 0)))) haddends

end Conditional

open Conditional in
/-- `SUMIF` adds, row by row, the numbers that stand at the same offsets from the top left cell of
the second reference as the cells that are read of the first one and meet the criterion. That is the
sum over all offsets if blanks do not meet the criterion, or if there are no data beside the cells
that are not read. Of the second reference only the sheet and the top left cell matter. -/
theorem sumIf_aligned {json : Json} {g : Grid} {v : Value} {area target : Range}
    (hfind : scope.functions.find? "SUMIF" = Registry.find? builtins "SUMIF")
    (hjson : Grid.ofJson json = .ok g) (hfits : g.Fits)
    (hR : R.Evaluates scope g.source (.reference r)) (harea : r.area? = some area)
    (hc : c.Reads scope g.source v) (hS : S.Evaluates scope g.source (.reference s))
    (htarget : s.area? = some target) (hrow : target.topLeft.row ≤ maxRow)
    (hcol : target.topLeft.col ≤ maxCol) :
    let criterion := Criterion.ofValue v
    let addend (cells targets : List (List Value)) : Nat → Nat → Option Float :=
      addend? criterion cells targets area.topLeft target.topLeft
    let sum (addend : Nat → Nat → Option Float) : Value :=
      Function.close (.number (sumOver area.rowCount area.colCount addend))
    let outcome (S : Expr) : Except String Value :=
      ((evaluate scope (summed R c S)).run g.source).1
    outcome S = (g.rows r.sheet? >>= fun cells => (g.rows s.sheet?).map fun targets =>
      sum fun i j => if Grid.covers cells area i j then addend cells targets i j else none) ∧
    (∀ cells targets, g.rows r.sheet? = .ok cells → g.rows s.sheet? = .ok targets →
      criterion.holds .empty = false ∨ AllBeside cells targets area target →
      outcome S = .ok (sum (addend cells targets))) ∧
    ∀ (S' : Expr) (s' : Reference) (target' : Range),
      S'.Evaluates scope g.source (.reference s') → s'.area? = some target' →
      s'.sheet? = s.sheet? → target'.topLeft.row = target.topLeft.row →
      target'.topLeft.col = target.topLeft.col → outcome S' = outcome S := by
  intro criterion addend sum outcome
  have hscalar := Grid.scalar_of_ofJson hjson
  have houtcome := run_summed_grid hfind hscalar hfits hR harea hc hS htarget hrow hcol
  refine ⟨houtcome, ?_, ?_⟩
  · intro cells targets hcells htargets hbeside
    have hsum : sumOver area.rowCount area.colCount
          (fun i j => if Grid.covers cells area i j then addend cells targets i j else none) =
        sumOver area.rowCount area.colCount (addend cells targets) := by
      apply sumOver_congr
      intro i _ j _
      cases hcovers : Grid.covers cells area i j with
      | true => exact if_pos rfl
      | false => exact (addend?_of_not_covers hbeside hcovers).symm
    rw [hcells, htargets] at houtcome
    exact houtcome.trans (congrArg (fun x => Except.ok (Function.close (.number x))) hsum)
  · intro S' s' target' hS' htarget' hsheet hrow' hcol'
    rw [← hrow'] at hrow
    rw [← hcol'] at hcol
    have houtcome' := run_summed_grid hfind hscalar hfits hR harea hc hS' htarget' hrow hcol
    simp only [addend?_congr hrow' hcol', hsheet] at houtcome'
    exact houtcome'.trans houtcome.symm

open Conditional in
/-- Whole columns of a sheet, of which the cells with data are read. -/
theorem sumIf_aligned_columns :
    let scope : Scope := ⟨builtins, [], none⟩
    let row (m n : Int) : Json := .array [.number (.integer m), .number (.integer n)]
    let json : Json := .object [("", .array [row 1 100, row 5 200, row 10 300])]
    let rows : List (List Value) :=
      [[.number 1, .number 100], [.number 5, .number 200], [.number 10, .number 300]]
    let g : Grid := ⟨[("", rows)]⟩
    let sum (S : Expr) : Expr :=
      summed (.range ⟨none, .columns 1 1⟩) (.literal (.text "<>5")) S
    Grid.ofJson json = .ok g ∧
      (sum (.cell ⟨none, .relative 1 2⟩)).Evaluates scope g.source (.number 400) ∧
      (sum (.range ⟨none, .ofIndices 1 2 7 9⟩)).Evaluates scope g.source (.number 400) := by
  intro scope row json rows g sum
  have hjson : Grid.ofJson json = .ok g := rfl
  have hfits : g.Fits := by
    intro sheet hsheet
    rw [List.mem_singleton.1 hsheet]
    decide
  have hR : (Expr.range ⟨none, .columns 1 1⟩).Evaluates scope g.source
      (.reference (.range ⟨none, .columns 1 1⟩)) := rfl
  have hc : (Expr.literal (.text "<>5")).Reads scope g.source (.text "<>5") := rfl
  have hS : (Expr.cell ⟨none, .relative 1 2⟩).Evaluates scope g.source
      (.reference (.cell ⟨none, .relative 1 2⟩)) := rfl
  obtain ⟨-, hsum, hother⟩ :=
    sumIf_aligned rfl hjson hfits hR rfl hc hS rfl (by decide) (by decide)
  have hvalue : sumOver 1048576 1 (addend? (Criterion.ofValue (.text "<>5")) rows rows
      (.relative 1 1) (.relative 1 2)) = 400 :=
    (sumOver_data _ rows rows _ Nat.one_pos Nat.two_pos 1048576 1).trans rfl
  have hfull := hsum rows rows rfl rfl (.inr ⟨by decide, by decide⟩)
  have hcell : (sum (.cell ⟨none, .relative 1 2⟩)).Evaluates scope g.source (.number 400) :=
    hfull.trans (congrArg (fun x => Except.ok (Function.close (.number x))) hvalue)
  exact ⟨hjson, hcell,
    (hother (.range ⟨none, .ofIndices 1 2 7 9⟩) _ _ rfl rfl rfl rfl rfl).trans hcell⟩

/-! ### A wide row -/

namespace Grid

/-- A sheet with one row: a one, blanks and another number. -/
def wide (blanks : Nat) (x : Float) : List (List Value) :=
  [.number 1 :: (List.replicate blanks .empty ++ [.number x])]

theorem width_wide (n : Nat) (x : Float) : width (wide n x) = n + 2 := by
  simp [width, wide]

theorem valueAt_wide (n : Nat) (x : Float) (j : Nat) :
    valueAt (wide n x) 1 (j + 2) = if j = n then .number x else .empty := by
  simp only [valueAt, wide, List.getElem?_cons_zero, Option.getD_some, List.getElem?_cons_succ]
  rcases Nat.lt_trichotomy j n with hj | rfl | hj
  · rw [List.getElem?_append_left (by simpa using hj), if_neg (Nat.ne_of_lt hj)]
    simp [hj]
  · simp
  · have hlength : (List.replicate n Value.empty ++ [Value.number x]).length ≤ j := by
      rw [List.length_append, List.length_replicate]
      exact hj
    rw [List.getElem?_eq_none hlength, if_neg (Nat.ne_of_gt hj)]
    rfl

/-- The last column of a sheet and the one behind it, of a row that has no more. -/
theorem table_wide (n : Nat) (x : Float) :
    table 1 2 (fun i j => valueAt (wide n x) (1 + i) (16384 + j)) =
      [[if 16382 = n then .number x else .empty, if 16383 = n then .number x else .empty]] := by
  rw [← valueAt_wide n x 16382, ← valueAt_wide n x 16383]
  rfl

theorem rowOf_blanks (sheet : String) (i n : Nat) :
    rowOf sheet i (.array (List.replicate n .null)) = .ok (List.replicate n .empty) := by
  induction n with
  | zero => rfl
  | succ n ih =>
    rw [rowOf, List.replicate_succ, List.mapM_cons]
    exact bind_eq_ok.2 ⟨_, rfl, bind_eq_ok.2 ⟨_, ih, rfl⟩⟩

theorem rowOf_wide (sheet : String) (i n : Nat) (m : Int) :
    rowOf sheet i (.array (.number (.integer 1) ::
      (List.replicate n .null ++ [.number (.integer m)]))) =
      .ok (.number 1 :: (List.replicate n .empty ++ [.number (Float.ofInt m)])) := by
  rw [rowOf, List.mapM_cons, List.mapM_append]
  refine bind_eq_ok.2 ⟨.number 1, rfl, bind_eq_ok.2 ⟨_, ?_, rfl⟩⟩
  exact bind_eq_ok.2 ⟨_, rowOf_blanks sheet i n, rfl⟩

theorem ofJson_wide (n : Nat) (m : Int) :
    ofJson (.object [("", .array [.array (.number (.integer 1) ::
      (List.replicate n .null ++ [.number (.integer m)]))])]) =
      .ok ⟨[("", wide n (Float.ofInt m))]⟩ := by
  have hrows := rowOf_wide "" 1 n m
  refine bind_eq_ok.2 ⟨[("", wide n (Float.ofInt m))], ?_, rfl⟩
  refine bind_eq_ok.2 ⟨("", wide n (Float.ofInt m)), ?_, rfl⟩
  refine bind_eq_ok.2 ⟨wide n (Float.ofInt m), ?_, rfl⟩
  exact bind_eq_ok.2 ⟨_, hrows, rfl⟩

end Grid

namespace Conditional

/-- A cell behind the edge of the sheet, of which the last column is read. -/
theorem evaluates_behind_edge
    (hfind : scope.functions.find? "SUMIF" = Registry.find? builtins "SUMIF") :
    (summed (.range ⟨none, .ofIndices 1 16384 1 16384⟩) (.literal (.number 1))
      (.cell ⟨none, .relative 1 16384⟩)).Evaluates scope
        (Grid.source ⟨[("", Grid.wide 16383 1)]⟩) (.number 1) := by
  have hsame : resized? (.reference (.range ⟨none, .ofIndices 1 16384 1 16384⟩))
      (.reference (.cell ⟨none, .relative 1 16384⟩)) =
        some ⟨none, .ofIndices 1 16384 1 16384⟩ := rfl
  have hblock : Grid.block (Grid.wide 16383 1) (.ofIndices 1 16384 1 16384) =
      [[.empty, .number 1]] := by
    rw [Grid.block, Grid.width_wide]
    exact Grid.table_wide 16383 1
  rw [Expr.Evaluates, run_summed (R := .range _) (S := .cell _) hfind rfl (Expr.reads_number 1) rfl
    hsame, Reference.read, Query.run_map, Grid.run_readRange]
  change Except.ok (Function.close (.number ((contributions _ (Grid.block _ _)
    (Grid.block _ _)).foldl _ _))) = _
  rw [hblock]
  rfl

/-- A range that starts behind the edge of the sheet is turned around at the edge. -/
theorem evaluates_from_behind_edge
    (hfind : scope.functions.find? "SUMIF" = Registry.find? builtins "SUMIF")
    (hS : S.Evaluates scope (Grid.source ⟨[("", Grid.wide 16382 7)]⟩)
      (.reference (.range ⟨none, .columns 16385 16385⟩))) :
    (summed (.cell ⟨none, .relative 1 1⟩) (.literal (.number 1)) S).Evaluates scope
      (Grid.source ⟨[("", Grid.wide 16382 7)]⟩) (.number 7) := by
  have hsame : resized? (.reference (.cell ⟨none, .relative 1 1⟩))
      (.reference (.range ⟨none, .columns 16385 16385⟩)) =
        some ⟨none, .ofIndices 1 16384 1 16385⟩ := rfl
  have hblock : Grid.block (Grid.wide 16382 7) (.ofIndices 1 16384 1 16385) =
      [[.number 7, .empty]] := by
    rw [Grid.block, Grid.width_wide]
    exact Grid.table_wide 16382 7
  rw [Expr.Evaluates, run_summed (R := .cell _) hfind rfl (Expr.reads_number 1) hS hsame,
    Grid.run_readRange]
  change Except.ok (Function.close (.number ((contributions _ [[.number 1]]
    (Grid.block _ _)).foldl _ _))) = _
  rw [hblock]
  rfl

end Conditional

open Conditional in
/-- The sum without the bounds on what is read is another one where blanks that are not read meet
the criterion beside data of another sheet, where a row is wider than a sheet, where the cells to be
summed start beyond the sheet, and where it is not finite. -/
theorem not_sumIf_aligned :
    let scope : Scope :=
      ⟨builtins, [("S", .reference (.range ⟨none, .columns 16385 16385⟩))], none⟩
    let outcome (g : Grid) (R c S : Expr) : Except String Value :=
      ((evaluate scope (summed R c S)).run g.source).1
    let fromJson (g : Grid) : Prop := ∃ json, Grid.ofJson json = .ok g
    let one : Expr := .literal (.number 1)
    let numbers : List (List Value) := [[.number 1], [.number 2], [.number 3]]
    let twoSheets : Grid := ⟨[("", numbers), ("Other", [[.number 5]])]⟩
    let tooWide : Grid := ⟨[("", Grid.wide 16383 1)]⟩
    let asWide : Grid := ⟨[("", Grid.wide 16382 7)]⟩
    let large : Grid :=
      ⟨[("", [[.boolean true, .boolean true], [.number 1e308, .number 1e308]])]⟩
    (fromJson twoSheets ∧
      outcome twoSheets (.range ⟨some "Other", .columns 1 1⟩) (.literal (.text "<>5"))
        (.cell ⟨none, .relative 1 1⟩) = .ok (.number 0) ∧
      sumOver 1048576 1 (addend? (Criterion.ofValue (.text "<>5")) [[.number 5]] numbers
        (.relative 1 1) (.relative 1 1)) = 5) ∧
    (fromJson tooWide ∧
      outcome tooWide (.range ⟨none, .ofIndices 1 16384 1 16384⟩) one
        (.cell ⟨none, .relative 1 16384⟩) = .ok (.number 1) ∧
      sumOver 1 1 (addend? (Criterion.ofValue (.number 1)) (Grid.wide 16383 1) (Grid.wide 16383 1)
        (.relative 1 16384) (.relative 1 16384)) = 0) ∧
    (fromJson asWide ∧
      outcome asWide (.cell ⟨none, .relative 1 1⟩) one (.name "S") = .ok (.number 7) ∧
      sumOver 1 1 (addend? (Criterion.ofValue (.number 1)) (Grid.wide 16382 7) (Grid.wide 16382 7)
        (.relative 1 1) (.relative 1 16385)) = 0) ∧
    fromJson large ∧
      outcome large (.range ⟨none, .ofIndices 1 1 1 2⟩) (.literal (.boolean true))
        (.cell ⟨none, .relative 2 1⟩) = .ok (.error .num) := by
  refine ⟨⟨⟨.object [("", .array [.array [.number (.integer 1)], .array [.number (.integer 2)],
      .array [.number (.integer 3)]]), ("Other", .array [.array [.number (.integer 5)]])], rfl⟩,
      rfl, ?_⟩,
    ⟨⟨_, Grid.ofJson_wide 16383 1⟩, evaluates_behind_edge rfl, ?_⟩,
    ⟨⟨_, Grid.ofJson_wide 16382 7⟩, evaluates_from_behind_edge rfl rfl, rfl⟩,
    ⟨.object [("", .array [.array [.boolean true, .boolean true],
      .array [.number (.decimal 1e308), .number (.decimal 1e308)]])], rfl⟩, ?_⟩
  · exact (sumOver_data _ _ _ _ Nat.one_pos Nat.one_pos 1048576 1).trans rfl
  · have hblank : Grid.valueAt (Grid.wide 16383 1) 1 (16382 + 2) = .empty :=
      (Grid.valueAt_wide 16383 1 16382).trans (if_neg (by decide))
    have hnone : addend? (Criterion.ofValue (.number 1)) (Grid.wide 16383 1) (Grid.wide 16383 1)
        (.relative 1 16384) (.relative 1 16384) 0 0 = none := by
      rw [addend?, if_pos (by decide)]
      exact congrArg (contribution? _ _) hblank
    simp [sumOver, addends, hnone]
  · change Except.ok (Function.close (.number (0 + 1e308 + 1e308))) = _
    have hlarge : (0 + 1e308 + 1e308 : Float).isFinite = false := by decide +kernel
    rw [Function.close, hlarge]
    rfl

end

end Spreadsheet
