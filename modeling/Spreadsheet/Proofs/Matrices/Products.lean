import Spreadsheet.Proofs.Evaluation.Collect
import Spreadsheet.Proofs.Evaluation.Elements
import Spreadsheet.Proofs.Lookups.Addressing

/-!
Products of matrices. An element of a product is the sum of the products of a row and a column,
which `SUMPRODUCT` makes as well, and a transposed product is the product of the transposed factors
the other way round.
-/

namespace Spreadsheet

variable {scope : Scope} {source : Source} {A B : Nat → Nat → Float} {h n m w : Nat}

/-- An array of numbers that are told by their places. -/
def Value.numbers (height width : Nat) (element : Nat → Nat → Float) : Value :=
  .array (table height width fun i j => .number (element i j))

namespace Matrix

/-- The element of a product: the sum of the products of a row of the first matrix and a column of
the second. -/
def dot (n : Nat) (A B : Nat → Nat → Float) (i j : Nat) : Float :=
  Number.sum ((List.range n).map fun k => A i k * B k j)

theorem dot_comm (n : Nat) (A B : Nat → Nat → Float) (i j : Nat) :
    dot n (fun j k => B k j) (fun k i => A i k) j i = dot n A B i j := by
  simp only [dot, float_mul_comm]

/-! ### `MMULT` -/

theorem mapM_ok (xs : List α) : xs.mapM (fun x => (.ok x : Result α)) = .ok xs :=
  List.mapM_pure.trans (congrArg Except.ok (List.map_id xs))

theorem numericRows_numbers (hh : 0 < h) (hn : 0 < n) :
    numericRows (.numbers h n A) = .ok (table h n A) := by
  have hrows : (Value.numbers h n A).toRows =
      (table h n A).map fun row => row.map Value.number := (map_table Value.number).symm
  have hfirst : ((Value.numbers h n A).toRows.headD []).isEmpty = false := by
    change ((table h n fun i j => Value.number (A i j)).headD []).isEmpty = false
    rw [List.isEmpty_eq_false_iff_exists_mem, headD_table hh]
    exact ⟨_, List.mem_map_of_mem (List.mem_range.2 hn)⟩
  unfold numericRows
  dsimp only
  rw [hfirst, if_neg Bool.false_ne_true, hrows]
  simp only [List.mapM_map, Function.comp_def, mapM_ok]

theorem product_table :
    product (table h n A) (table w n fun j k => B k j) = .numbers h w (dot n A B) := by
  simp only [product, Value.numbers, table, List.map_map, Function.comp_def, scalarProduct, dot,
    List.zipWith_map, List.zipWith_self]

theorem mmult_numbers {args : List Argument}
    (hargs : AreArguments args [.numbers h n A, .numbers m w B]) (hh : 0 < h) (hn : 0 < n)
    (hm : 0 < m) (hw : 0 < w) :
    mmult args = if n = m then .ok (.numbers h w (dot n A B)) else .error .value := by
  have hfirst : valueAt args 0 = .ok (.numbers h n A) := hargs.valueAt 0
  have hsecond : valueAt args 1 = .ok (.numbers m w B) := hargs.valueAt 1
  have hfactors : factors args =
      if n = m then .ok (table h n A, table m w B) else .error .value := by
    unfold factors
    rw [hfirst, hsecond]
    change (numericRows (.numbers h n A) >>= fun a => numericRows (.numbers m w B) >>= fun b => do
      if (a.headD []).length != b.length then throw ErrorValue.value
      return (a, b)) = _
    rw [numericRows_numbers hh hn, numericRows_numbers hm hw]
    change (do
      if ((table h n A).headD []).length != (table m w B).length then throw ErrorValue.value
      return (table h n A, table m w B) : Result _) = _
    rw [length_headD_table hh, length_table]
    split
    · next hne => exact (if_neg (bne_iff_ne.1 hne)).symm
    · next heq => exact (if_pos (by simpa using heq)).symm
  rw [mmult_eq, hfactors]
  split
  · next heq =>
    subst heq
    change Except.ok (product (table h n A) (Number.transpose (table n w B))) = _
    rw [transpose_table hn, product_table]
  · rfl

/-! ### `SUMPRODUCT` -/

theorem gather_pair (f g : Nat → α) :
    gather n [(List.range n).map f, (List.range n).map g] =
      (List.range n).map fun k => [f k, g k] := by
  have hnone : List.replicate n ([] : List α) = (List.range n).map fun _ => [] := by simp
  change List.zipWith List.cons _ (List.zipWith List.cons _ (List.replicate n [])) = _
  rw [hnone]
  simp only [List.zipWith_map, List.zipWith_self]

theorem sumProduct_rows {args : List Argument} {x y : Nat → Float}
    (hargs : AreArguments args [.numbers 1 n fun _ => x, .numbers 1 m fun _ => y]) :
    sumProduct args =
      if n = m then .ok (((List.range n).map fun k => x k * y k).foldl (· + ·) 0)
      else .error .value := by
  have hfactors : args.map factorsOf =
      [[(List.range n).map fun k => .ok (x k)], [(List.range m).map fun k => .ok (y k)]] := by
    have hvalues : args.map factorsOf =
        (args.map Argument.value).map fun v => v.toRows.map (·.map factor) := by
      rw [List.map_map]
      rfl
    rw [hvalues, hargs.1]
    simp [Value.numbers, Value.toRows, table, factor, Function.comp_def]
  have hplace (k : Nat) : productOf [.ok (x k), .ok (y k)] = .ok (x k * y k) :=
    congrArg (fun z => Except.ok (z * y k)) (float_one_mul (x k))
  have hproducts : ((List.range n).map fun k => [.ok (x k), .ok (y k)]).mapM productOf =
      .ok ((List.range n).map fun k => x k * y k) := by
    rw [List.mapM_map]
    exact (congrArg (List.mapM · _) (funext hplace)).trans List.mapM_pure
  rw [sumProduct_eq, hfactors, sumOfProducts]
  generalize hrow : (List.range n).map (fun k => (.ok (x k) : Result Float)) = row
  generalize hcolumn : (List.range m).map (fun k => (.ok (y k) : Result Float)) = column
  have hlength : row.length = n := by simp [← hrow]
  have hhave : haveSize (1, n) [[row], [column]] = decide (n = m) := by
    rw [Bool.eq_iff_iff, haveSize_iff]
    simp [← hrow, ← hcolumn, eq_comm]
  have hsize : size [[row], [column]] = (1, n) := by simp [size, hlength]
  rw [hsize, hhave]
  by_cases h : n = m
  · subst h
    have hgather : gather (1 * n) ([[row], [column]].map List.flatten) =
        (List.range n).map fun k => [.ok (x k), .ok (y k)] := by
      simp [← hrow, ← hcolumn, gather_pair]
    rw [if_pos rfl]
    dsimp only
    rw [hgather, hproducts]
    simp
  · rw [if_neg h, decide_eq_false h]
    rfl

/-! ### Calls -/

section

variable {a b : Expr}

/-- The call of `MMULT` on two arrays. -/
def multiplied (a b : Expr) : Expr := .call "MMULT" [a, b]

/-- The call of `SUMPRODUCT` on two arrays. -/
def summedProducts (a b : Expr) : Expr := .call "SUMPRODUCT" [a, b]

theorem evaluates_multiplied
    (hfind : scope.functions.find? "MMULT" = Registry.find? builtins "MMULT")
    (ha : a.Reads scope source (.numbers h n A)) (hb : b.Reads scope source (.numbers m w B))
    (hh : 0 < h) (hn : 0 < n) (hm : 0 < m) (hw : 0 < w) :
    (multiplied a b).Evaluates scope source
      (if n = m then .numbers h w (dot n A B) else .error .value) := by
  have hfind : scope.functions.find? "MMULT" =
      some (.ofValues "MMULT" .math 2 (some 2) mmult) := hfind
  have hcall := evaluates_call hfind rfl rfl (.cons ha (.cons hb .nil))
    (by simp [Value.numbers, Value.isPlain])
    fun args hargs => mmult_numbers hargs hh hn hm hw
  split at hcall
  · next heq => exact (if_pos heq).symm ▸ hcall
  · next hne => exact (if_neg hne).symm ▸ hcall

theorem evaluates_summedProducts {x y : Nat → Float}
    (hfind : scope.functions.find? "SUMPRODUCT" = Registry.find? builtins "SUMPRODUCT")
    (ha : a.Reads scope source (.numbers 1 n fun _ => x))
    (hb : b.Reads scope source (.numbers 1 m fun _ => y)) :
    (summedProducts a b).Evaluates scope source
      (if n = m then
        Function.close (.number (((List.range n).map fun k => x k * y k).foldl (· + ·) 0))
      else .error .value) := by
  have hfind : scope.functions.find? "SUMPRODUCT" =
      some (.ofNumbers "SUMPRODUCT" .math 1 none sumProduct) := hfind
  have hcall := evaluates_call hfind rfl rfl (.cons ha (.cons hb .nil))
    (by simp [Value.numbers, Value.isPlain])
    fun args hargs => congrArg (Value.number <$> ·) (sumProduct_rows hargs)
  split at hcall
  · next heq => exact (if_pos heq).symm ▸ hcall
  · next hne => exact (if_neg hne).symm ▸ hcall

end

end Matrix

open Lookup in
/-- `MMULT` makes the array of the sums of products of rows and columns, which transposed is the
product of the transposed factors the other way round. `SUMPRODUCT` of the row and the transposed
column is the same sum if that is finite, but for the sign of a zero. Where the first array is not
as wide as the second is high, all of them are `#VALUE!`. -/
theorem matrix_product {a b : Expr}
    (hindex : scope.functions.find? "INDEX" = Registry.find? builtins "INDEX")
    (htranspose : scope.functions.find? "TRANSPOSE" = Registry.find? builtins "TRANSPOSE")
    (hmmult : scope.functions.find? "MMULT" = Registry.find? builtins "MMULT")
    (hsumProduct : scope.functions.find? "SUMPRODUCT" = Registry.find? builtins "SUMPRODUCT")
    (ha : a.Reads scope source (.numbers h n A)) (hb : b.Reads scope source (.numbers m w B))
    (hh : 0 < h) (hn : 0 < n) (hm : 0 < m) (hw : 0 < w) :
    let product := Matrix.multiplied a b
    let transposed := Matrix.multiplied (Matrix.transposed b) (Matrix.transposed a)
    let sum (zero i j : Expr) : Expr :=
      Matrix.summedProducts (indexed a [i, zero]) (Matrix.transposed (indexed b [zero, j]))
    (n = m →
      product.Evaluates scope source (.numbers h w (Matrix.dot n A B)) ∧
      transposed.Evaluates scope source (.numbers w h fun j i => Matrix.dot n A B i j) ∧
      (Matrix.transposed product).Evaluates scope source
        (.numbers w h fun j i => Matrix.dot n A B i j)) ∧
    (n ≠ m →
      product.Evaluates scope source (.error .value) ∧
      transposed.Evaluates scope source (.error .value)) ∧
    ∀ (zero i j : Expr) (r c : Nat), zero.Counts scope source 0 → i.Counts scope source (r + 1) →
      j.Counts scope source (c + 1) → r < h → c < w →
      (n = m → (Matrix.dot n A B r c).isFinite = true →
        ∃ x, (sum zero i j).Evaluates scope source (.number x) ∧
          (x = Matrix.dot n A B r c ∨ x = 0 ∧ Matrix.dot n A B r c = -0.0)) ∧
      (n = m → (Matrix.dot n A B r c).isFinite = false →
        (sum zero i j).Evaluates scope source (.error .num)) ∧
      (n ≠ m → (sum zero i j).Evaluates scope source (.error .value)) := by
  intro product transposed sum
  have hreads {e : Expr} {h w : Nat} {E : Nat → Nat → Float}
      (he : e.Evaluates scope source (.numbers h w E)) : e.Reads scope source (.numbers h w E) :=
    he.reads nofun
  have hproduct := Matrix.evaluates_multiplied hmmult ha hb hh hn hm hw
  have hat : (Matrix.transposed a).Reads scope source (.numbers n h fun k i => A i k) :=
    hreads (Matrix.evaluates_transposed htranspose ha hh)
  have hbt : (Matrix.transposed b).Reads scope source (.numbers w m fun j k => B k j) :=
    hreads (Matrix.evaluates_transposed htranspose hb hm)
  have htransposed := Matrix.evaluates_multiplied hmmult hbt hat hw hm hn hh
  refine ⟨?_, ?_, ?_⟩
  · rintro rfl
    have hdot : Matrix.dot n (fun j k => B k j) (fun k i => A i k) =
        fun j i => Matrix.dot n A B i j := funext₂ fun j i => Matrix.dot_comm n A B i j
    rw [if_pos rfl] at hproduct htransposed
    rw [hdot] at htransposed
    exact ⟨hproduct, htransposed, Matrix.evaluates_transposed htranspose (hreads hproduct) hh⟩
  · intro hne
    rw [if_neg hne] at hproduct
    rw [if_neg (Ne.symm hne)] at htransposed
    exact ⟨hproduct, htransposed⟩
  · intro zero i j r c hzero hi hj hr hc
    have hrow : (indexed a [i, zero]).Reads scope source (.numbers 1 n fun _ => A r) :=
      hreads (evaluates_row hindex ha hi hzero hr)
    have hcolumn : (indexed b [zero, j]).Reads scope source (.numbers m 1 fun k _ => B k c) :=
      hreads (evaluates_column hindex hb hzero hj hm hc)
    have hcolumn' : (Matrix.transposed (indexed b [zero, j])).Reads scope source
        (.numbers 1 m fun _ k => B k c) :=
      hreads (Matrix.evaluates_transposed htranspose hcolumn hm)
    have hsum := Matrix.evaluates_summedProducts hsumProduct hrow hcolumn'
    have hzeros := foldl_add_zeros ((List.range n).map fun k => A r k * B k c)
    change _ = Matrix.dot n A B r c ∨ _ ∧ Matrix.dot n A B r c = -0.0 at hzeros
    generalize ((List.range n).map fun k => A r k * B k c).foldl (· + ·) 0 = x at hsum hzeros
    refine ⟨?_, ?_, fun hne => ?_⟩
    · intro heq hfinite
      rw [if_pos heq, Function.close] at hsum
      refine ⟨x, ?_, hzeros⟩
      have hx : x.isFinite = true := by
        rcases hzeros with rfl | ⟨rfl, -⟩
        · exact hfinite
        · rfl
      rw [if_pos hx] at hsum
      exact hsum
    · intro heq hfinite
      rw [if_pos heq, Function.close] at hsum
      rcases hzeros with rfl | ⟨-, hzero⟩
      · rw [if_neg (by rw [hfinite]; exact Bool.false_ne_true)] at hsum
        exact hsum
      · rw [hzero] at hfinite
        cases hfinite
    · rw [if_neg hne] at hsum
      exact hsum

theorem matrix_product_column :
    let scope : Scope := ⟨builtins, [], none⟩
    let a : Expr := .array [[.number 1, .number 2], [.number 3, .number 4]]
    let b : Expr := .array [[.number 5], [.number 6]]
    let index (n : Nat) : Expr := .literal (.number (Float.ofNat n))
    (Matrix.multiplied a b).Evaluates scope .zero (.array [[.number 17], [.number 39]]) ∧
      (Matrix.summedProducts (Lookup.indexed a [index 2, index 0])
        (Matrix.transposed (Lookup.indexed b [index 0, index 1]))).Evaluates scope .zero
        (.number 39) := by
  intro scope a b index
  let A (i k : Nat) : Float := Float.ofNat (2 * i + k + 1)
  let B (k _ : Nat) : Float := Float.ofNat (k + 5)
  have ha : a.Reads scope .zero (.numbers 2 2 A) := rfl
  have hb : b.Reads scope .zero (.numbers 2 1 B) := rfl
  have hcounts (n : Nat) (h : n < 2 ^ 53) : (index n).Counts scope .zero n := Expr.counts_ofNat h
  obtain ⟨hequal, -, hsums⟩ := matrix_product rfl rfl rfl rfl ha hb Nat.two_pos Nat.two_pos
    Nat.two_pos Nat.one_pos
  obtain ⟨hproduct, -, -⟩ := hequal rfl
  obtain ⟨hfinite, -, -⟩ := hsums (index 0) (index 2) (index 1) 1 0 (hcounts 0 (by decide))
    (hcounts 2 (by decide)) (hcounts 1 (by decide)) Nat.one_lt_two Nat.one_pos
  have hdot : Matrix.dot 2 A B 1 0 = 39 := by decide
  have hdot' : Matrix.dot 2 A B 0 0 = 17 := by decide
  have hrows : Value.numbers 2 1 (Matrix.dot 2 A B) = .array [[.number 17], [.number 39]] := by
    change Value.array [[.number (Matrix.dot 2 A B 0 0)], [.number (Matrix.dot 2 A B 1 0)]] = _
    rw [hdot, hdot']
  rw [hrows] at hproduct
  rw [hdot] at hfinite
  obtain ⟨x, hsum, rfl | ⟨-, hzero⟩⟩ := hfinite rfl rfl
  · exact ⟨hproduct, hsum⟩
  · exact absurd hzero (by decide)

end Spreadsheet
