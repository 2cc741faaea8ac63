import Spreadsheet.Proofs.Arithmetic.Calls
import Spreadsheet.Proofs.Places.Order

/-!
Calls of `ROUND`, `ROUNDDOWN` and `ROUNDUP`.
-/

namespace Spreadsheet

open Number (roundDecimal)
open Number.Scaled (Opposite Strategy)

variable {scope : Scope} {source : Source} {name : String} {number opposite digits : Expr}
  {strategy : Strategy} {x y d : Float} {r s : Option Float} {v w : ℚ}

/-! ### Opposite numbers -/

namespace Number.Scaled.Opposite

theorem symm (h : Opposite x y) : Opposite y x := by
  obtain rfl | ⟨rfl, rfl⟩ := h
  · exact .inl (float_neg_neg x).symm
  · exact .inr ⟨rfl, rfl⟩

theorem represents (h : Opposite x y) (hx : Represents x v) : Represents y (-v) := by
  obtain rfl | ⟨rfl, rfl⟩ := h
  · exact hx.neg
  · rw [hx.unique represents_zero_literal, neg_zero]
    exact represents_zero_literal

theorem isFinite_eq (h : Opposite x y) : y.isFinite = x.isFinite := by
  have hfinite {x y : Float} (h : Opposite x y) (hx : x.isFinite = true) :
      y.isFinite = true := by
    obtain ⟨v, hv⟩ := exists_represents hx
    exact (h.represents hv).isFinite
  rw [Bool.eq_iff_iff]
  exact ⟨hfinite h.symm, hfinite h⟩

end Number.Scaled.Opposite

theorem Represents.eq_neg (hx : Represents x v) (hy : Represents y (-v)) (hv : v ≠ 0) : y = -x :=
  hy.eq_of_ne_zero hx.neg (neg_ne_zero.2 hv)

theorem Represents.exists_zero (hx : Represents x 0) : ∃ s, x.toModel.unpack = .zero s := by
  obtain rfl | rfl := hx.eq_or_of_zero
  · exact ⟨.positive, rfl⟩
  · exact ⟨.negative, rfl⟩

/-- Floats for opposite numbers are rounded to opposite numbers, also where both are zeros. -/
theorem Number.roundDecimal_opposite (strategy : Strategy) (d : Float) (hx : Represents x v)
    (hy : Represents y (-v)) :
    Option.Rel Opposite (roundDecimal strategy x d) (roundDecimal strategy y d) := by
  by_cases hv : v = 0
  · rw [hv] at hx hy
    rw [neg_zero] at hy
    obtain ⟨s, hx⟩ := hx.exists_zero
    obtain ⟨t, hy⟩ := hy.exists_zero
    rw [roundDecimal_zero hx, roundDecimal_zero hy]
    exact .some (.inr ⟨rfl, rfl⟩)
  · rw [hx.eq_neg hy hv]
    exact roundDecimal_neg strategy x d

/-! ### Calls -/

namespace Rounding

/-- The value of a call that rounds a number. -/
def placed (r : Option Float) : Value :=
  Function.close (.ofResult (Value.number <$> orError .num r))

theorem evaluates_places
    (hfind : scope.functions.find? name = some (.ofNumbers name .math 2 (some 2) (places strategy)))
    (hnumber : number.Reads scope source (.number x))
    (hdigits : digits.Reads scope source (.number d)) :
    (Expr.call name [number, digits]).Evaluates scope source
      (placed (roundDecimal strategy x d)) := by
  refine evaluates_numbers hfind rfl (.cons hnumber (.cons hdigits .nil)) fun args hargs => ?_
  rw [places, hargs.numberAt rfl, hargs.numberAt rfl]
  rfl

theorem placed_some (y : Float) :
    placed (some y) = if y.isFinite then .number y else .error .num := rfl

theorem eq_of_placed (h : placed r = .number y) : r = some y ∧ y.isFinite = true := by
  cases r with
  | none => cases h
  | some x =>
    rw [placed_some] at h
    split at h
    · next hx =>
      cases h
      exact ⟨rfl, hx⟩
    · cases h

/-- Opposite results are told by opposite numbers, or both are errors. -/
theorem placed_opposite (h : Option.Rel Opposite r s) :
    (∃ x y w, placed r = .number x ∧ Represents x w ∧ placed s = .number y ∧
      Represents y (-w)) ∨ placed r = .error .num ∧ placed s = .error .num := by
  cases h with
  | none => exact .inr ⟨rfl, rfl⟩
  | @some x y h =>
    have hsame := h.isFinite_eq
    rw [placed_some, placed_some, hsame]
    by_cases hx : x.isFinite = true
    · obtain ⟨w, hw⟩ := exists_represents hx
      rw [if_pos hx, if_pos hx]
      exact .inl ⟨x, y, w, rfl, hw, rfl, h.represents hw⟩
    · rw [if_neg hx, if_neg hx]
      exact .inr ⟨rfl, rfl⟩

theorem rounded_of_yields
    (hfind : scope.functions.find? name = some (.ofNumbers name .math 2 (some 2) (places strategy)))
    (hnumber : number.Reads scope source (.number x))
    (hdigits : digits.Reads scope source (.number d))
    (h : (Expr.call name [number, digits]).Yields scope source w) :
    ∃ y, roundDecimal strategy x d = some y ∧ Represents y w := by
  obtain ⟨y, hy, hcall⟩ := h
  have hplaced := evaluates_places hfind hnumber hdigits
  rw [Expr.Evaluates, hcall, Except.ok.injEq] at hplaced
  exact ⟨y, (eq_of_placed hplaced.symm).1, hy⟩

theorem yields_le {name' : String} {strategy' : Strategy} (hwithin : strategy.Within strategy')
    (hfind : scope.functions.find? name = some (.ofNumbers name .math 2 (some 2) (places strategy)))
    (hfind' : scope.functions.find? name' =
      some (.ofNumbers name' .math 2 (some 2) (places strategy')))
    (hx : Represents x v) (hv : 0 ≤ v) (hnumber : number.Reads scope source (.number x))
    (hdigits : digits.Reads scope source (.number d)) {a b : ℚ}
    (ha : (Expr.call name [number, digits]).Yields scope source a)
    (hb : (Expr.call name' [number, digits]).Yields scope source b) : a ≤ b := by
  obtain ⟨y, hy, hya⟩ := rounded_of_yields hfind hnumber hdigits ha
  obtain ⟨z, hz, hzb⟩ := rounded_of_yields hfind' hnumber hdigits hb
  exact (hya.le_iff hzb).1 (Number.roundDecimal_le hwithin hx hv hy hya.isFinite hz hzb.isFinite)

/-- A call and the one beside it with the opposite number yield opposite numbers, or are both
errors. -/
theorem yields_opposite
    (hfind : scope.functions.find? name = some (.ofNumbers name .math 2 (some 2) (places strategy)))
    (hnumber : number.ReadsAs scope source v) (hopposite : opposite.ReadsAs scope source (-v))
    (hdigits : digits.Reads scope source (.number d)) :
    (∃ w, (Expr.call name [number, digits]).Yields scope source w ∧
      (Expr.call name [opposite, digits]).Yields scope source (-w)) ∨
    (Expr.call name [number, digits]).Evaluates scope source (.error .num) ∧
      (Expr.call name [opposite, digits]).Evaluates scope source (.error .num) := by
  obtain ⟨x, hx, hnumber⟩ := hnumber
  obtain ⟨y, hy, hopposite⟩ := hopposite
  have hcall := evaluates_places hfind hnumber hdigits
  have hcall' := evaluates_places hfind hopposite hdigits
  obtain ⟨a, b, w, ha, haw, hb, hbw⟩ | ⟨ha, hb⟩ :=
    placed_opposite (Number.roundDecimal_opposite strategy d hx hy)
  · rw [ha] at hcall
    rw [hb] at hcall'
    exact .inl ⟨w, ⟨a, haw, hcall⟩, b, hbw, hcall'⟩
  · rw [ha] at hcall
    rw [hb] at hcall'
    exact .inr ⟨hcall, hcall'⟩

end Rounding

end Spreadsheet
