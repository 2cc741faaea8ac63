import Spreadsheet.Proofs.Places.Calls
import Spreadsheet.Proofs.Places.Readings

/-!
Numbers that are rounded to zero at a place left of the point. A strategy clears what is below a
part of the unit, all of it toward zero and a half of it to nearest; so a number below that part of
the power of ten vanishes, unless it is taken for the bound itself.
-/

namespace Spreadsheet

variable {x y digits : Float} {v p : ℚ} {r s : Option Float} {c m n k : Nat}

namespace Number

open Float.Model.UnpackedFloat (Sign)
open Scaled (Strategy)

/-! ### Zero results -/

/-- The result is a number, and that is zero. -/
def Vanishes (r : Option Float) : Prop := ∃ y, r = some y ∧ Represents y 0

theorem vanishes_some : Vanishes (some y) ↔ Represents y 0 := by
  constructor
  · rintro ⟨z, hz, hzero⟩
    cases hz
    exact hzero
  · exact fun h => ⟨y, rfl, h⟩

theorem not_vanishes_none : ¬ Vanishes none := by
  rintro ⟨y, hy, -⟩
  cases hy

theorem signed_represents_zero_iff (sign : Sign) :
    Represents (signed sign x) 0 ↔ Represents x 0 := by
  have hneg {x : Float} (h : Represents x 0) : Represents (-x) 0 := neg_zero (G := ℚ) ▸ h.neg
  cases sign with
  | positive => rfl
  | negative =>
    refine ⟨fun h => ?_, hneg⟩
    have hback := hneg h
    rwa [signed, float_neg_neg] at hback

theorem ofNat_represents_zero_iff : Represents (Float.ofNat n) 0 ↔ n = 0 := by
  constructor
  · intro h
    by_contra hn
    have hle : Float.ofNat 1 ≤ Float.ofNat n := ofNat_le_ofNat (Nat.pos_of_ne_zero hn)
    have hone := (represents_one.le_iff h).1 hle
    norm_num at hone
  · rintro rfl
    exact_mod_cast represents_ofNat (Nat.zero_le _)

/-! ### Strategies -/

namespace Scaled

variable {d : Scaled} {strategy : Strategy} {sign : Sign}

/-- The strategy picks 0 just for the numbers below the `c`th part of 1. -/
structure Strategy.Clears (strategy : Strategy) (c : Nat) : Prop where
  factor : c = 1 ∨ c = 2
  part_eq_zero_iff : ∀ v, strategy.part v = 0 ↔ c * v < 1

theorem Strategy.towardZero_clears : Clears .towardZero 1 := by
  refine ⟨.inl rfl, fun v => ?_⟩
  rw [Nat.cast_one, one_mul]
  exact Nat.floor_eq_zero

theorem Strategy.nearest_clears : Clears .nearest 2 := by
  refine ⟨.inr rfl, fun v => ?_⟩
  have hsum : v + 1 / 2 < 1 ↔ ((2 : Nat) : ℚ) * v < 1 := by
    push_cast
    constructor <;> intro h <;> linarith
  rw [← hsum]
  exact Nat.floor_eq_zero

namespace Strategy.Clears

variable (h : strategy.Clears c)

include h

theorem pos : 0 < c := by
  obtain rfl | rfl := h.factor <;> decide

theorem ne_awayFromZero : strategy ≠ .awayFromZero := by
  rintro rfl
  have hpart : ⌈(1 : ℚ) / 4⌉₊ = 0 := by
    refine (h.part_eq_zero_iff (1 / 4)).2 ?_
    obtain rfl | rfl := h.factor <;> norm_num
  norm_num at hpart

theorem quotient_eq_zero_iff (hk : 0 < k) : strategy.quotient m k = 0 ↔ c * m < k := by
  have hk' : (0 : ℚ) < k := by exact_mod_cast hk
  rw [strategy.settles.rule_eq m k hk, h.part_eq_zero_iff, ← mul_div_assoc, div_lt_one hk']
  exact_mod_cast Iff.rfl

end Strategy.Clears

/-! ### Decimals -/

theorem toFloat_whole_vanishes : Represents (toFloat ⟨sign, n, 0⟩) 0 ↔ n = 0 := by
  rw [toFloat, if_pos rfl]
  split
  · next hn => exact iff_of_true represents_zero_literal hn
  · rw [signed_represents_zero_iff, ofNat_represents_zero_iff]

theorem roundTo_vanishes (h : strategy.Clears c) (d : Scaled) :
    Represents (d.roundTo strategy 0).toFloat 0 ↔ c * d.mantissa < 10 ^ d.scale := by
  obtain ⟨sign, m, scale⟩ := d
  dsimp only
  rcases Nat.eq_zero_or_pos scale with rfl | hscale
  · have hpos := h.pos
    rw [roundTo, if_pos (Nat.le_refl 0), toFloat_whole_vanishes, pow_zero, Nat.lt_one_iff,
      Nat.mul_eq_zero]
    omega
  · rw [roundTo_of_lt strategy hscale, toFloat_whole_vanishes]
    exact h.quotient_eq_zero_iff (Nat.pow_pos (by decide))

/-- There is room for the zeros behind a decimal that vanishes. -/
theorem shiftLeft?_vanishes (h : strategy.Clears c) (hscale : 0 < d.scale) :
    Vanishes (((d.roundTo strategy 0).shiftLeft? k).map toFloat) ↔
      c * d.mantissa < 10 ^ d.scale := by
  have hquotient : strategy.quotient d.mantissa (10 ^ d.scale) = 0 ↔
      c * d.mantissa < 10 ^ d.scale := h.quotient_eq_zero_iff (Nat.pow_pos (by decide))
  rw [roundTo_of_lt strategy hscale, Nat.sub_zero, ← hquotient]
  generalize strategy.quotient d.mantissa (10 ^ d.scale) = q
  have hten : 0 < Nat.pow 10 k := Nat.pow_pos (by decide)
  rw [shiftLeft?]
  dsimp only
  split
  · rw [Option.map_some, vanishes_some, toFloat_whole_vanishes, Nat.mul_eq_zero]
    omega
  · next hroom =>
    refine iff_of_false not_vanishes_none ?_
    rintro rfl
    rw [Nat.zero_mul] at hroom
    exact hroom (by decide)

/-- Places that a decimal loses when it is divided are far below the place where it is rounded. -/
theorem shiftRight_vanishes (h : strategy.Clears c) (hk : 0 < k) (hk' : k ≤ maxScale)
    (hfits : Fits d.mantissa d.scale) :
    Vanishes ((((d.shiftRight k).roundTo strategy 0).shiftLeft? k).map toFloat) ↔
      c * d.mantissa < 10 ^ (d.scale + k) := by
  by_cases hscale : d.scale + k ≤ maxScale
  · rw [shiftRight, if_pos hscale]
    exact shiftLeft?_vanishes h (Nat.add_pos_right d.scale hk)
  · have hm : d.mantissa < 2 ^ 52 := hfits.resolve_left (by omega)
    have hc : c ≤ 2 := by
      obtain rfl | rfl := h.factor <;> decide
    have hsmall : c * (d.mantissa + 1) < 10 ^ 28 := by
      calc c * (d.mantissa + 1) ≤ 2 * 2 ^ 52 := Nat.mul_le_mul hc hm
        _ < 10 ^ 28 := by decide
    rw [shiftRight, if_neg hscale, shiftLeft?_vanishes h (show 0 < maxScale by decide)]
    dsimp only
    refine iff_of_true (lt_of_le_of_lt (Nat.mul_le_mul_left c ?_) hsmall) ?_
    · have hlow : d.mantissa / Nat.pow 10 (d.scale + k - maxScale) ≤ d.mantissa :=
        Nat.div_le_self _ _
      split <;> omega
    · calc c * d.mantissa ≤ c * (d.mantissa + 1) := Nat.mul_le_mul_left c (Nat.le_succ _)
        _ < 10 ^ 28 := hsmall
        _ ≤ 10 ^ (d.scale + k) := Nat.pow_le_pow_right (by decide) (not_le.1 hscale).le

end Scaled

/-! ### Large numbers -/

theorem roundHuge_vanishes {strategy : Strategy} (h : strategy.Clears c) (hx : Represents x v)
    (hv : 0 ≤ v) (hpower : Represents (powerOfTen k) p) (hone : 1 ≤ p) :
    Represents (roundHuge strategy k x) 0 ↔ c * v < p := by
  obtain ⟨w, -, hw, hresult⟩ := exists_isRounding_roundHuge hx hv hpower hone
  have hresult := hresult strategy
  rw [← hw.mul_lt_one_iff h.factor hx.fewDigits hpower.fewDigits hv (zero_lt_one.trans_le hone),
    ← h.part_eq_zero_iff]
  constructor
  · intro hzero
    by_contra hne
    have hunit : (1 : ℚ) ≤ strategy.part w := by exact_mod_cast Nat.pos_of_ne_zero hne
    obtain ⟨u, hu, hxu⟩ := hresult.exists_of_isFinite hzero.isFinite
    have hlarge := (Rounds.of_fewDigits .one).mono hu (one_le_mul_of_one_le_of_one_le hunit hone)
    rw [← hzero.unique hxu] at hlarge
    exact not_lt.2 hlarge zero_lt_one
  · intro hzero
    rw [hzero, Nat.cast_zero, zero_mul] at hresult
    exact hresult.represents .zero (by rw [abs_zero]; exact two_zpow_pos _)

/-! ### Digits -/

theorem clampDigits_eq (hdigits : Represents digits (-k)) :
    clampDigits digits = -(min k 400 : Nat) := by
  have habs : Represents digits.abs k := by
    have habs := hdigits.abs
    rwa [abs_neg, Nat.abs_cast] at habs
  have hmin : min (toNat64 digits.abs) 400 = min k 400 := by
    refine eq_of_forall_le_iff fun n => ?_
    rw [le_min_iff, le_min_iff, and_congr_left_iff]
    intro hn
    rcases Nat.eq_zero_or_pos n with rfl | hpos
    · exact iff_of_true (Nat.zero_le _) (Nat.zero_le _)
    · rw [← ofNat_le_iff hpos (hn.trans (by decide)),
        (represents_ofNat (hn.trans (by decide))).le_iff habs, Nat.cast_le]
  have hneg : digits < 0 ↔ 0 < k := by
    rw [hdigits.lt_iff represents_zero_literal, neg_lt_zero, Nat.cast_pos]
  rw [clampDigits, hmin]
  split
  · rfl
  · next hzero =>
    rw [hneg, Nat.pos_iff_ne_zero, not_not] at hzero
    rw [hzero]
    rfl

theorem clampDigits_succ (hdigits : Represents digits (-(k + 1 : Nat))) :
    clampDigits digits = .negSucc (min k 399) := by
  rw [clampDigits_eq hdigits, Int.negSucc_eq]
  omega

/-! ### Numbers of all sizes -/

variable {strategy : Strategy}

theorem vanishes_of_opposite (h : Option.Rel Scaled.Opposite r s) : Vanishes r ↔ Vanishes s := by
  cases h with
  | none => rfl
  | some h =>
    have hzero {x y : Float} (h : Scaled.Opposite x y) (hx : Represents x 0) : Represents y 0 :=
      neg_zero (G := ℚ) ▸ h.represents hx
    rw [vanishes_some, vanishes_some]
    exact ⟨hzero h, hzero h.symm⟩

/-- Whether a number vanishes does not depend on its sign. -/
theorem vanishes_abs (hx : Represents x v) : Vanishes (roundDecimal strategy x digits) ↔
    Vanishes (roundDecimal strategy x.abs digits) := by
  rcases le_total 0 v with hv | hv
  · have habs : Represents x.abs v := abs_of_nonneg hv ▸ hx.abs
    exact (vanishes_of_opposite (roundDecimal_opposite strategy digits hx hx.neg)).trans
      (vanishes_of_opposite (roundDecimal_opposite strategy digits habs hx.neg)).symm
  · have habs : Represents x.abs (-v) := abs_of_nonpos hv ▸ hx.abs
    exact vanishes_of_opposite (roundDecimal_opposite strategy digits hx habs)

/-- A number that has a decimal vanishes below its bound, unless it reaches that. -/
theorem vanishes_iff_not_reaches (h : strategy.Clears c) (hx : Represents x v) (hv : 0 ≤ v)
    (hdigits : Represents digits (-k)) (hsmall : v < 2 ^ 96) (hlt : c * v < 10 ^ k) :
    Vanishes (roundDecimal strategy x digits) ↔ ¬ Scaled.Reaches k (10 ^ k / c) v := by
  have habs : |v| = v := abs_of_nonneg hv
  obtain ⟨d, hd⟩ : ∃ d, Scaled.ofFloat? x = some d := by
    rw [← Option.ne_none_iff_exists', ne_eq, Scaled.ofFloat?_eq_none_iff hx, habs]
    exact not_le.2 hsmall
  have hread := Scaled.ofFloat?_lt_iff h.factor hx (by rwa [habs]) hd
  have hfits := (Scaled.ofFloat?_fits hx hv hd).2
  rw [habs] at hread
  rw [← hread, Nat.add_comm k, roundDecimal, hd]
  cases k with
  | zero =>
    rw [clampDigits_eq hdigits]
    change Vanishes (some (d.roundTo strategy 0).toFloat) ↔ c * d.mantissa < 10 ^ d.scale
    rw [vanishes_some, Scaled.roundTo_vanishes h]
  | succ k =>
    rw [clampDigits_succ hdigits]
    dsimp only
    split
    · next hk =>
      rw [Scaled.maxScale] at hk
      refine iff_of_true ?_ ?_
      · rw [decide_eq_false h.ne_awayFromZero, Bool.false_and, if_neg Bool.false_ne_true]
        exact vanishes_some.2 represents_zero_literal
      · rw [Nat.add_comm]
        refine hread.2 fun hreaches => ?_
        have hplaces := hreaches.1
        omega
    · next hk =>
      have hplaces : min k 399 = k := by
        rw [Scaled.maxScale] at hk
        omega
      rw [hplaces] at hk ⊢
      exact Scaled.shiftRight_vanishes h k.succ_pos (not_lt.1 hk) hfits

/-- A number that has no decimal vanishes below its bound, unless it is the float for that. -/
theorem vanishes_iff_ne (h : strategy.Clears c) (hx : Represents x v) (hlarge : 2 ^ 96 ≤ v)
    (hdigits : Represents digits (-k)) (hpower : Represents (powerOfTen k) p) (hk : k ≤ 308)
    (hlt : c * v < 10 ^ k) : Vanishes (roundDecimal strategy x digits) ↔ c * v ≠ p := by
  have hv : 0 ≤ v := le_trans (by norm_num) hlarge
  have hc : (1 : ℚ) ≤ c := by exact_mod_cast h.pos
  have hplaces : 29 ≤ k := by
    have hten : (10 : ℚ) ^ 28 < 10 ^ k := by
      calc (10 : ℚ) ^ 28 ≤ 2 ^ 96 := by norm_num
        _ ≤ v := hlarge
        _ ≤ c * v := le_mul_of_one_le_left hv hc
        _ < 10 ^ k := hlt
    exact (pow_lt_pow_iff_right₀ (by norm_num)).1 hten
  obtain ⟨q, hone, hq, hnext⟩ := exists_powerOfTen hplaces hk
  obtain rfl := hpower.unique hq
  have hnone : Scaled.ofFloat? x = none := by
    rw [Scaled.ofFloat?_eq_none_iff hx, abs_of_nonneg hv]
    exact hlarge
  have hfew : FewDigits (c * v) := hx.fewDigits.mul_factor h.factor
  obtain ⟨j, rfl⟩ : ∃ j, k = j + 1 := ⟨k - 1, by omega⟩
  rw [roundDecimal, hnone, clampDigits_succ hdigits, min_eq_left (by omega)]
  dsimp only
  rw [vanishes_some, roundHuge_vanishes h hx hv hpower hone]
  -- what is below the bound and not the float for it is below that, too
  refine ⟨ne_of_lt, fun hne => ?_⟩
  by_contra hle
  exact absurd (hnext _ hfew (lt_of_le_of_ne (not_lt.1 hle) hne.symm)) (not_le.2 hlt)

theorem exists_finite_power (hk : k ≤ 308) : ∃ p, Represents (powerOfTen k) p := by
  rcases Nat.lt_or_ge k 29 with hlt | hge
  · obtain ⟨p, -, hp⟩ := one_le_powerOfTen (Nat.le_of_lt_succ hlt)
    exact ⟨p, hp⟩
  · obtain ⟨p, -, hp, -⟩ := exists_powerOfTen hge hk
    exact ⟨p, hp⟩

end Number

/-! ### Calls -/

namespace Rounding

open Number (Vanishes roundDecimal powerOfTen)
open Number.Scaled (Reaches Strategy)

variable {scope : Scope} {source : Source} {name : String} {number place : Expr}
  {strategy : Strategy}

theorem yields_zero_iff
    (hfind : scope.functions.find? name = some (.ofNumbers name .math 2 (some 2) (places strategy)))
    (hnumber : number.Reads scope source (.number x))
    (hplace : place.Reads scope source (.number digits)) :
    (Expr.call name [number, place]).Yields scope source 0 ↔
      Vanishes (roundDecimal strategy x digits) := by
  refine ⟨rounded_of_yields hfind hnumber hplace, ?_⟩
  rintro ⟨y, hy, hzero⟩
  have hcall := evaluates_places hfind hnumber hplace
  rw [hy, placed_some, if_pos hzero.isFinite] at hcall
  exact ⟨y, hzero, hcall⟩

theorem yields_zero_iff_not_reaches (h : strategy.Clears c)
    (hfind : scope.functions.find? name = some (.ofNumbers name .math 2 (some 2) (places strategy)))
    (hnumber : number.ReadsAs scope source v) (hplace : place.ReadsAs scope source (-k))
    (hsmall : |v| < 2 ^ 96) (hlt : c * |v| < 10 ^ k) :
    (Expr.call name [number, place]).Yields scope source 0 ↔ ¬ Reaches k (10 ^ k / c) |v| := by
  obtain ⟨x, hx, hnumber⟩ := hnumber
  obtain ⟨digits, hdigits, hplace⟩ := hplace
  rw [yields_zero_iff hfind hnumber hplace, Number.vanishes_abs hx]
  exact Number.vanishes_iff_not_reaches h hx.abs (abs_nonneg v) hdigits hsmall hlt

theorem yields_zero_iff_ne (h : strategy.Clears c)
    (hfind : scope.functions.find? name = some (.ofNumbers name .math 2 (some 2) (places strategy)))
    (hnumber : number.ReadsAs scope source v) (hplace : place.ReadsAs scope source (-k))
    (hlarge : 2 ^ 96 ≤ |v|) (hpower : Represents (powerOfTen k) p) (hk : k ≤ 308)
    (hlt : c * |v| < 10 ^ k) :
    (Expr.call name [number, place]).Yields scope source 0 ↔ c * |v| ≠ p := by
  obtain ⟨x, hx, hnumber⟩ := hnumber
  obtain ⟨digits, hdigits, hplace⟩ := hplace
  rw [yields_zero_iff hfind hnumber hplace, Number.vanishes_abs hx]
  exact Number.vanishes_iff_ne h hx.abs hlarge hdigits hpower hk hlt

end Rounding

end Spreadsheet
