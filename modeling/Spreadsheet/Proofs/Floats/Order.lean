import Spreadsheet.Proofs.Floats.Operations
import Spreadsheet.Proofs.Numerals.Wholes
import Spreadsheet.Proofs.Writing.Complex

/-!
The order of finite floats is the order of the numbers that they stand for, and but for the two
zeros a number is told by one float only. An operation therefore keeps the order of its exact
results.
-/

namespace Spreadsheet

open Float.Model Float.Model.UnpackedFloat

variable {f g : UnpackedFloat} {x y : Float} {v w a b : ℚ} {m m' : Nat} {e e' : Int}

/-! ### Comparing digits -/

theorem Canonical.lt_of_exponent_lt (hc : Canonical m e) (hc' : Canonical m' e') (h : e < e') :
    (m : ℚ) * 2 ^ e < m' * 2 ^ e' := by
  have hleast : -1074 ≤ e := hc.target ▸ le_max_right _ _
  calc (m : ℚ) * 2 ^ e < 2 ^ (e + 53) := hc.lt_two_zpow
    _ ≤ 2 ^ (e' + 52) := zpow_le_zpow_right₀ one_le_two (by omega)
    _ ≤ m' * 2 ^ e' := hc'.two_zpow_le (by omega)

/-- Canonical digits are compared by their exponents first. -/
theorem Canonical.compare_eq (hc : Canonical m e) (hc' : Canonical m' e') :
    (compare e e').then (compare m m') = cmp ((m : ℚ) * 2 ^ e) (m' * 2 ^ e') := by
  rcases Int.lt_trichotomy e e' with hlt | rfl | hgt
  · rw [Int.compare_eq_lt.2 hlt, (cmp_eq_lt_iff _ _).2 (hc.lt_of_exponent_lt hc' hlt)]
    rfl
  · rw [Int.compare_eq_eq.2 rfl, Ordering.eq_then]
    rcases Nat.lt_trichotomy m m' with hlt | rfl | hgt
    · have hlt' : (m : ℚ) * 2 ^ e < m' * 2 ^ e :=
        mul_lt_mul_of_pos_right (by exact_mod_cast hlt) (two_zpow_pos e)
      rw [Nat.compare_eq_lt.2 hlt, (cmp_eq_lt_iff _ _).2 hlt']
    · rw [Nat.compare_eq_eq.2 rfl, cmp_self_eq_eq]
    · have hgt' : (m' : ℚ) * 2 ^ e < m * 2 ^ e :=
        mul_lt_mul_of_pos_right (by exact_mod_cast hgt) (two_zpow_pos e)
      rw [Nat.compare_eq_gt.2 hgt, (cmp_eq_gt_iff _ _).2 hgt']
  · rw [Int.compare_eq_gt.2 hgt, (cmp_eq_gt_iff _ _).2 (hc'.lt_of_exponent_lt hc hgt)]
    rfl

theorem Canonical.value_pos (hc : Canonical m e) : (0 : ℚ) < m * 2 ^ e :=
  mul_pos (by exact_mod_cast hc.pos) (two_zpow_pos e)

theorem Canonical.unit_mul_ne_zero (hc : Canonical m e) (s : Sign) :
    unit s * (m * 2 ^ e) ≠ 0 := by
  rw [← abs_pos, abs_unit_mul, abs_pos]
  exact hc.value_pos.ne'

theorem unit_positive_mul (v : ℚ) : unit .positive * v = v := one_mul v

theorem unit_negative_mul (v : ℚ) : unit .negative * v = -v := neg_one_mul v

theorem Holds.compare_eq (hf : Holds f a) (hg : Holds g b) : f.compare g = some (cmp a b) := by
  cases hf with
  | zero s =>
    cases hg with
    | zero s' =>
      rw [cmp_self_eq_eq]
      rfl
    | finite s' hc' =>
      have hpos := hc'.value_pos
      cases s' with
      | positive =>
        rw [unit_positive_mul, (cmp_eq_lt_iff _ _).2 hpos]
        rfl
      | negative =>
        rw [unit_negative_mul, (cmp_eq_gt_iff _ _).2 (neg_neg_of_pos hpos)]
        rfl
  | finite s hc =>
    have hpos := hc.value_pos
    cases hg with
    | zero s' =>
      cases s with
      | positive =>
        rw [unit_positive_mul, (cmp_eq_gt_iff _ _).2 hpos]
        rfl
      | negative =>
        rw [unit_negative_mul, (cmp_eq_lt_iff _ _).2 (neg_neg_of_pos hpos)]
        rfl
    | finite s' hc' =>
      have hpos' := hc'.value_pos
      cases s with
      | positive =>
        cases s' with
        | positive =>
          rw [unit_positive_mul, unit_positive_mul, ← hc.compare_eq hc']
          rfl
        | negative =>
          rw [unit_positive_mul, unit_negative_mul, (cmp_eq_gt_iff _ _).2 (by linarith)]
          rfl
      | negative =>
        cases s' with
        | positive =>
          rw [unit_positive_mul, unit_negative_mul, (cmp_eq_lt_iff _ _).2 (by linarith)]
          rfl
        | negative =>
          have hneg (v w : ℚ) : cmp (-v) (-w) = (cmp v w).swap := by
            rw [cmp_swap]
            exact StrictAnti.cmp_map_eq (fun _ _ => neg_lt_neg) v w
          rw [unit_negative_mul, unit_negative_mul, hneg, ← hc.compare_eq hc']
          rfl

/-! ### Floats -/

theorem represents_zero_literal : Represents 0 0 := represents_zero .positive

namespace Represents

theorem le_iff (hx : Represents x a) (hy : Represents y b) : x ≤ y ↔ a ≤ b := by
  rw [le_iff_compare, Holds.compare_eq hx hy, Option.some.injEq, Option.some.injEq,
    cmp_eq_lt_iff, cmp_eq_eq_iff, le_iff_lt_or_eq]

theorem lt_iff (hx : Represents x a) (hy : Represents y b) : x < y ↔ a < b := by
  rw [lt_iff_compare, Holds.compare_eq hx hy, Option.some.injEq, cmp_eq_lt_iff]

theorem beq_iff (hx : Represents x a) (hy : Represents y b) : (x == y) = true ↔ a = b := by
  change (x.toModel.unpack.compare y.toModel.unpack == some .eq) = true ↔ a = b
  rw [Holds.compare_eq hx hy, beq_iff_eq, Option.some.injEq, cmp_eq_eq_iff]

theorem unique (h : Represents x a) (h' : Represents x b) : a = b :=
  (h.beq_iff h').1 ((h.beq_iff h).2 rfl)

/-- But for the zeros, a number is told by one float. -/
theorem eq_of_ne_zero (hx : Represents x a) (hy : Represents y a) (ha : a ≠ 0) : x = y := by
  have hbeq := (hx.beq_iff hy).2 rfl
  rw [Represents] at hy
  generalize hg : y.toModel.unpack = g at hy
  cases hy with
  | zero s => exact absurd rfl ha
  | finite s hc => exact eq_of_beq_finite hg hbeq

theorem eq_or_of_zero (hx : Represents x 0) : x = 0 ∨ x = -0.0 := by
  rw [Represents] at hx
  generalize hf : x.toModel.unpack = f at hx
  generalize hv : (0 : ℚ) = v at hx
  cases hx with
  | zero s => exact eq_zero_of_unpack hf
  | finite s hc => exact absurd hv.symm (hc.unit_mul_ne_zero s)

/-- What lies between finite floats is finite. -/
theorem isFinite_of_le (hx : Represents x a) (hy : Represents y b) {z : Float} (hxz : x ≤ z)
    (hzy : z ≤ y) : z.isFinite = true := by
  rw [le_iff_compare] at hxz hzy
  rw [Represents] at hx hy
  change z.toModel.unpack.isFinite = true
  generalize x.toModel.unpack = f at hx hxz
  generalize y.toModel.unpack = g at hy hzy
  generalize z.toModel.unpack = h at hxz hzy ⊢
  cases h with
  | notANumber => cases g <;> simp [UnpackedFloat.compare] at hzy
  | infinity s =>
    cases s with
    | positive => cases hy <;> simp [UnpackedFloat.compare] at hzy
    | negative => cases hx <;> simp [UnpackedFloat.compare] at hxz
  | _ => rfl

end Represents

/-- Operations keep the order of their exact results. -/
theorem IsRounding.le (hx : IsRounding x v) (hy : IsRounding y w) (hle : v ≤ w)
    (hfinite : x.isFinite = true) (hfinite' : y.isFinite = true) : x ≤ y := by
  obtain ⟨a, ha, hxa⟩ := hx.exists_of_isFinite hfinite
  obtain ⟨b, hb, hyb⟩ := hy.exists_of_isFinite hfinite'
  exact (hxa.le_iff hyb).2 (ha.mono hb hle)

/-- Operations with the same exact result make the same float. -/
theorem IsRounding.eq_of_one_le (hx : IsRounding x v) (hy : IsRounding y v) (hv : 1 ≤ v)
    (hle : v ≤ 2 ^ (1023 : Int)) : x = y := by
  have habs : |v| ≤ 2 ^ (1023 : Int) := by rwa [abs_of_nonneg (zero_le_one.trans hv)]
  obtain ⟨w, hw, hxw⟩ := hx.exists_of_le habs
  obtain ⟨w', hw', hyw⟩ := hy.exists_of_le habs
  rw [hw'.unique hw] at hyw
  have hpos : 0 < w := zero_lt_one.trans_le ((Rounds.of_fewDigits .one).mono hw hv)
  exact hxw.eq_of_ne_zero hyw hpos.ne'

end Spreadsheet
