import Spreadsheet.Proofs.Numerals.Nearest
import Spreadsheet.Proofs.Numerals.Signs

/-!
Numerals are read as the nearest float: the powers of ten are multiplied or divided exactly up to
one rounding, whichever of the ways to read a numeral is taken.
-/

namespace Spreadsheet

open Float.Model Float.Model.UnpackedFloat

variable {v : ℚ} {m m₁ m₂ n d : Nat} {e e₁ e₂ : Int} {hm : 0 < m}

/-- The digits have the exponent of their number, which is that of a finite float. -/
structure Canonical (m : Nat) (e : Int) : Prop where
  pos : 0 < m
  log2_le : m.log2 ≤ 52
  target : targetOf m e = e
  le : e ≤ 971

/-! ### Products and quotients -/

theorem Within.mul_eq (hv : Within v m e) (hc : Canonical m e) {h₁ : 0 < m₁} {h₂ : 0 < m₂}
    (hvalue : v = m₁ * 2 ^ e₁ * (m₂ * 2 ^ e₂)) (hdigits : 2 ^ 52 ≤ m₁ * m₂) :
    UnpackedFloat.mul Format.binary64 (.finite .positive m₁ e₁ h₁) (.finite .positive m₂ e₂ h₂) =
      .finite .positive m e hc.pos := by
  have hshown : Shows (m₁ * m₂) (v / 2 ^ (e₁ + e₂)) .exact := by
    apply Shows.exact
    rw [div_eq_iff (two_zpow_pos _).ne', hvalue, zpow_add₀ two_ne_zero]
    push_cast
    ring
  have hlog : 52 ≤ (m₁ * m₂).log2 := (Nat.le_log2 (Nat.mul_pos h₁ h₂).ne').2 hdigits
  exact hv.round_eq hc.pos hc.log2_le hc.target hshown (by rw [targetOf]; omega) _

theorem shows_div (hd : 0 < d) :
    Shows (n / d) (n / d : ℚ) (accuracyOfFraction (n % d) d) := by
  have hd' : (0 : ℚ) < d := by exact_mod_cast hd
  have hsplit : (n : ℚ) / d = (n / d : Nat) + (n % d : Nat) / d := by
    have hdiv : (n : ℚ) = d * (n / d : Nat) + (n % d : Nat) := by
      exact_mod_cast (Nat.div_add_mod n d).symm
    field_simp
    linarith
  have hlt : ((n % d : Nat) : ℚ) / d < 1 := by
    rw [div_lt_one hd']
    exact_mod_cast Nat.mod_lt n hd
  rw [accuracyOfFraction]
  split
  · next hzero =>
    apply Shows.exact
    rw [hsplit, hzero]
    simp
  · next hne =>
    have hpos : (0 : ℚ) < (n % d : Nat) / d :=
      div_pos (by exact_mod_cast Nat.pos_of_ne_zero hne) hd'
    rcases Nat.lt_trichotomy (2 * (n % d)) d with hcompare | hcompare | hcompare
    · rw [Nat.compare_eq_lt.2 hcompare]
      have hhalf : ((n % d : Nat) : ℚ) / d < 1 / 2 := by
        rw [div_lt_div_iff₀ hd' two_pos]
        exact_mod_cast (by omega : n % d * 2 < 1 * d)
      exact .lt (by linarith) (by linarith)
    · rw [Nat.compare_eq_eq.2 hcompare]
      have hhalf : ((n % d : Nat) : ℚ) / d = 1 / 2 := by
        rw [div_eq_div_iff hd'.ne' two_ne_zero]
        exact_mod_cast (by omega : n % d * 2 = 1 * d)
      exact .eq (by linarith)
    · rw [Nat.compare_eq_gt.2 hcompare]
      have hhalf : 1 / 2 < ((n % d : Nat) : ℚ) / d := by
        rw [div_lt_div_iff₀ two_pos hd']
        exact_mod_cast (by omega : 1 * d < n % d * 2)
      exact .gt (by linarith) (by linarith)

/-- A quotient is found with as many digits as floats have, or down to the least exponent. -/
theorem divCore_spec (h₁ : 0 < m₁) (h₂ : 0 < m₂) (e₁ e₂ : Int) :
    ∃ q t a, divCore Format.binary64 m₁ e₁ m₂ e₂ = (q, t, a) ∧
      Shows q (m₁ * 2 ^ e₁ / (m₂ * 2 ^ e₂) / 2 ^ t) a ∧ t ≤ targetOf q t := by
  have htarget : Format.binary64.targetExponent (totalExponent m₁ e₁ - totalExponent m₂ e₂) =
      max (m₁.log2 + 1 + e₁ - (m₂.log2 + 1 + e₂) - 53) (-1074) := rfl
  rw [divCore, htarget]
  generalize ht : min (e₁ - e₂) (max (m₁.log2 + 1 + e₁ - (m₂.log2 + 1 + e₂) - 53) (-1074)) = t
  refine ⟨_, _, _, rfl, ?_, ?_⟩
  · have hshown := shows_div (n := m₁ <<< (e₁ - e₂ - t).toNat) h₂
    have hvalue : (m₁ * 2 ^ e₁ / (m₂ * 2 ^ e₂) / 2 ^ t : ℚ) =
        ((m₁ <<< (e₁ - e₂ - t).toNat : Nat) : ℚ) / m₂ := by
      have hexponent : (2 : ℚ) ^ (e₁ - e₂ - t).toNat = 2 ^ e₁ / 2 ^ e₂ / 2 ^ t := by
        rw [← zpow_natCast, Int.toNat_of_nonneg (by omega), zpow_sub₀ two_ne_zero,
          zpow_sub₀ two_ne_zero]
      rw [Nat.shiftLeft_eq]
      push_cast
      rw [hexponent]
      field_simp
    rw [hvalue]
    exact hshown
  · rw [targetOf]
    by_cases hleast : t ≤ -1074
    · omega
    · have hdigits : 2 ^ 52 ≤ (m₁ <<< (e₁ - e₂ - t).toNat) / m₂ := by
        rw [Nat.le_div_iff_mul_le h₂, Nat.shiftLeft_eq]
        calc 2 ^ 52 * m₂ ≤ 2 ^ 52 * 2 ^ (m₂.log2 + 1) :=
              Nat.mul_le_mul_left _ Nat.lt_log2_self.le
          _ = 2 ^ (52 + (m₂.log2 + 1)) := (Nat.pow_add _ _ _).symm
          _ ≤ 2 ^ (m₁.log2 + (e₁ - e₂ - t).toNat) := Nat.pow_le_pow_right (by decide) (by omega)
          _ = 2 ^ m₁.log2 * 2 ^ (e₁ - e₂ - t).toNat := Nat.pow_add _ _ _
          _ ≤ m₁ * 2 ^ (e₁ - e₂ - t).toNat :=
            Nat.mul_le_mul_right _ (Nat.log2_self_le h₁.ne')
      have hlog := (Nat.le_log2 (Nat.lt_of_lt_of_le (by decide) hdigits).ne').2 hdigits
      omega

theorem Within.div_eq (hv : Within v m e) (hc : Canonical m e) {h₁ : 0 < m₁} {h₂ : 0 < m₂}
    (hvalue : v = m₁ * 2 ^ e₁ / (m₂ * 2 ^ e₂)) :
    UnpackedFloat.div Format.binary64 (.finite .positive m₁ e₁ h₁) (.finite .positive m₂ e₂ h₂) =
      .finite .positive m e hc.pos := by
  obtain ⟨q, t, a, hcore, hshown, ht⟩ := divCore_spec h₁ h₂ e₁ e₂
  rw [← hvalue] at hshown
  rw [UnpackedFloat.div, hcore]
  exact hv.round_eq hc.pos hc.log2_le hc.target hshown ht _

/-! ### Powers of ten -/

/-- A whole number below 2 ^ 53 as the digits of its float. -/
theorem digits_mul_zpow {n : Nat} (hlog : n.log2 ≤ 52) :
    ((n * 2 ^ (52 - n.log2) : Nat) : ℚ) * 2 ^ ((n.log2 : Int) - 52) = n := by
  have hsum : ((52 - n.log2 : Nat) : Int) + (n.log2 - 52) = 0 := by omega
  push_cast
  rw [mul_assoc, ← zpow_natCast, ← zpow_add₀ two_ne_zero, hsum, zpow_zero, mul_one]

theorem power_mul_zpow {p j k : Nat} (h : p * 2 ^ j = 10 ^ k * 2 ^ 52) :
    (p : ℚ) * 2 ^ ((j : Int) - 52) = 10 ^ k := by
  have hcast : (p : ℚ) * 2 ^ j = 10 ^ k * 2 ^ 52 := by exact_mod_cast h
  rw [zpow_sub₀ two_ne_zero, zpow_natCast, ← mul_div_assoc, hcast]
  norm_num

theorem ten_zpow_of_neg {k : Int} (h : k < 0) : (10 : ℚ) ^ k = 1 / 10 ^ k.natAbs := by
  rw [one_div, ← zpow_natCast, ← zpow_neg]
  congr 1
  omega

theorem ten_zpow_of_nonneg {k : Int} (h : 0 ≤ k) : (10 : ℚ) ^ k = 10 ^ k.natAbs := by
  rw [← zpow_natCast]
  congr 1
  omega

/-- Digits below 2 ^ 53 times a small power of ten, which both are floats. -/
theorem Within.ofScientific_exact {k : Int} (hn : 0 < n) (hv : Within (n * 10 ^ k) m e)
    (hc : Canonical m e) (hdigits : n < 2 ^ 53) (hk : k.natAbs ≤ 22) :
    Float.ofScientific n (k < 0) k.natAbs = .ofModel (.pack (.finite .positive m e hc.pos)) := by
  have hindex : k.natAbs < Float.exactlyRepresentablePowersOfTen.size := Nat.lt_succ_of_le hk
  obtain ⟨p, j, hp, hlow, hvalue, hpower⟩ := exists_unpack_powerOfTen hindex
  have hten := power_mul_zpow hvalue
  have hdigit := digits_mul_zpow (log2_le_of_lt hdigits)
  have hn' := toFloat_unpack hn hdigits
  rw [Float.ofScientific, dif_pos ⟨hdigits, hk⟩]
  dsimp only
  by_cases hneg : k < 0
  · rw [decide_eq_true hneg, if_pos rfl]
    change Float.ofModel (.pack (UnpackedFloat.div Format.binary64 _
      Float.exactlyRepresentablePowersOfTen[k.natAbs].toModel.unpack)) = _
    rw [hn', hpower, hv.div_eq hc]
    rw [hdigit, hten, ten_zpow_of_neg hneg, mul_one_div]
  · rw [decide_eq_false hneg, if_neg Bool.false_ne_true]
    change Float.ofModel (.pack (UnpackedFloat.mul Format.binary64 _
      Float.exactlyRepresentablePowersOfTen[k.natAbs].toModel.unpack)) = _
    rw [hn', hpower, hv.mul_eq hc]
    · rw [hdigit, hten, ten_zpow_of_nonneg (Int.not_lt.1 hneg)]
    · exact hlow.trans (Nat.le_mul_of_pos_left p (Nat.mul_pos hn (Nat.two_pow_pos _)))

theorem Within.unpacked_ofScientific {k : Int} (hn : 0 < n) (hv : Within (n * 10 ^ k) m e)
    (hc : Canonical m e) (hlow : -(2 ^ 11 + (n.log2 : Int)) ≤ k) (hhigh : k ≤ 2 ^ 11) :
    UnpackedFloat.ofScientific Format.binary64 n k = .finite .positive m e hc.pos := by
  have hlow' : ¬ k < -(2 ^ Format.binary64.exponentBits + (n.log2 : Int)) := Int.not_lt.2 hlow
  have hhigh' : ¬ k > 2 ^ Format.binary64.exponentBits := Int.not_lt.2 hhigh
  rw [UnpackedFloat.ofScientific, dif_neg hn.ne', if_neg hhigh', if_neg hlow']
  split
  · next hk =>
    have hscale : ((2 ^ 53 : Nat) : ℚ) * 2 ^ (-53 : Int) = 1 := by norm_num
    have hnat : k.toNat = k.natAbs := by omega
    apply hv.mul_eq hc
    · rw [ten_zpow_of_nonneg hk, Nat.shiftLeft_eq, hnat]
      change _ = ((n * 2 ^ 53 : Nat) : ℚ) * 2 ^ (-53 : Int) * (_ * 2 ^ (0 : Int))
      rw [Nat.cast_mul, mul_assoc (n : ℚ), hscale, mul_one, zpow_zero, mul_one, Nat.cast_pow,
        Nat.cast_ofNat]
    · rw [Nat.shiftLeft_eq]
      calc 2 ^ 52 ≤ 1 * 2 ^ 53 * 1 := by decide
        _ ≤ n * 2 ^ 53 * 10 ^ k.toNat :=
          Nat.mul_le_mul (Nat.mul_le_mul_right _ hn) (Nat.pow_pos (by decide))
  · next hk =>
    have hnat : (-k).toNat = k.natAbs := by omega
    apply hv.div_eq hc
    rw [ten_zpow_of_neg (Int.not_le.1 hk), hnat, zpow_zero, mul_one, mul_one, mul_one_div]
    push_cast
    rfl

theorem Within.ofScientific_eq {k : Int} (hn : 0 < n) (hv : Within (n * 10 ^ k) m e)
    (hc : Canonical m e) (hlow : -(2 ^ 11 + (n.log2 : Int)) ≤ k) (hhigh : k ≤ 2 ^ 11) :
    Float.ofScientific n (k < 0) k.natAbs = .ofModel (.pack (.finite .positive m e hc.pos)) := by
  by_cases h : n < 2 ^ 53 ∧ k.natAbs ≤ 22
  · exact hv.ofScientific_exact hn hc h.1 h.2
  · have hk : (if decide (k < 0) = true then Int.negOfNat k.natAbs else Int.ofNat k.natAbs) =
        k := by
      by_cases hneg : k < 0
      · rw [if_pos (decide_eq_true hneg), Int.negOfNat_eq, Int.ofNat_eq_natCast]
        omega
      · rw [if_neg (by simpa using hneg), Int.ofNat_eq_natCast]
        omega
    rw [Float.ofScientific, dif_neg h]
    dsimp only
    rw [hk, Float.Model.ofScientific, hv.unpacked_ofScientific hn hc hlow hhigh]

/-! ### Numerals -/

theorem lt_ten_pow_digitCount (n : Nat) : n < 10 ^ Number.digitCount n :=
  (Nat.length_toDigits_le_iff (by decide) Nat.length_toDigits_pos).1 (Nat.le_refl _)

theorem ten_pow_le {n : Nat} (hn : 0 < n) : 10 ^ (Number.digitCount n - 1) ≤ n := by
  by_contra hlt
  by_cases hone : Number.digitCount n = 1
  · rw [hone] at hlt
    omega
  · have hpos : 0 < Number.digitCount n := Nat.length_toDigits_pos
    have hle := (Nat.length_toDigits_le_iff (by decide) (by omega)).2 (Nat.not_le.1 hlt)
    change Number.digitCount n ≤ _ at hle
    omega

theorem digitCount_le_log2 {n : Nat} (hn : 0 < n) : Number.digitCount n ≤ n.log2 + 1 := by
  have hlt : 2 ^ (Number.digitCount n - 1) < 2 ^ (n.log2 + 1) := by
    calc 2 ^ (Number.digitCount n - 1) ≤ 10 ^ (Number.digitCount n - 1) :=
          Nat.pow_le_pow_left (by decide) _
      _ ≤ n := ten_pow_le hn
      _ < 2 ^ (n.log2 + 1) := Nat.lt_log2_self
  have := (Nat.pow_lt_pow_iff_right (by decide)).1 hlt
  omega

theorem Within.bounds (hv : Within v m e) (hc : Canonical m e) :
    2 ^ (-1075 : Int) ≤ v ∧ v < 2 ^ (1024 : Int) := by
  have hlow := hv.near.low
  have hhigh := hv.near.high
  rw [le_div_iff₀ (two_zpow_pos e)] at hlow
  rw [div_le_iff₀ (two_zpow_pos e)] at hhigh
  have hone : (1 : ℚ) ≤ m := by exact_mod_cast hc.pos
  have hm : (m : ℚ) + 1 ≤ 2 ^ 53 := by
    have hlt : m < 2 ^ 53 := lt_two_pow_of_log2_le hc.log2_le
    exact_mod_cast hlt
  have hleast : -1074 ≤ e := by
    rw [← hc.target]
    exact le_max_right _ _
  constructor
  · calc (2 : ℚ) ^ (-1075 : Int) = 2 ^ (-1 : Int) * 2 ^ (-1074 : Int) :=
          zpow_add₀ two_ne_zero (-1) (-1074)
      _ = 1 / 2 * 2 ^ (-1074 : Int) := by rw [zpow_neg_one, one_div]
      _ ≤ (m - 1 / 2) * 2 ^ e := by
        apply mul_le_mul (by linarith) (zpow_le_zpow_right₀ one_le_two hleast)
          (two_zpow_pos _).le (by linarith)
      _ ≤ v := hlow
  · calc v ≤ (m + 1 / 2) * 2 ^ e := hhigh
      _ < 2 ^ 53 * 2 ^ e := mul_lt_mul_of_pos_right (by linarith) (two_zpow_pos e)
      _ ≤ 2 ^ 53 * 2 ^ (971 : Int) := by
        apply mul_le_mul_of_nonneg_left (zpow_le_zpow_right₀ one_le_two hc.le) (by norm_num)
      _ = 2 ^ (1024 : Int) := (zpow_add₀ two_ne_zero 53 971).symm

theorem two_pow_le_ten_pow : (2 : ℚ) ^ 1075 ≤ 10 ^ 400 := by
  calc (2 : ℚ) ^ 1075 ≤ 2 ^ (3 * 400) := pow_le_pow_right₀ one_le_two (by decide)
    _ = (2 ^ 3) ^ 400 := pow_mul _ _ _
    _ ≤ 10 ^ 400 := pow_le_pow_left₀ (by norm_num) (by norm_num) _

/-- Where the digits of a number start is bounded as floats are. -/
theorem Within.size_bounds {k : Int} (hn : 0 < n) (hv : Within (n * 10 ^ k) m e)
    (hc : Canonical m e) :
    -400 ≤ k + Number.digitCount n ∧ k + Number.digitCount n ≤ 400 := by
  obtain ⟨hlow, hhigh⟩ := hv.bounds hc
  have hten : (0 : ℚ) < 10 ^ k := zpow_pos (by norm_num) k
  have hcount : 0 < Number.digitCount n := Nat.length_toDigits_pos
  constructor
  · by_contra hsmall
    have hlt : (n : ℚ) < 10 ^ (Number.digitCount n : Int) := by
      exact_mod_cast lt_ten_pow_digitCount n
    have hbound : (n : ℚ) * 10 ^ k < 2 ^ (-1075 : Int) := by
      calc (n : ℚ) * 10 ^ k < 10 ^ (Number.digitCount n : Int) * 10 ^ k :=
            mul_lt_mul_of_pos_right hlt hten
        _ = 10 ^ (Number.digitCount n + k : Int) := (zpow_add₀ (by norm_num) _ _).symm
        _ ≤ 10 ^ (-400 : Int) := zpow_le_zpow_right₀ (by norm_num) (by omega)
        _ ≤ 2 ^ (-1075 : Int) := inv_anti₀ (pow_pos two_pos _) two_pow_le_ten_pow
    linarith
  · by_contra hlarge
    have hle : (10 : ℚ) ^ ((Number.digitCount n - 1 : Nat) : Int) ≤ n := by
      exact_mod_cast ten_pow_le hn
    have hbound : (2 : ℚ) ^ (1024 : Int) ≤ n * 10 ^ k := by
      calc (2 : ℚ) ^ (1024 : Int) ≤ 2 ^ (1075 : Int) :=
            zpow_le_zpow_right₀ one_le_two (by decide)
        _ ≤ 10 ^ (400 : Int) := two_pow_le_ten_pow
        _ ≤ 10 ^ (((Number.digitCount n - 1 : Nat) : Int) + k) :=
          zpow_le_zpow_right₀ (by norm_num) (by omega)
        _ = 10 ^ ((Number.digitCount n - 1 : Nat) : Int) * 10 ^ k := zpow_add₀ (by norm_num) _ _
        _ ≤ n * 10 ^ k := mul_le_mul_of_nonneg_right hle hten.le
    linarith

/-- The number that a numeral writes. -/
def Number.Numeral.value (n : Number.Numeral) : ℚ :=
  Number.digitsValue (n.whole ++ n.fraction) * 10 ^ (n.exponent - n.fraction.length)

/-- A numeral is read as the float that its number is nearest to. -/
theorem Within.toFloat_eq {n : Number.Numeral} (hv : Within n.value m e) (hc : Canonical m e) :
    n.toFloat = .ofModel (.pack (.finite .positive m e hc.pos)) := by
  rw [Number.Numeral.value] at hv
  have hdigits : 0 < Number.digitsValue (n.whole ++ n.fraction) := by
    rw [Nat.pos_iff_ne_zero]
    intro hzero
    have hlow := (hv.bounds hc).1
    rw [hzero, Nat.cast_zero, zero_mul] at hlow
    exact absurd hlow (not_le.2 (two_zpow_pos _))
  obtain ⟨hlow, hhigh⟩ := hv.size_bounds hdigits hc
  have hcount := digitCount_le_log2 hdigits
  rw [Number.Numeral.toFloat, Number.exponentBound, if_neg (by omega), if_neg (by omega)]
  exact hv.ofScientific_eq hdigits hc (by omega) (by omega)

end Spreadsheet
