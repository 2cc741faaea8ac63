import Spreadsheet.Number.Shortest
import Spreadsheet.Proofs.Numerals.Reading

/-!
The shortest decimal that reads back as a float. A decimal that is taken lies between the ends of
the interval of numbers that round to the float, and one of seventeen digits always does.
-/

namespace Spreadsheet

open Number

variable {m : Nat} {e : Int} {d : Decimal} {r : Rounding} {tie : Tie}

/-! ### Quotients -/

def Number.Decimal.value (d : Decimal) : ℚ := d.digits * 10 ^ d.exponent

theorem pow_toNat_div (b : Nat) (hb : 0 < b) (k : Int) :
    ((Nat.pow b k.toNat : Nat) : ℚ) / (Nat.pow b (-k).toNat : Nat) = b ^ k := by
  have hb' : (b : ℚ) ≠ 0 := by exact_mod_cast hb.ne'
  have hsum : k = (k.toNat : Int) - ((-k).toNat : Int) := by omega
  conv_rhs => rw [hsum, zpow_sub₀ hb', zpow_natCast, zpow_natCast]
  rw [Nat.pow_eq, Nat.pow_eq, Nat.cast_pow, Nat.cast_pow]

theorem tenPower_pos (k : Int) : 0 < (tenPower k).1 ∧ 0 < (tenPower k).2 :=
  ⟨Nat.pow_pos (by decide), Nat.pow_pos (by decide)⟩

theorem tenPower_div (k : Int) : ((tenPower k).1 : ℚ) / (tenPower k).2 = 10 ^ k :=
  pow_toNat_div 10 (by decide) k

theorem ten_zpow_leadingExponent_le {num den : Nat} (hnum : 0 < num) (hden : 0 < den) :
    (10 : ℚ) ^ leadingExponent num den ≤ num / den := by
  have hnum' : (0 : ℚ) < num := by exact_mod_cast hnum
  have hden' : (0 : ℚ) < den := by exact_mod_cast hden
  rw [leadingExponent]
  split
  · next hle =>
    have hquotient : 0 < num / den := Nat.div_pos hle hden
    have hcount : 0 < digitCount (num / den) := Nat.length_toDigits_pos
    have hexponent : (digitCount (num / den) : Int) - 1 = (digitCount (num / den) - 1 : Nat) := by
      omega
    rw [hexponent, zpow_natCast]
    calc (10 : ℚ) ^ (digitCount (num / den) - 1) ≤ (num / den : Nat) := by
          exact_mod_cast ten_pow_le hquotient
      _ ≤ num / den := Nat.cast_div_le
  · next hlt =>
    -- the denominator is at most this multiple of the numerator
    generalize hq : (den + num - 1) / num = q
    have hceil : den ≤ q * num := by
      have hdiv := Nat.div_add_mod (den + num - 1) num
      have hmod := Nat.mod_lt (den + num - 1) hnum
      rw [hq, Nat.mul_comm] at hdiv
      omega
    have hpow : q ≤ 10 ^ digitCount (q - 1) := by
      have := lt_ten_pow_digitCount (q - 1)
      omega
    have hbound : (den : ℚ) ≤ 10 ^ digitCount (q - 1) * num := by
      exact_mod_cast hceil.trans (Nat.mul_le_mul_right num hpow)
    rw [zpow_neg, zpow_natCast, inv_eq_one_div, div_le_div_iff₀ (by positivity) hden', one_mul,
      mul_comm]
    exact hbound

/-! ### The interval -/

theorem Number.Rounding.holds_eq (r : Rounding) (d : Decimal) :
    r.holds d =
      if r.closed then decide (r.low * (tenPower d.exponent).2 ≤
          d.digits * (tenPower d.exponent).1 * r.den) &&
        decide (d.digits * (tenPower d.exponent).1 * r.den ≤ r.high * (tenPower d.exponent).2)
      else decide (r.low * (tenPower d.exponent).2 <
          d.digits * (tenPower d.exponent).1 * r.den) &&
        decide (d.digits * (tenPower d.exponent).1 * r.den < r.high * (tenPower d.exponent).2) :=
  rfl

theorem Number.Decimal.value_eq (d : Decimal) :
    d.value = d.digits * (tenPower d.exponent).1 / (tenPower d.exponent).2 := by
  rw [Decimal.value, ← tenPower_div, mul_div_assoc]

theorem le_value_iff {n : Nat} (hden : 0 < r.den) :
    (n : ℚ) / r.den ≤ d.value ↔
      n * (tenPower d.exponent).2 ≤ d.digits * (tenPower d.exponent).1 * r.den := by
  have hdown : (0 : ℚ) < (tenPower d.exponent).2 := by exact_mod_cast (tenPower_pos _).2
  rw [d.value_eq, div_le_div_iff₀ (by exact_mod_cast hden) hdown]
  norm_cast

theorem value_le_iff {n : Nat} (hden : 0 < r.den) :
    d.value ≤ (n : ℚ) / r.den ↔
      d.digits * (tenPower d.exponent).1 * r.den ≤ n * (tenPower d.exponent).2 := by
  have hdown : (0 : ℚ) < (tenPower d.exponent).2 := by exact_mod_cast (tenPower_pos _).2
  rw [d.value_eq, div_le_div_iff₀ hdown (by exact_mod_cast hden)]
  norm_cast

theorem Number.Rounding.holds_of_lt (hden : 0 < r.den) (hlow : (r.low : ℚ) / r.den < d.value)
    (hhigh : d.value < (r.high : ℚ) / r.den) : r.holds d = true := by
  rw [← not_le, value_le_iff hden, Nat.not_le] at hlow
  rw [← not_le, le_value_iff hden, Nat.not_le] at hhigh
  rw [Rounding.holds_eq]
  split
  · rw [decide_eq_true hlow.le, decide_eq_true hhigh.le, Bool.and_self]
  · rw [decide_eq_true hlow, decide_eq_true hhigh, Bool.and_self]

theorem Number.Rounding.bounds_of_holds (hden : 0 < r.den) (h : r.holds d = true) :
    (r.low : ℚ) / r.den ≤ d.value ∧ d.value ≤ (r.high : ℚ) / r.den := by
  rw [le_value_iff hden, value_le_iff hden]
  rw [Rounding.holds_eq] at h
  split at h <;> rw [Bool.and_eq_true, decide_eq_true_eq, decide_eq_true_eq] at h
  · exact h
  · exact ⟨h.1.le, h.2.le⟩

theorem Number.Rounding.lt_of_holds (hden : 0 < r.den) (h : r.holds d = true)
    (hopen : r.closed = false) :
    (r.low : ℚ) / r.den < d.value ∧ d.value < (r.high : ℚ) / r.den := by
  rw [← not_le, ← not_le, value_le_iff hden, le_value_iff hden, Nat.not_le, Nat.not_le]
  rw [Rounding.holds_eq, hopen, if_neg Bool.false_ne_true, Bool.and_eq_true, decide_eq_true_eq,
    decide_eq_true_eq] at h
  exact h

/-! ### The interval of a float -/

/-- Quarters of the last digit from the number down to the end of its interval. -/
def quartersBelow (m : Nat) (e : Int) : Nat := if m = 2 ^ 52 ∧ -1074 < e then 1 else 2

theorem Number.Rounding.of_den_pos (m : Nat) (e : Int) : 0 < (Rounding.of m e).den :=
  Nat.pow_pos (by decide)

theorem scale_div_den (m : Nat) (e : Int) :
    ((Nat.pow 2 (e - 2).toNat : Nat) : ℚ) / (Rounding.of m e).den = 2 ^ e / 4 := by
  have hneg : (2 - e).toNat = (-(e - 2)).toNat := by congr 1; omega
  change _ / ((Nat.pow 2 (2 - e).toNat : Nat) : ℚ) = _
  rw [hneg, pow_toNat_div 2 (by decide), Nat.cast_ofNat, zpow_sub₀ two_ne_zero]
  norm_num

theorem Number.Rounding.of_value (m : Nat) (e : Int) :
    ((Rounding.of m e).value : ℚ) / (Rounding.of m e).den = m * 2 ^ e := by
  have hvalue : (Rounding.of m e).value = 4 * m * Nat.pow 2 (e - 2).toNat := rfl
  rw [hvalue, Nat.cast_mul, mul_div_assoc, scale_div_den]
  push_cast
  ring

theorem Number.Rounding.of_high (m : Nat) (e : Int) :
    ((Rounding.of m e).high : ℚ) / (Rounding.of m e).den = (m + 1 / 2) * 2 ^ e := by
  have hhigh : (Rounding.of m e).high = (4 * m + 2) * Nat.pow 2 (e - 2).toNat := rfl
  rw [hhigh, Nat.cast_mul, mul_div_assoc, scale_div_den]
  push_cast
  ring

theorem Number.Rounding.of_low (hm : 0 < m) (e : Int) :
    ((Rounding.of m e).low : ℚ) / (Rounding.of m e).den =
      (m - quartersBelow m e / 4) * 2 ^ e := by
  have hlow : (Rounding.of m e).low = (4 * m - quartersBelow m e) * Nat.pow 2 (e - 2).toNat := by
    rw [Rounding.of, quartersBelow]
    simp [Nat.pow_eq]
  have hle : quartersBelow m e ≤ 4 * m := by
    rw [quartersBelow]
    split <;> omega
  rw [hlow, Nat.cast_mul, mul_div_assoc, scale_div_den, Nat.cast_sub hle]
  push_cast
  ring

/-- A decimal in the interval of a float is within its reach. -/
theorem Number.Rounding.within (hm : 0 < m) (h : (Rounding.of m e).holds d = true) :
    Within d.value m e := by
  have hden := Rounding.of_den_pos m e
  obtain ⟨hlow, hhigh⟩ := Rounding.bounds_of_holds hden h
  rw [Rounding.of_low hm, ← le_div_iff₀ (two_zpow_pos e)] at hlow
  rw [Rounding.of_high, ← div_le_iff₀ (two_zpow_pos e)] at hhigh
  have hquarters : (quartersBelow m e : ℚ) ≤ 2 := by
    rw [quartersBelow]
    split <;> norm_num
  constructor
  · refine ⟨by linarith, hhigh, fun hend => ?_⟩
    by_contra hodd
    have hopen : (Rounding.of m e).closed = false := beq_eq_false_iff_ne.2 hodd
    obtain ⟨hlow, hhigh⟩ := Rounding.lt_of_holds hden h hopen
    rw [Rounding.of_low hm, ← lt_div_iff₀ (two_zpow_pos e)] at hlow
    rw [Rounding.of_high, ← div_lt_iff₀ (two_zpow_pos e)] at hhigh
    rcases hend with hend | hend <;> linarith
  · intro hpower hexponent
    rw [quartersBelow, if_pos ⟨hpower, hexponent⟩, hpower] at hlow
    push_cast at hlow
    exact hlow

/-! ### Enough digits -/

theorem Number.Rounding.holds_of_nearest? {n : Nat} (h : r.nearest? tie n = some d) :
    r.holds d = true := by
  revert h
  rw [Rounding.nearest?]
  dsimp only
  split <;> rename_i hbelow habove <;> intro h
  · split at h <;> cases h
    · exact hbelow
    · exact habove
  · cases h
    exact hbelow
  · cases h
    exact habove
  · cases h

/-- The exponent of the last of `n` digits of the number. -/
def Number.Rounding.lastExponent (r : Rounding) (n : Nat) : Int :=
  leadingExponent r.value r.den + 1 - n

/-- The neighbours of the number are a unit of the last digit apart. If both miss the interval then
it is at most that wide. -/
theorem Number.Rounding.nearest?_isSome {n : Nat} (hden : 0 < r.den)
    (hlow : (r.low : ℚ) / r.den < r.value / r.den) (hhigh : (r.value : ℚ) / r.den < r.high / r.den)
    (hwide : (10 : ℚ) ^ r.lastExponent n < r.high / r.den - r.low / r.den) :
    (r.nearest? tie n).isSome = true := by
  obtain ⟨hup, hdown⟩ := tenPower_pos (r.lastExponent n)
  have hunit : (0 : ℚ) < 10 ^ r.lastExponent n := by positivity
  have hdivisor : 0 < r.den * (tenPower (r.lastExponent n)).1 := Nat.mul_pos hden hup
  generalize hq : r.value * (tenPower (r.lastExponent n)).2 /
    (r.den * (tenPower (r.lastExponent n)).1) = q
  have hbelow : (⟨q, r.lastExponent n⟩ : Decimal).value ≤ r.value / r.den := by
    rw [value_le_iff hden]
    dsimp only
    rw [← hq, Nat.mul_assoc, Nat.mul_comm _ r.den]
    exact Nat.div_mul_le_self _ _
  have habove : (r.value : ℚ) / r.den < (⟨q + 1, r.lastExponent n⟩ : Decimal).value := by
    rw [← not_le, value_le_iff hden, Nat.not_le]
    dsimp only
    rw [← hq, Nat.mul_assoc, Nat.mul_comm _ r.den]
    exact (Nat.lt_mul_div_succ _ hdivisor).trans_eq (Nat.mul_comm _ _)
  have hapart : (⟨q + 1, r.lastExponent n⟩ : Decimal).value =
      (⟨q, r.lastExponent n⟩ : Decimal).value + 10 ^ r.lastExponent n := by
    rw [Decimal.value, Decimal.value]
    push_cast
    ring
  have hone : r.holds ⟨q, r.lastExponent n⟩ = true ∨ r.holds ⟨q + 1, r.lastExponent n⟩ = true := by
    by_cases hend : (r.low : ℚ) / r.den < (⟨q, r.lastExponent n⟩ : Decimal).value
    · exact .inl (Rounding.holds_of_lt hden hend (hbelow.trans_lt hhigh))
    · exact .inr (Rounding.holds_of_lt hden (hlow.trans habove) (by linarith))
  subst hq
  rw [Rounding.nearest?]
  dsimp only
  split
  · split <;> rfl
  · rfl
  · rfl
  · next hmiss hmiss' =>
    rcases hone with h | h
    · exact absurd (h.symm.trans hmiss) Bool.noConfusion
    · exact absurd (h.symm.trans hmiss') Bool.noConfusion

/-- Seventeen digits are enough: the unit of the last of them is less than the interval is wide. -/
theorem nearest?_seventeen (hc : Canonical m e) :
    ((Rounding.of m e).nearest? tie 17).isSome = true := by
  have hden := Rounding.of_den_pos m e
  have htwo := two_zpow_pos e
  have hm : 0 < m := hc.pos
  have hlt : m < 2 ^ 53 := lt_two_pow_of_log2_le hc.log2_le
  have hquarters : (0 : ℚ) < quartersBelow m e := by
    rw [quartersBelow]
    split <;> norm_num
  have hvalue : 0 < (Rounding.of m e).value :=
    Nat.mul_pos (Nat.mul_pos (by decide) hm) (Nat.pow_pos (by decide))
  have hleading := ten_zpow_leadingExponent_le hvalue hden
  rw [Rounding.of_value] at hleading
  have hlast : (10 : ℚ) ^ leadingExponent (Rounding.of m e).value (Rounding.of m e).den =
      10 ^ (Rounding.of m e).lastExponent 17 * 10 ^ 16 := by
    rw [Rounding.lastExponent, ← zpow_natCast, ← zpow_add₀ (by norm_num)]
    congr 1
    push_cast
    omega
  have hdigits : (m : ℚ) < (quartersBelow m e + 2) / 4 * 10 ^ 16 := by
    rw [quartersBelow]
    split
    · next h =>
      rw [h.1]
      norm_num
    · have hcast : (m : ℚ) < 2 ^ 53 := by exact_mod_cast hlt
      push_cast
      linarith
  apply Rounding.nearest?_isSome hden
  · rw [Rounding.of_low hm, Rounding.of_value]
    exact mul_lt_mul_of_pos_right (by linarith) htwo
  · rw [Rounding.of_high, Rounding.of_value]
    exact mul_lt_mul_of_pos_right (by linarith) htwo
  · rw [Rounding.of_low hm, Rounding.of_high]
    have hbound := mul_lt_mul_of_pos_right hdigits htwo
    rw [hlast] at hleading
    linarith

theorem shortest_within (tie : Tie) (hc : Canonical m e) : Within (shortest tie m e).value m e := by
  have hfound : ((List.range 17).findSome? fun i =>
      (Rounding.of m e).nearest? tie (i + 1)).isSome = true :=
    List.findSome?_isSome_iff.2 ⟨16, by decide, nearest?_seventeen hc⟩
  obtain ⟨d, hd⟩ := Option.isSome_iff_exists.1 hfound
  obtain ⟨i, -, hi⟩ := List.exists_of_findSome?_eq_some hd
  rw [shortest, hd, Option.getD_some]
  exact Rounding.within hc.pos (Rounding.holds_of_nearest? hi)

theorem shortest_digits_pos (tie : Tie) (hc : Canonical m e) : 0 < (shortest tie m e).digits := by
  rw [Nat.pos_iff_ne_zero]
  intro hzero
  have hlow := ((shortest_within tie hc).bounds hc).1
  rw [Decimal.value, hzero, Nat.cast_zero, zero_mul] at hlow
  exact absurd hlow (not_le.2 (two_zpow_pos _))

end Spreadsheet
