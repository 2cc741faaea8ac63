import Spreadsheet.Proofs.Floats.Operations

/-!
Floats next to each other. There is a gap between two different ones, which is so wide that no
quotient of them is rounded up to 1 or to a half.
-/

namespace Spreadsheet

variable {v w p : ℚ} {c m : Nat} {e : Int}

namespace FewDigits

theorem exists_of_nonneg (h : FewDigits v) (hv : 0 ≤ v) :
    ∃ (m : Nat) (e : Int), m < 2 ^ 53 ∧ v = m * 2 ^ e := by
  obtain ⟨m, e, hm, -, hvalue⟩ := h
  exact ⟨m, e, hm, by rwa [abs_of_nonneg hv] at hvalue⟩

theorem mul_factor (h : FewDigits v) (hc : c = 1 ∨ c = 2) : FewDigits (c * v) := by
  obtain rfl | rfl := hc
  · rwa [Nat.cast_one, one_mul]
  · obtain ⟨m, e, hm, he, hvalue⟩ := h
    refine ⟨m, e + 1, hm, by omega, ?_⟩
    rw [abs_mul, hvalue, Nat.abs_cast, zpow_add_one₀ two_ne_zero]
    push_cast
    ring

/-- The number next below 1 or a half. -/
theorem below_part (hc : c = 1 ∨ c = 2) : FewDigits ((1 - 1 / 2 ^ 53) / c) :=
  ⟨2 ^ 53 - 1, -52 - c, by decide, by omega, by obtain rfl | rfl := hc <;> norm_num [abs_of_pos]⟩

/-- What is greater than `m` units is greater by a whole one, if `m` has all digits. -/
theorem next_le (h : FewDigits v) (hm : 2 ^ 52 ≤ m) (hlt : (m : ℚ) * 2 ^ e < v) :
    ((m + 1 : Nat) : ℚ) * 2 ^ e ≤ v := by
  have hunit := two_zpow_pos e
  obtain ⟨n, f, hn, rfl⟩ := h.exists_of_nonneg ((digits_nonneg m e).trans hlt.le)
  have hn' : (n : ℚ) < 2 ^ 53 := by exact_mod_cast hn
  have hm' : (2 : ℚ) ^ 52 ≤ m := by exact_mod_cast hm
  have hle : e ≤ f := by
    have hpowers : (2 : ℚ) ^ (e + 52) < 2 ^ (f + 53) := by
      calc (2 : ℚ) ^ (e + 52) = 2 ^ 52 * 2 ^ e := two_zpow_add e 52
        _ ≤ m * 2 ^ e := by gcongr
        _ < n * 2 ^ f := hlt
        _ ≤ 2 ^ 53 * 2 ^ f := by gcongr
        _ = 2 ^ (f + 53) := (two_zpow_add f 53).symm
    have hexponents := lt_of_two_zpow_lt hpowers
    omega
  obtain ⟨i, rfl⟩ : ∃ i : Nat, f = e + i := ⟨(f - e).toNat, by omega⟩
  rw [two_zpow_add, ← mul_assoc] at hlt ⊢
  have hdigits : m < n * 2 ^ i := by
    have hcast := lt_of_mul_lt_mul_right hlt hunit.le
    exact_mod_cast hcast
  have hcast : ((m + 1 : Nat) : ℚ) ≤ n * 2 ^ i := by exact_mod_cast hdigits
  gcongr

/-- What is below another float is below it by its 53rd binary digit at least. -/
theorem le_of_lt (hv : FewDigits v) (hp : FewDigits p) (h0 : 0 ≤ v) (hlt : v < p) :
    v ≤ p * (1 - 1 / 2 ^ 53) := by
  obtain ⟨n, f, hn, rfl⟩ := hv.exists_of_nonneg h0
  obtain ⟨m, e, hm, rfl⟩ := hp.exists_of_nonneg (h0.trans hlt.le)
  -- in the smaller unit at least one of the two has no more than 53 digits
  obtain ⟨t, a, b, hn', hm', hfew⟩ : ∃ (t : Int) (a b : Nat), (n : ℚ) * 2 ^ f = a * 2 ^ t ∧
      (m : ℚ) * 2 ^ e = b * 2 ^ t ∧ (a < 2 ^ 53 ∨ b < 2 ^ 53) := by
    rcases le_total e f with hle | hle
    · obtain ⟨i, rfl⟩ : ∃ i : Nat, f = e + i := ⟨(f - e).toNat, by omega⟩
      refine ⟨e, n * 2 ^ i, m, ?_, rfl, .inr hm⟩
      rw [two_zpow_add, ← mul_assoc]
      norm_cast
    · obtain ⟨i, rfl⟩ : ∃ i : Nat, e = f + i := ⟨(e - f).toNat, by omega⟩
      refine ⟨f, n, m * 2 ^ i, rfl, ?_, .inl hn⟩
      rw [two_zpow_add, ← mul_assoc]
      norm_cast
  rw [hn', hm'] at hlt ⊢
  have hunits : a < b := by
    have hcast := lt_of_mul_lt_mul_right hlt (two_zpow_pos t).le
    exact_mod_cast hcast
  have hgap : 2 ^ 53 * a + b ≤ 2 ^ 53 * b := by omega
  have hcast : (2 ^ 53 * a + b : ℚ) ≤ 2 ^ 53 * b := by exact_mod_cast hgap
  have hquotient : (a : ℚ) ≤ b * (1 - 1 / 2 ^ 53) := by linarith
  calc (a : ℚ) * 2 ^ t ≤ b * (1 - 1 / 2 ^ 53) * 2 ^ t := by gcongr
    _ = b * 2 ^ t * (1 - 1 / 2 ^ 53) := by ring

end FewDigits

/-- Rounding moves no quotient of floats from below 1 or a half up to it. -/
theorem Rounds.mul_lt_one_iff (h : Rounds (v / p) w) (hc : c = 1 ∨ c = 2) (hv : FewDigits v)
    (hp : FewDigits p) (h0 : 0 ≤ v) (hpos : 0 < p) : c * w < 1 ↔ c * v < p := by
  have hcpos : (0 : ℚ) < c := by exact_mod_cast (by omega : 0 < c)
  have hpart : FewDigits (1 / c) :=
    ⟨1, 1 - c, by decide, by omega, by obtain rfl | rfl := hc <;> norm_num⟩
  constructor
  · intro hw
    by_contra hle
    rw [not_lt] at hle
    have hone : (1 : ℚ) / c ≤ v / p := by
      rw [div_le_div_iff₀ hcpos hpos]
      linarith
    have hround := (Rounds.of_fewDigits hpart).mono h hone
    rw [div_le_iff₀ hcpos] at hround
    linarith
  · intro hlt
    have hle := (hv.mul_factor hc).le_of_lt hp (by positivity) hlt
    have hquotient : v / p ≤ (1 - 1 / 2 ^ 53) / c := by
      rw [div_le_div_iff₀ hpos hcpos]
      linarith
    have hround := h.mono (Rounds.of_fewDigits (.below_part hc)) hquotient
    rw [le_div_iff₀ hcpos] at hround
    linarith

end Spreadsheet
