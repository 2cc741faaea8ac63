import Spreadsheet.Proofs.Numerals.Reading

/-!
What rational numbers are rounded to. Rounding keeps the order and the sign, leaves alone what has
few enough binary digits, and moves other numbers by at most half a unit of their last digit.
-/

namespace Spreadsheet

variable {v v' w w' : ℚ} {t t' : Int} {m n r r' : Nat} {e : Int}

/-- A number that is not negative has this target exponent, and it is nearest to so many units. -/
structure RoundedAt (v : ℚ) (t : Int) (r : Nat) : Prop where
  least : -1074 ≤ t
  lt : v < 2 ^ (t + 53)
  le : t = -1074 ∨ 2 ^ (t + 52) ≤ v
  near : Near (v / 2 ^ t) r

/-- A rational number is rounded to another one of its sign, however large they are. -/
structure Rounds (v w : ℚ) : Prop where
  magnitude : ∃ t r, RoundedAt |v| t r ∧ |w| = r * 2 ^ t
  sign : 0 ≤ v * w

/-- The number has at most 53 binary digits, and none too far behind the point. -/
def FewDigits (v : ℚ) : Prop := ∃ (m : Nat) (e : Int), m < 2 ^ 53 ∧ -1074 ≤ e ∧ |v| = m * 2 ^ e

/-! ### Magnitudes -/

theorem Near.mono {f g : ℚ} (h : Near f m) (h' : Near g n) (hle : f ≤ g) : m ≤ n := by
  by_contra hlt
  have hsucc : (n : ℚ) + 1 ≤ m := by exact_mod_cast Nat.lt_of_not_le hlt
  have hlow := h.low
  have hhigh := h'.high
  -- both are in the middle between the two, of which only one is even
  obtain rfl : m = n + 1 := by
    have hcast : (m : ℚ) = n + 1 := by linarith
    exact_mod_cast hcast
  push_cast at hlow
  have heven := h.even (.inl (by push_cast; linarith))
  have heven' := h'.even (.inr (by linarith))
  omega

theorem two_zpow_add (t : Int) (k : Nat) : (2 : ℚ) ^ (t + k) = 2 ^ k * 2 ^ t := by
  rw [zpow_add₀ two_ne_zero, zpow_natCast, mul_comm]

namespace RoundedAt

theorem upper (h : RoundedAt v t r) : r ≤ 2 ^ 53 := by
  have hquotient : v / 2 ^ t < 2 ^ 53 := by
    rw [div_lt_iff₀ (two_zpow_pos t)]
    exact (two_zpow_add t 53) ▸ h.lt
  have hlow := h.near.low
  have hcast : (r : ℚ) < 2 ^ 53 + 1 := by linarith
  have hlt : r < 2 ^ 53 + 1 := by exact_mod_cast hcast
  omega

theorem lower (h : RoundedAt v t r) (ht : t ≠ -1074) : 2 ^ 52 ≤ r := by
  have hquotient : (2 : ℚ) ^ 52 ≤ v / 2 ^ t := by
    rw [le_div_iff₀ (two_zpow_pos t)]
    exact (two_zpow_add t 52) ▸ h.le.resolve_left ht
  have hhigh := h.near.high
  have hcast : (2 : ℚ) ^ 52 < r + 1 := by linarith
  have hlt : 2 ^ 52 < r + 1 := by exact_mod_cast hcast
  omega

theorem mono (h : RoundedAt v t r) (h' : RoundedAt v' t' r') (hle : v ≤ v') :
    (r : ℚ) * 2 ^ t ≤ r' * 2 ^ t' := by
  rcases Int.lt_trichotomy t t' with hlt | rfl | hgt
  · have hr : (r : ℚ) ≤ 2 ^ 53 := by exact_mod_cast h.upper
    have hr' : (2 : ℚ) ^ 52 ≤ r' := by
      have hleast := h.least
      exact_mod_cast h'.lower (by omega)
    calc (r : ℚ) * 2 ^ t ≤ 2 ^ 53 * 2 ^ t := mul_le_mul_of_nonneg_right hr (two_zpow_pos t).le
      _ = 2 ^ (t + 53) := (two_zpow_add t 53).symm
      _ ≤ 2 ^ (t' + 52) := zpow_le_zpow_right₀ one_le_two (by omega)
      _ = 2 ^ 52 * 2 ^ t' := two_zpow_add t' 52
      _ ≤ r' * 2 ^ t' := mul_le_mul_of_nonneg_right hr' (two_zpow_pos t').le
  · have hle' : v / 2 ^ t ≤ v' / 2 ^ t := div_le_div_of_nonneg_right hle (two_zpow_pos t).le
    have hr : (r : ℚ) ≤ r' := by exact_mod_cast h.near.mono h'.near hle'
    exact mul_le_mul_of_nonneg_right hr (two_zpow_pos t).le
  · have hleast := h'.least
    have hbound : (2 : ℚ) ^ (t + 52) < 2 ^ (t' + 53) :=
      ((h.le.resolve_left (by omega)).trans hle).trans_lt h'.lt
    have hexponents := lt_of_two_zpow_lt hbound
    omega

/-- A number in the range of normal floats is moved by at most half a unit of its last digit. -/
theorem error (h : RoundedAt v t r) (hv : 2 ^ (-1022 : Int) ≤ v) :
    |r * 2 ^ t - v| ≤ v / 2 ^ 53 := by
  have hunit : (2 : ℚ) ^ t ≤ v / 2 ^ 52 := by
    rw [le_div_iff₀ (by norm_num), mul_comm, ← two_zpow_add]
    rcases h.le with rfl | hle
    · exact hv
    · exact hle
  have hlow := mul_le_mul_of_nonneg_right h.near.low (two_zpow_pos t).le
  have hhigh := mul_le_mul_of_nonneg_right h.near.high (two_zpow_pos t).le
  rw [div_mul_cancel₀ _ (two_zpow_pos t).ne'] at hlow hhigh
  rw [abs_le]
  constructor <;> linarith

theorem zero : RoundedAt 0 (-1074) 0 := by
  refine ⟨Int.le_refl _, two_zpow_pos _, .inl rfl, ?_⟩
  rw [zero_div]
  exact (Shows.exact Nat.cast_zero.symm).near

/-- Digits that are few enough are a number of units: zeros are put behind them until the leading
one stands where it should. -/
theorem of_digits (hpos : 0 < m) (hm : m < 2 ^ 53) (he : -1074 ≤ e) :
    ∃ t r, RoundedAt (m * 2 ^ e) t r ∧ (m : ℚ) * 2 ^ e = r * 2 ^ t := by
  generalize ht : max (e + m.log2 - 52) (-1074) = t
  have hlog : m.log2 ≤ 52 := log2_le_of_lt hm
  obtain ⟨k, hk⟩ := Int.eq_ofNat_of_zero_le (show 0 ≤ e - t by omega)
  have hvalue : (m : ℚ) * 2 ^ e = (m * 2 ^ k : Nat) * 2 ^ t := by
    have hexponent : e = t + k := by omega
    rw [hexponent, two_zpow_add]
    push_cast
    ring
  refine ⟨t, m * 2 ^ k, ⟨by omega, ?_, ?_, ?_⟩, hvalue⟩
  · have hlt : (m : ℚ) < 2 ^ (m.log2 + 1) := by exact_mod_cast Nat.lt_log2_self
    calc (m : ℚ) * 2 ^ e < 2 ^ (m.log2 + 1) * 2 ^ e :=
          mul_lt_mul_of_pos_right hlt (two_zpow_pos e)
      _ = 2 ^ (e + (m.log2 + 1 : Nat)) := (two_zpow_add e _).symm
      _ ≤ 2 ^ (t + 53) := zpow_le_zpow_right₀ one_le_two (by push_cast; omega)
  · by_cases hleast : t = -1074
    · exact .inl hleast
    · right
      have hle : (2 : ℚ) ^ m.log2 ≤ m := by exact_mod_cast Nat.log2_self_le hpos.ne'
      calc (2 : ℚ) ^ (t + 52) = 2 ^ (e + (m.log2 : Nat)) := by congr 1; omega
        _ = 2 ^ m.log2 * 2 ^ e := two_zpow_add e _
        _ ≤ m * 2 ^ e := mul_le_mul_of_nonneg_right hle (two_zpow_pos e).le
  · rw [hvalue, mul_div_cancel_right₀ _ (two_zpow_pos t).ne']
    exact (Shows.exact rfl).near

end RoundedAt

/-! ### Numbers of either sign -/

namespace Rounds

theorem neg (h : Rounds v w) : Rounds (-v) (-w) := by
  obtain ⟨hmagnitude, hsign⟩ := h
  constructor
  · rwa [abs_neg, abs_neg]
  · rwa [neg_mul_neg]

theorem abs (h : Rounds v w) : Rounds |v| |w| := by
  obtain ⟨hmagnitude, -⟩ := h
  constructor
  · rwa [abs_abs, abs_abs]
  · exact mul_nonneg (abs_nonneg v) (abs_nonneg w)

theorem of_zero (h : Rounds 0 w) : w = 0 := by
  obtain ⟨t, r, hr, hw⟩ := h.magnitude
  have hnear := hr.near
  rw [abs_zero, zero_div] at hnear
  obtain rfl : r = 0 := hnear.unique (Shows.exact Nat.cast_zero.symm).near
  rwa [Nat.cast_zero, zero_mul, abs_eq_zero] at hw

theorem nonneg (h : Rounds v w) (hv : 0 ≤ v) : 0 ≤ w := by
  rcases hv.eq_or_lt with rfl | hpos
  · exact h.of_zero.ge
  · exact nonneg_of_mul_nonneg_right h.sign hpos

theorem nonpos (h : Rounds v w) (hv : v ≤ 0) : w ≤ 0 := by
  have hneg := h.neg.nonneg (neg_nonneg.2 hv)
  linarith

theorem mono (h : Rounds v w) (h' : Rounds v' w') (hle : v ≤ v') : w ≤ w' := by
  have hpos {v v' w w' : ℚ} (h : Rounds v w) (h' : Rounds v' w') (hv : 0 ≤ v) (hle : v ≤ v') :
      w ≤ w' := by
    obtain ⟨t, r, hr, hw⟩ := h.magnitude
    obtain ⟨t', r', hr', hw'⟩ := h'.magnitude
    rw [abs_of_nonneg hv] at hr
    rw [abs_of_nonneg (hv.trans hle)] at hr'
    rw [abs_of_nonneg (h.nonneg hv)] at hw
    rw [abs_of_nonneg (h'.nonneg (hv.trans hle))] at hw'
    rw [hw, hw']
    exact hr.mono hr' hle
  rcases le_total 0 v with hv | hv
  · exact hpos h h' hv hle
  · rcases le_total 0 v' with hv' | hv'
    · exact (h.nonpos hv).trans (h'.nonneg hv')
    · have hneg := hpos h'.neg h.neg (neg_nonneg.2 hv') (neg_le_neg hle)
      linarith

theorem unique (h : Rounds v w) (h' : Rounds v w') : w = w' :=
  le_antisymm (h.mono h' le_rfl) (h'.mono h le_rfl)

theorem of_fewDigits (h : FewDigits v) : Rounds v v := by
  obtain ⟨m, e, hm, he, hv⟩ := h
  refine ⟨?_, mul_self_nonneg v⟩
  rw [hv]
  rcases Nat.eq_zero_or_pos m with rfl | hpos
  · rw [Nat.cast_zero, zero_mul]
    exact ⟨_, 0, .zero, by rw [Nat.cast_zero, zero_mul]⟩
  · exact RoundedAt.of_digits hpos hm he

/-- What has few digits is left alone. -/
theorem eq_of_fewDigits (h : Rounds v w) (hv : FewDigits v) : w = v := h.unique (of_fewDigits hv)

theorem error (h : Rounds v w) (hv : 2 ^ (-1022 : Int) ≤ |v|) : |w - v| ≤ |v| / 2 ^ 53 := by
  have hpos {v w : ℚ} (h : Rounds v w) (hv : 0 ≤ v) (hlarge : 2 ^ (-1022 : Int) ≤ |v|) :
      |w - v| ≤ |v| / 2 ^ 53 := by
    obtain ⟨t, r, hr, hw⟩ := h.magnitude
    rw [abs_of_nonneg (h.nonneg hv)] at hw
    rw [abs_of_nonneg hv] at hr hlarge ⊢
    rw [hw]
    exact hr.error hlarge
  rcases le_total 0 v with hsign | hsign
  · exact hpos h hsign hv
  · have herror := hpos h.neg (neg_nonneg.2 hsign) (by rwa [abs_neg])
    rwa [abs_neg, neg_sub_neg, abs_sub_comm] at herror

end Rounds

/-! ### Few digits -/

namespace FewDigits

theorem natCast (hn : n ≤ 2 ^ 53) : FewDigits n := by
  rcases hn.lt_or_eq with hlt | rfl
  · exact ⟨n, 0, hlt, by decide, by rw [zpow_zero, mul_one, Nat.abs_cast]⟩
  · exact ⟨1, 53, by decide, by decide, by norm_num⟩

theorem zero : FewDigits 0 := by
  rw [← Nat.cast_zero]
  exact natCast (by decide)

theorem one : FewDigits 1 := by
  rw [← Nat.cast_one]
  exact natCast (by decide)

theorem zpow (he : -1074 ≤ e) : FewDigits (2 ^ e) :=
  ⟨1, e, by decide, he, by rw [Nat.cast_one, one_mul, abs_of_pos (two_zpow_pos e)]⟩

theorem neg (h : FewDigits v) : FewDigits (-v) := by
  rwa [FewDigits, abs_neg]

theorem intCast {n : Int} (hn : n.natAbs ≤ 2 ^ 53) : FewDigits n := by
  obtain ⟨k, rfl | rfl⟩ := n.eq_nat_or_neg
  · rw [Int.natAbs_natCast] at hn
    exact_mod_cast natCast hn
  · rw [Int.natAbs_neg, Int.natAbs_natCast] at hn
    have hneg := (natCast hn).neg
    exact_mod_cast hneg

end FewDigits

end Spreadsheet
