import Spreadsheet.Proofs.Arithmetic.Calls
import Mathlib.Data.Nat.Choose.Central

/-!
Binomial coefficients, built up in a float by a multiplication and a division for each factor. A
product that has few enough digits is not rounded, and then neither is the quotient. Only the last
few products can be too long, since each step at least doubles the coefficient.
-/

namespace Spreadsheet

variable {scope : Scope} {source : Source} {a c s w : ℚ} {b j k m n r : Nat} {x y acc i : Float}

/-! ### Relative errors -/

/-- The most that rounding moves a normal number of magnitude one. -/
def roundoff : ℚ := 1 / 2 ^ 53

/-- The number is another one but for as many relative errors of rounding. -/
def Approximates (m : Nat) (c a : ℚ) : Prop :=
  c * (1 - roundoff) ^ m ≤ a ∧ a ≤ c * (1 + roundoff) ^ m

namespace Approximates

theorem self (c : ℚ) : Approximates 0 c c := by
  rw [Approximates, pow_zero, pow_zero, mul_one]
  exact ⟨le_rfl, le_rfl⟩

theorem eq (h : Approximates 0 c a) : a = c := by
  rw [Approximates, pow_zero, pow_zero, mul_one] at h
  exact le_antisymm h.2 h.1

theorem mul (h : Approximates m c a) (hs : 0 ≤ s) : Approximates m (c * s) (a * s) := by
  constructor
  · rw [mul_right_comm]
    exact mul_le_mul_of_nonneg_right h.1 hs
  · rw [mul_right_comm]
    exact mul_le_mul_of_nonneg_right h.2 hs

theorem mono (h : Approximates m c a) (hc : 0 ≤ c) (hle : m ≤ n) : Approximates n c a := by
  constructor
  · refine le_trans (mul_le_mul_of_nonneg_left ?_ hc) h.1
    exact pow_le_pow_of_le_one (by norm_num [roundoff]) (by norm_num [roundoff]) hle
  · refine h.2.trans (mul_le_mul_of_nonneg_left ?_ hc)
    exact pow_le_pow_right₀ (by norm_num [roundoff]) hle

/-- Rounding adds one error. -/
theorem rounds (h : Approximates m c a) (hw : Rounds a w) (ha : 2 ^ (-1022 : Int) ≤ a) :
    Approximates (m + 1) c w := by
  have hpos : 0 < a := (two_zpow_pos _).trans_le ha
  have herror := hw.error (ha.trans (le_abs_self a))
  rw [abs_of_pos hpos, abs_le] at herror
  constructor
  · calc c * (1 - roundoff) ^ (m + 1) = c * (1 - roundoff) ^ m * (1 - roundoff) := by
          rw [pow_succ, mul_assoc]
      _ ≤ a * (1 - roundoff) := mul_le_mul_of_nonneg_right h.1 (by norm_num [roundoff])
      _ ≤ w := by
        rw [roundoff]
        linarith [herror.1]
  · calc w ≤ a * (1 + roundoff) := by
          rw [roundoff]
          linarith [herror.2]
      _ ≤ c * (1 + roundoff) ^ m * (1 + roundoff) :=
          mul_le_mul_of_nonneg_right h.2 (by norm_num [roundoff])
      _ = c * (1 + roundoff) ^ (m + 1) := by rw [pow_succ, mul_assoc]

/-- Up to ten errors do not come to a factor of two. -/
theorem bounds (h : Approximates m c a) (hc : 0 ≤ c) (hm : m ≤ 12) : c / 2 ≤ a ∧ a ≤ 2 * c := by
  obtain ⟨hlow, hhigh⟩ := h.mono hc hm
  have hhalf : (1 : ℚ) / 2 ≤ (1 - roundoff) ^ 12 := by norm_num [roundoff]
  have htwo : (1 + roundoff) ^ 12 ≤ 2 := by norm_num [roundoff]
  constructor
  · linarith [mul_le_mul_of_nonneg_left hhalf hc]
  · linarith [mul_le_mul_of_nonneg_left htwo hc]

/-- An operation adds one error. -/
theorem of_isRounding (h : Approximates m c a) (hx : IsRounding x a) (hc : 1 ≤ c)
    (hc' : c ≤ 2 ^ 58) (hm : m ≤ 12) : ∃ w, Represents x w ∧ Approximates (m + 1) c w := by
  obtain ⟨hlow, hhigh⟩ := h.bounds (zero_le_one.trans hc) hm
  have hsmall : (2 : ℚ) ^ (-1022 : Int) ≤ a := by
    calc (2 : ℚ) ^ (-1022 : Int) ≤ 2 ^ (-1 : Int) := zpow_le_zpow_right₀ one_le_two (by decide)
      _ ≤ a := by
        norm_num
        linarith
  have hlarge : |a| ≤ 2 ^ (1023 : Int) := by
    rw [abs_of_nonneg (by linarith)]
    calc a ≤ 2 ^ (59 : Int) := by
          norm_num
          linarith
      _ ≤ 2 ^ (1023 : Int) := zpow_le_zpow_right₀ one_le_two (by decide)
  obtain ⟨w, hw, hxw⟩ := hx.exists_of_le hlarge
  exact ⟨w, hxw, h.rounds hw hsmall⟩

/-- Ten errors of a number below `2 ^ 53` do not come to more than ten. -/
theorem floor_near {c : Nat} (h : Approximates 10 c a) (hc : c < 2 ^ 53) :
    ⌊a + 1 / 2⌋₊ ≤ c + 10 ∧ c ≤ ⌊a + 1 / 2⌋₊ + 10 := by
  have hcast : (c : ℚ) ≤ 2 ^ 53 := by exact_mod_cast hc.le
  have hlow : 1 - 10 / 2 ^ 53 ≤ (1 - roundoff) ^ 10 := by norm_num [roundoff]
  have hhigh : (1 + roundoff) ^ 10 ≤ 1 + 10 / 2 ^ 53 + 1 / 2 ^ 55 := by norm_num [roundoff]
  have habove : a ≤ c + 10 + 1 / 4 := by
    linarith [h.2, mul_le_mul_of_nonneg_left hhigh (Nat.cast_nonneg c)]
  have hbelow : (c : ℚ) - 10 ≤ a := by
    linarith [h.1, mul_le_mul_of_nonneg_left hlow (Nat.cast_nonneg c)]
  have hnonneg : 0 ≤ a := (by positivity : (0 : ℚ) ≤ c / 2).trans
    (h.bounds (Nat.cast_nonneg c) (by decide)).1
  have hfloor := Nat.floor_le (by linarith : 0 ≤ a + 1 / 2)
  have hfloor' := Nat.lt_floor_add_one (a + 1 / 2)
  constructor
  · have hlt : (⌊a + 1 / 2⌋₊ : ℚ) < (c + 10 + 1 : Nat) := by
      push_cast
      linarith
    exact Nat.le_of_lt_succ (by exact_mod_cast hlt)
  · have hlt : (c : ℚ) < (⌊a + 1 / 2⌋₊ + 10 + 1 : Nat) := by
      push_cast
      linarith
    exact Nat.le_of_lt_succ (by exact_mod_cast hlt)

/-- Four errors of a number below `2 ^ 50` do not come to one half. -/
theorem floor_eq {c : Nat} (h : Approximates 4 c a) (hc : c < 2 ^ 50) : ⌊a + 1 / 2⌋₊ = c := by
  have hcast : (c : ℚ) + 1 ≤ 2 ^ 50 := by exact_mod_cast hc
  have hlow : 1 - 1 / 2 ^ 51 ≤ (1 - roundoff) ^ 4 := by norm_num [roundoff]
  have hhigh : (1 + roundoff) ^ 4 ≤ 1 + 1 / 2 ^ 51 + 1 / 2 ^ 102 := by norm_num [roundoff]
  have habove := h.2.trans (mul_le_mul_of_nonneg_left hhigh (Nat.cast_nonneg c))
  have hbelow := (mul_le_mul_of_nonneg_left hlow (Nat.cast_nonneg c)).trans h.1
  rw [Nat.floor_eq_iff (by linarith [Nat.cast_nonneg (α := ℚ) c])]
  constructor <;> linarith

end Approximates

/-! ### Steps -/

/-- The next coefficient by the last one. -/
theorem choose_succ (b j : Nat) :
    (b + j).choose j * (b + (j + 1)) = (b + (j + 1)).choose (j + 1) * (j + 1) := by
  have hstep := Nat.add_one_mul_choose_eq (b + j) j
  rw [Nat.mul_comm]
  exact hstep

theorem choose_le_of_le (b : Nat) (h : j ≤ k) : (b + j).choose j ≤ (b + k).choose k := by
  rw [← Nat.choose_symm_add, ← Nat.choose_symm_add]
  exact Nat.choose_le_choose b (by omega)

/-- A coefficient on the way, with two errors for each of the last `m` factors. There are some only
if a product was too long, and the products have at least doubled since. -/
structure Tracks (b j m : Nat) (a : ℚ) : Prop where
  near : Approximates (2 * m) ((b + j).choose j) a
  late : m = 0 ∨ 2 ^ (m - 1) * 2 ^ 53 < (b + j).choose j * j ∧ 3 ≤ j

theorem Tracks.start (b : Nat) : Tracks b 0 0 1 := by
  refine ⟨?_, .inl rfl⟩
  rw [Nat.choose_zero_right, Nat.cast_one]
  exact .self 1

theorem Tracks.le_five (h : Tracks b j m a) (hc : (b + j).choose j < 2 ^ 53) (hj : j ≤ 28) :
    m ≤ 5 := by
  rcases h.late with rfl | ⟨hlt, -⟩
  · decide
  · have hproduct : 2 ^ (m - 1) * 2 ^ 53 < 2 ^ 53 * 28 :=
      hlt.trans_le (Nat.mul_le_mul hc.le hj)
    have hpow : 2 ^ (m - 1) < 2 ^ 5 := by omega
    have hexponent := (Nat.pow_lt_pow_iff_right (by decide)).1 hpow
    omega

/-- Products of up to `2 ^ 53` have few digits, and so do the first two. -/
theorem fewDigits_product (hn : n < 2 ^ 53) (hj : n * j ≤ 2 ^ 53 ∨ j < 3) :
    FewDigits ((n * j : Nat) : ℚ) := by
  rcases hj with hle | hlt
  · exact .natCast hle
  · obtain rfl | hle : j = 2 ∨ j ≤ 1 := by omega
    · exact ⟨n, 1, hn, by decide, by push_cast; exact abs_of_nonneg (by positivity)⟩
    · exact .natCast ((Nat.mul_le_mul_left n hle).trans (by omega))

section

variable {base : Float} {C : Nat}

/-- A product that is short enough is followed by an exact quotient. -/
theorem represents_step (hacc : Represents acc n) (hbase : Represents (base + i) k)
    (hi : Represents i j) (hj : 0 < j) (hproduct : n * k = C * j) (hC : C < 2 ^ 53)
    (hj' : j ≤ 28) (hfew : C * j ≤ 2 ^ 53 ∨ j < 3) :
    Represents (acc * (base + i) / i) C := by
  have hfactor : (j : ℚ) ≠ 0 := by exact_mod_cast hj.ne'
  have hmul := hacc.mul hbase
  rw [← Nat.cast_mul, hproduct] at hmul
  have hlarge : |((C * j : Nat) : ℚ)| < 2 ^ (1024 : Int) := by
    have hle : C * j ≤ 2 ^ 53 * 28 := Nat.mul_le_mul hC.le hj'
    rw [Nat.abs_cast]
    calc ((C * j : Nat) : ℚ) ≤ 2 ^ 53 * 28 := by exact_mod_cast hle
      _ ≤ 2 ^ (58 : Int) := by norm_num
      _ < 2 ^ (1024 : Int) := zpow_lt_zpow_right₀ one_lt_two (by decide)
  have hdiv := (hmul.represents (fewDigits_product hC hfew) hlarge).div hi hfactor
  rw [Nat.cast_mul, mul_div_cancel_right₀ _ hfactor] at hdiv
  exact hdiv.natCast hC.le

/-- A rounded product and a rounded quotient. -/
theorem approximates_step (hacc : Represents acc a) (h : Approximates (2 * m) n a) (hm : m ≤ 5)
    (hbase : Represents (base + i) k) (hi : Represents i j) (hj : 0 < j)
    (hproduct : n * k = C * j) (hpos : 0 < C) (hC : C < 2 ^ 53) (hj' : j ≤ 28) :
    ∃ a', Represents (acc * (base + i) / i) a' ∧ Approximates (2 * (m + 1)) C a' := by
  have hfactor : (1 : ℚ) ≤ j := by exact_mod_cast hj
  have hone : (1 : ℚ) ≤ C := by exact_mod_cast hpos
  have hlarge : (C : ℚ) * j ≤ 2 ^ 53 * 28 := by exact_mod_cast Nat.mul_le_mul hC.le hj'
  have hscaled := h.mul (Nat.cast_nonneg k)
  rw [← Nat.cast_mul, hproduct, Nat.cast_mul] at hscaled
  obtain ⟨p, hp, hnear⟩ := hscaled.of_isRounding (hacc.mul hbase) (by nlinarith) (by linarith)
    (by omega)
  have hquotient := hnear.mul (inv_nonneg.2 (Nat.cast_nonneg j))
  rw [mul_inv_cancel_right₀ (by linarith), ← div_eq_mul_inv] at hquotient
  exact hquotient.of_isRounding (hp.div hi (by linarith)) hone (by nlinarith) (by omega)

/-- The next coefficient. -/
theorem Tracks.step (h : Tracks b j m a) (hacc : Represents acc a) (hbase : Represents base b)
    (hi : Represents i (j + 1 : Nat)) (hC : (b + (j + 1)).choose (j + 1) < 2 ^ 53)
    (hj : j + 1 ≤ 28) (hjb : j + 1 ≤ b) (hb : b + (j + 1) ≤ 2 ^ 53) :
    ∃ a' m', Represents (acc * (base + i) / i) a' ∧ Tracks b (j + 1) m' a' := by
  have hle := choose_le_of_le b (Nat.le_add_right j 1)
  have hsum := hbase.add_nat hi hb
  have hproduct := choose_succ b j
  by_cases hfew : m = 0 ∧ ((b + (j + 1)).choose (j + 1) * (j + 1) ≤ 2 ^ 53 ∨ j + 1 < 3)
  · obtain ⟨rfl, hfew⟩ := hfew
    rw [h.near.eq] at hacc
    exact ⟨_, 0, represents_step hacc hsum hi (Nat.succ_pos j) hproduct hC hj hfew, .self _,
      .inl rfl⟩
  · have hpos : 0 < (b + (j + 1)).choose (j + 1) := Nat.choose_pos (Nat.le_add_left _ _)
    have hfive : m ≤ 5 := h.le_five (hle.trans_lt hC) (by omega)
    obtain ⟨a', ha', hnear⟩ := approximates_step hacc h.near hfive hsum hi (Nat.succ_pos j)
      hproduct hpos hC hj
    refine ⟨a', m + 1, ha', hnear, .inr ?_⟩
    rw [Nat.add_sub_cancel]
    rcases h.late with rfl | ⟨hlate, hj'⟩
    · rw [pow_zero, one_mul]
      omega
    · refine ⟨?_, by omega⟩
      have hdouble : 2 * ((b + j).choose j * j) ≤ (b + (j + 1)).choose (j + 1) * (j + 1) := by
        rw [← hproduct, Nat.mul_left_comm]
        exact Nat.mul_le_mul_left _ (by omega)
      have hpow : 2 ^ m ≤ 2 * 2 ^ (m - 1) := by
        rw [← Nat.pow_succ']
        exact Nat.pow_le_pow_right (by decide) (by omega)
      calc 2 ^ m * 2 ^ 53 ≤ 2 * 2 ^ (m - 1) * 2 ^ 53 := Nat.mul_le_mul_right _ hpow
        _ = 2 * (2 ^ (m - 1) * 2 ^ 53) := Nat.mul_assoc ..
        _ < 2 * ((b + j).choose j * j) := Nat.mul_lt_mul_of_pos_left hlate Nat.two_pos
        _ ≤ (b + (j + 1)).choose (j + 1) * (j + 1) := hdouble

/-- All the factors. -/
theorem binomialFrom_tracks (hbase : Represents base b) (h : Tracks b j m a)
    (hacc : Represents acc a) (hi : Represents i (j + 1 : Nat))
    (hC : (b + (j + k)).choose (j + k) < 2 ^ 53) (hj : j + k ≤ 28) (hjb : j + k ≤ b)
    (hb : b + (j + k) ≤ 2 ^ 53) :
    ∃ a' m', Represents (Number.binomialFrom base k i acc) a' ∧ Tracks b (j + k) m' a' := by
  induction k generalizing j m a acc i with
  | zero => exact ⟨a, m, hacc, h⟩
  | succ k ih =>
    rw [Number.binomialFrom, if_pos hacc.isFinite]
    have hle := choose_le_of_le b (show j + 1 ≤ j + (k + 1) by omega)
    obtain ⟨a', m', ha', hnext⟩ := h.step hacc hbase hi (hle.trans_lt hC) (by omega) (by omega)
      (by omega)
    have hi' := hi.add_nat represents_one (by omega)
    have hindex : j + (k + 1) = j + 1 + k := by omega
    rw [hindex] at hC hj hjb hb ⊢
    exact ih hnext ha' hi' hC hj hjb hb

end

/-! ### Coefficients -/

/-- The number is the coefficient or close to it: at most 10 away, and none if no product on the way
was too long or the coefficient is small enough. -/
structure CloseToChoose (r n k : Nat) : Prop where
  le_add : r ≤ n.choose k + 10
  choose_le_add : n.choose k ≤ r + 10
  exact : n.choose k < 2 ^ 50 ∨ n.choose k * min k (n - k) ≤ 2 ^ 53 ∨ min k (n - k) < 3 →
    r = n.choose k

/-- A coefficient below `2 ^ 53` has at most 28 factors. -/
theorem le_of_choose_lt (hk : k ≤ b) (hC : (b + k).choose k < 2 ^ 53) : k ≤ 28 := by
  by_contra hlt
  have hcentral := Nat.centralBinom_strictMono.monotone (show 29 ≤ k by omega)
  rw [Nat.centralBinom_eq_two_mul_choose k] at hcentral
  have hle := hcentral.trans (Nat.choose_le_choose k (show 2 * k ≤ b + k by omega))
  have hvalue : 2 ^ 53 < Nat.centralBinom 29 := by
    rw [Nat.centralBinom_eq_two_mul_choose]
    decide +kernel
  omega

theorem Tracks.closeTo (h : Tracks b k m a) (hk : k ≤ b) (hC : (b + k).choose k < 2 ^ 53) :
    CloseToChoose ⌊a + 1 / 2⌋₊ (b + k) k := by
  have hk' := le_of_choose_lt hk hC
  have hmin : min k (b + k - k) = k := by omega
  have hm := h.le_five hC hk'
  have hcast : (0 : ℚ) ≤ (b + k).choose k := Nat.cast_nonneg _
  obtain ⟨hhigh, hlow⟩ := (h.near.mono hcast (by omega)).floor_near hC
  refine ⟨hhigh, hlow, fun hsmall => ?_⟩
  rw [hmin] at hsmall
  rcases h.late with rfl | ⟨hlate, hthree⟩
  · rw [h.near.eq]
    exact Number.settles_nearest.whole _
  · have hpos : 2 ^ 53 ≤ 2 ^ (m - 1) * 2 ^ 53 := Nat.le_mul_of_pos_left _ (Nat.two_pow_pos _)
    rcases hsmall with hsmall | hsmall | hsmall
    · have hproduct : 2 ^ (m - 1) * 2 ^ 53 < 2 ^ 2 * 2 ^ 53 :=
        hlate.trans_le ((Nat.mul_le_mul hsmall.le hk').trans (by decide))
      have hpow := lt_of_mul_lt_mul_right hproduct (Nat.zero_le _)
      have hexponent := (Nat.pow_lt_pow_iff_right (by decide)).1 hpow
      exact (h.near.mono hcast (by omega)).floor_eq hsmall
    · omega
    · omega

/-- The larger of the two numbers of things chosen and left makes the same coefficient. -/
theorem CloseToChoose.symm (h : CloseToChoose r n k) (hk : k ≤ n) : CloseToChoose r n (n - k) := by
  obtain ⟨hle, hge, hexact⟩ := h
  have hmin : min (n - k) (n - (n - k)) = min k (n - k) := by omega
  constructor
  · rwa [Nat.choose_symm hk]
  · rwa [Nat.choose_symm hk]
  · rwa [hmin, Nat.choose_symm hk]

theorem represents_smaller (hx : Represents x m) (hy : Represents y n) :
    Represents (Number.smaller x y) (min m n : Nat) := by
  rw [Number.smaller, hx.isNaN, hy.isNaN, if_neg Bool.false_ne_true, if_neg Bool.false_ne_true]
  split
  · next hlt =>
    have hlt' : n < m := by exact_mod_cast (hy.lt_iff hx).1 hlt
    rwa [Nat.min_eq_right hlt'.le]
  · next hlt =>
    have hle : m ≤ n := by exact_mod_cast not_lt.1 (mt (hy.lt_iff hx).2 hlt)
    rwa [Nat.min_eq_left hle]

theorem binomial_closeTo (hx : Represents x n) (hy : Represents y k) (hk : k ≤ n)
    (hn : n ≤ 2 ^ 53) (hC : n.choose k < 2 ^ 53) :
    ∃ r : Nat, Represents (Number.binomial x y) r ∧ CloseToChoose r n k := by
  have hone : Represents 1 1 := by exact_mod_cast represents_one
  have hchosen := represents_smaller hy (hx.sub_nat hy hk hn)
  have hbase := hx.sub_nat hchosen (by omega) hn
  have hcount : Number.toNat64 (Number.smaller y (x - y)) = min k (n - k) := by
    have hle : ((min k (n - k) : Nat) : ℚ) ≤ 2 ^ 53 := by
      exact_mod_cast (show min k (n - k) ≤ 2 ^ 53 by omega)
    rw [Number.toNat64_of_represents hchosen (Nat.cast_nonneg _) hle, Nat.floor_natCast]
  -- one of the two numbers of things is the smaller one, and the other one is the base
  obtain ⟨k', hk', hle, hclose⟩ : ∃ k', min k (n - k) = k' ∧ k' ≤ n - k' ∧
      (n.choose k' = n.choose k ∧ ∀ r, CloseToChoose r n k' → CloseToChoose r n k) := by
    rcases Nat.le_total k (n - k) with hle | hle
    · exact ⟨k, Nat.min_eq_left hle, by omega, rfl, fun _ h => h⟩
    · refine ⟨n - k, Nat.min_eq_right hle, by omega, Nat.choose_symm hk, fun r h => ?_⟩
      have hsymm := h.symm (Nat.sub_le n k)
      rwa [Nat.sub_sub_self hk] at hsymm
  obtain ⟨hchoose, hclose⟩ := hclose
  rw [hk'] at hbase hcount
  obtain ⟨b, rfl⟩ : ∃ b, n = b + k' := ⟨n - k', by omega⟩
  rw [Nat.add_sub_cancel] at hbase hle
  rw [← hchoose] at hC
  obtain ⟨a, m, ha, htracks⟩ := binomialFrom_tracks (k := k') hbase (.start b) hone
    represents_one (by rwa [Nat.zero_add])
    (by rw [Nat.zero_add]; exact le_of_choose_lt hle hC) (by omega) (by omega)
  rw [Nat.zero_add] at htracks
  have hnonneg : 0 ≤ a := by
    have hlow := (htracks.near.bounds (Nat.cast_nonneg _)
      (by have hm := htracks.le_five hC (le_of_choose_lt hle hC); omega)).1
    exact (div_nonneg (Nat.cast_nonneg _) zero_le_two).trans hlow
  refine ⟨_, ?_, hclose _ (htracks.closeTo hle hC)⟩
  rw [Number.binomial, hcount]
  exact Number.represents_round ha hnonneg

/-- There is one way to choose nothing. -/
theorem closeToChoose_one (n : Nat) : CloseToChoose 1 n 0 := by
  rw [← Nat.choose_zero_right n]
  exact ⟨Nat.le_add_right _ _, Nat.le_add_right _ _, fun _ => rfl⟩

theorem CloseToChoose.eq_one (h : CloseToChoose r n 0) : r = 1 := by
  rw [h.exact (.inr (.inr (by omega))), Nat.choose_zero_right]

theorem add_le_choose (hm : 0 < m) (hk : 0 < k) : m + k ≤ (m + k).choose m := by
  induction k, hk using Nat.le_induction with
  | base => rw [Nat.choose_symm_add, Nat.choose_one_right]
  | succ k hk ih =>
    obtain ⟨m, rfl⟩ : ∃ m', m = m' + 1 := ⟨m - 1, by omega⟩
    have hpos : 0 < (m + 1 + k).choose m := Nat.choose_pos (by omega)
    rw [← Nat.add_assoc, Nat.choose_succ_succ']
    omega

/-! ### Functions -/

namespace Combinatorics

open Number (truncate binomial)

variable {args : List Argument} {number chosen : Expr}

theorem represents_truncate (h : Represents x n) : Represents (truncate x) n := by
  have hwhole := Number.represents_truncate h (Nat.cast_nonneg n)
  rwa [Nat.floor_natCast] at hwhole

theorem not_lt_zero (h : Represents x n) : ¬x < 0 := by
  rw [h.lt_iff represents_zero_literal, not_lt]
  exact Nat.cast_nonneg n

theorem combin_eq (hx : Represents x n) (hy : Represents y k) (hle : k ≤ n)
    (hargs : AreArguments args ([x, y].map Value.number)) :
    combin args = .ok (binomial (truncate x) (truncate y)) := by
  have hx' := represents_truncate hx
  have hy' := represents_truncate hy
  have hlt : ¬truncate x < truncate y := by
    rw [hx'.lt_iff hy', not_lt]
    exact_mod_cast hle
  rw [combin, hargs.numberAt rfl, hargs.numberAt rfl]
  dsimp only [bind, Except.bind]
  rw [decide_eq_false (not_lt_zero hx'), decide_eq_false (not_lt_zero hy'), decide_eq_false hlt]
  rfl

/-- The number of things to choose from, with repetition. The sum is rounded only if there is one
way to choose. -/
theorem represents_total (hx : Represents x n) (hy : Represents y k) (hpos : 0 < n)
    (hn : n ≤ 2 ^ 53) (hk : k ≤ 2 ^ 53) (hC : (n + k - 1).choose (n - 1) < 2 ^ 53) :
    ∃ t : Nat, Represents (x + y - 1) t ∧ n - 1 ≤ t ∧ t ≤ 2 ^ 53 ∧ (t = n + k - 1 ∨ n = 1) := by
  by_cases hsum : n + k ≤ 2 ^ 53
  · have htotal := (hx.add_nat hy hsum).sub_nat represents_one (by omega) hsum
    exact ⟨n + k - 1, htotal, by omega, by omega, .inl rfl⟩
  · have hn1 : n = 1 := by
      by_contra hne
      have hle := add_le_choose (m := n - 1) (k := k) (by omega) (by omega)
      have hindex : n - 1 + k = n + k - 1 := by omega
      rw [hindex] at hle
      omega
    subst hn1
    obtain rfl : k = 2 ^ 53 := by omega
    rw [hx.eq_ofNat Nat.one_pos hn, hy.eq_ofNat (Nat.two_pow_pos 53) hk]
    have htotal : Float.ofNat 1 + Float.ofNat (2 ^ 53) - 1 = Float.ofNat (2 ^ 53 - 1) := by
      decide +kernel
    rw [htotal]
    exact ⟨2 ^ 53 - 1, represents_ofNat (by decide), by decide, by decide, .inr rfl⟩

theorem combinA_closeTo (hx : Represents x n) (hy : Represents y k) (hpos : 0 < n)
    (hn' : n ≤ 2 ^ 53) (hk' : k ≤ 2 ^ 53) (hC : (n + k - 1).choose (n - 1) < 2 ^ 53) :
    ∃ z, ∃ r : Nat, Represents z r ∧ CloseToChoose r (n + k - 1) (n - 1) ∧
      ∀ args, AreArguments args ([x, y].map Value.number) → combinA args = .ok z := by
  have hx' := represents_truncate hx
  have hy' := represents_truncate hy
  obtain ⟨t, htotal, hle, hmost, ht⟩ := represents_total hx' hy' hpos hn' hk' hC
  have hchosen := hx'.sub_nat represents_one hpos hn'
  have hlt : ¬truncate x + truncate y - 1 < truncate x - 1 := by
    rw [htotal.lt_iff hchosen, not_lt]
    exact_mod_cast hle
  by_cases hspecial :
      ((truncate x == 0 || truncate x == 1) && truncate y == 0) = true
  · have hk0 : k = 0 := by
      rw [Bool.and_eq_true, hy'.beq_iff represents_zero_literal] at hspecial
      exact_mod_cast hspecial.2
    have hn1 : n = 1 := by
      rw [Bool.and_eq_true, Bool.or_eq_true, hx'.beq_iff represents_zero_literal,
        hx'.beq_iff represents_one] at hspecial
      have hcases : n = 0 ∨ n = 1 := by exact_mod_cast hspecial.1
      omega
    subst hk0 hn1
    refine ⟨1, 1, represents_one, closeToChoose_one _, fun args hargs => ?_⟩
    rw [combinA, hargs.numberAt rfl, hargs.numberAt rfl]
    dsimp only [bind, Except.bind]
    rw [if_pos hspecial]
    rfl
  · obtain ⟨r, hr, hclose⟩ : ∃ r : Nat, Represents (binomial (truncate x + truncate y - 1)
        (truncate x - 1)) r ∧ CloseToChoose r (n + k - 1) (n - 1) := by
      rcases ht with rfl | rfl
      · exact binomial_closeTo htotal hchosen hle hmost hC
      · obtain ⟨r, hr, hclose⟩ := binomial_closeTo htotal hchosen hle hmost
          (by rw [Nat.sub_self, Nat.choose_zero_right]; decide)
        rw [Nat.sub_self] at hclose ⊢
        rw [hclose.eq_one] at hr
        exact ⟨1, hr, closeToChoose_one _⟩
    refine ⟨_, r, hr, hclose, fun args hargs => ?_⟩
    rw [combinA, hargs.numberAt rfl, hargs.numberAt rfl]
    dsimp only [bind, Except.bind]
    rw [if_neg hspecial, decide_eq_false (not_lt_zero hx'), decide_eq_false (not_lt_zero hy'),
      decide_eq_false (not_lt_zero hchosen), decide_eq_false hlt]
    rfl

/-- Below `2 ^ 53`, `COMBIN` and `COMBINA` are whole numbers at most 10 away from the coefficients
that they name. They are the coefficients themselves below `2 ^ 50`, where the coefficient times
the number of factors is at most `2 ^ 53`, and for up to two factors. -/
theorem combinations
    (hcombin : scope.functions.find? "COMBIN" = Registry.find? builtins "COMBIN")
    (hcombinA : scope.functions.find? "COMBINA" = Registry.find? builtins "COMBINA")
    (hn : number.ReadsAs scope source n) (hk : chosen.ReadsAs scope source k) (hn' : n ≤ 2 ^ 53)
    (hk' : k ≤ 2 ^ 53) :
    (k ≤ n → n.choose k < 2 ^ 53 → ∃ r : Nat,
      (Expr.call "COMBIN" [number, chosen]).Yields scope source r ∧ CloseToChoose r n k) ∧
    (1 ≤ n → (n + k - 1).choose (n - 1) < 2 ^ 53 → ∃ r : Nat,
      (Expr.call "COMBINA" [number, chosen]).Yields scope source r ∧
        CloseToChoose r (n + k - 1) (n - 1)) := by
  obtain ⟨x, hx, hnumber⟩ := hn
  obtain ⟨y, hy, hchosen⟩ := hk
  have hfind : scope.functions.find? "COMBIN" =
      some (.ofNumbers "COMBIN" .math 2 (some 2) combin) := hcombin
  have hfindA : scope.functions.find? "COMBINA" =
      some (.ofNumbers "COMBINA" .math 2 (some 2) combinA) := hcombinA
  have hreads : List.Forall₂ (fun e x => e.Reads scope source (.number x)) [number, chosen]
      [x, y] := .cons hnumber (.cons hchosen .nil)
  constructor
  · intro hle hC
    obtain ⟨r, hr, hclose⟩ :=
      binomial_closeTo (represents_truncate hx) (represents_truncate hy) hle hn' hC
    exact ⟨r, ⟨_, hr, evaluates_finite hfind rfl hreads (fun _ => combin_eq hx hy hle)
      hr.isFinite⟩, hclose⟩
  · intro hpos hC
    obtain ⟨z, r, hr, hclose, hvalue⟩ := combinA_closeTo hx hy hpos hn' hk' hC
    exact ⟨r, ⟨z, hr, evaluates_finite hfindA rfl hreads hvalue hr.isFinite⟩, hclose⟩

theorem combinations_lottery :
    (∃ r : Nat, (Expr.call "COMBIN" [.literal (.number (Float.ofNat 49)),
      .literal (.number (Float.ofNat 6))]).Yields ((Engine.new .zero [] []).scope none)
        Source.zero r ∧ CloseToChoose r 49 6) ∧
    ∃ r : Nat, (Expr.call "COMBINA" [.literal (.number (Float.ofNat 49)),
      .literal (.number (Float.ofNat 6))]).Yields ((Engine.new .zero [] []).scope none)
        Source.zero r ∧ CloseToChoose r 54 48 := by
  have hn : (Expr.literal (.number (Float.ofNat 49))).ReadsAs
      ((Engine.new .zero [] []).scope none) Source.zero (49 : Nat) :=
    Expr.readsAs_literal (represents_ofNat (by decide))
  have hk : (Expr.literal (.number (Float.ofNat 6))).ReadsAs
      ((Engine.new .zero [] []).scope none) Source.zero (6 : Nat) :=
    Expr.readsAs_literal (represents_ofNat (by decide))
  obtain ⟨hcombin, hcombinA⟩ := combinations rfl rfl hn hk (by decide) (by decide)
  exact ⟨hcombin (by decide) (by decide +kernel), hcombinA (by decide) (by decide +kernel)⟩

/-- The product for the third factor is rounded, and its third is next to another whole number than
the coefficient. -/
theorem not_combinations :
    ¬ ∀ (scope : Scope) (source : Source) (number chosen : Expr) (n k : Nat),
      scope.functions.find? "COMBIN" = Registry.find? builtins "COMBIN" →
      number.ReadsAs scope source n → chosen.ReadsAs scope source k → n ≤ 2 ^ 53 → k ≤ n →
      n.choose k < 2 ^ 53 →
      (Expr.call "COMBIN" [number, chosen]).Yields scope source (n.choose k) := by
  intro h
  obtain ⟨scope, hbuiltins⟩ := exists_scope
  have hfind : scope.functions.find? "COMBIN" =
      some (.ofNumbers "COMBIN" .math 2 (some 2) combin) := hbuiltins "COMBIN"
  have hx : Represents (Float.ofNat 262147) (262147 : Nat) := represents_ofNat (by decide)
  have hy : Represents (Float.ofNat 3) (3 : Nat) := represents_ofNat (by decide)
  have hC : Nat.choose 262147 3 = 3002468471537665 := by
    rw [Nat.choose_eq_descFactorial_div_factorial]
    rfl
  have hvalue : binomial (truncate (Float.ofNat 262147)) (truncate (Float.ofNat 3)) =
      Float.ofNat 3002468471537666 := by decide +kernel
  have hreads (x : Float) : (Expr.literal (.number x)).Reads scope Source.zero (.number x) :=
    Expr.reads_number x
  have hcall := evaluates_finite hfind rfl (.cons (hreads _) (.cons (hreads _) .nil))
    (fun _ => combin_eq hx hy (by decide)) (by rw [hvalue]; exact isFinite_ofNat (by decide))
  rw [hvalue] at hcall
  have hyields := h scope Source.zero _ _ 262147 3 hfind (Expr.readsAs_literal hx)
    (Expr.readsAs_literal hy) (by decide) (by decide) (by rw [hC]; decide)
  have hsame := hyields.unique ⟨_, represents_ofNat (by decide), hcall⟩
  rw [hC] at hsame
  norm_num at hsame

end Combinatorics

end Spreadsheet
