import Spreadsheet.Proofs.Places.Order

/-!
The decimals of numbers below a bound, a power of ten or the half of one. Whole numbers are read
exactly and fractions with 15 digits or more, so that just the floats that are next to the bound may
be read as the bound itself.
-/

namespace Spreadsheet

open Float.Model.UnpackedFloat

variable {v : ℚ} {c m n k t : Nat} {e : Int}

/-! ### Exponents -/

/-- Floats between a power of two and the next one have one exponent. -/
theorem Canonical.exponent_eq (hc : Canonical m e) {t : Int} (ht : -1074 ≤ t)
    (hlow : (2 : ℚ) ^ (t + 52) ≤ m * 2 ^ e) (hhigh : (m : ℚ) * 2 ^ e < 2 ^ (t + 53)) : e = t := by
  have hle := lt_of_two_zpow_lt (hlow.trans_lt hc.lt_two_zpow)
  by_contra hne
  have hlt := lt_of_two_zpow_lt ((hc.two_zpow_le (by omega)).trans_lt hhigh)
  omega

theorem Canonical.lt_of_neg (hc : Canonical m e) (he : e < 0) : (m : ℚ) * 2 ^ e < 2 ^ 52 := by
  calc (m : ℚ) * 2 ^ e < 2 ^ (e + 53) := hc.lt_two_zpow
    _ ≤ 2 ^ (52 : Int) := zpow_le_zpow_right₀ one_le_two (by omega)
    _ = 2 ^ 52 := by norm_num

namespace Number.Scaled

/-! ### Whole numbers -/

/-- Whole numbers are converted exactly, as far as there is room for them. -/
theorem multiplyTwos_eq (k : Nat) (hm : m < 2 ^ 96) :
    multiplyTwos k ⟨m, k⟩ = if m * 2 ^ k < 2 ^ 96 then some ⟨m * 2 ^ k, 0⟩ else none := by
  induction k generalizing m with
  | zero =>
    rw [pow_zero, mul_one, if_pos hm]
    rfl
  | succ k ih =>
    have hpow : m * 2 ^ (k + 1) = m * 2 * 2 ^ k := by rw [pow_succ', mul_assoc]
    rw [multiplyTwos]
    dsimp only
    by_cases hroom : m < Nat.pow 2 95
    · have hexponent : ((k + 1 : Nat) : Int) - 1 = k := by omega
      have hroom' : m < 2 ^ 95 := hroom
      rw [if_pos hroom, hexponent, hpow]
      exact ih (by omega)
    · have hlarge : 2 ^ 96 ≤ m * 2 ^ (k + 1) := by
        have hroom' : 2 ^ 95 ≤ m := not_lt.1 hroom
        calc 2 ^ 96 = 2 ^ 95 * 2 * 1 := by norm_num
          _ ≤ m * 2 * 2 ^ k := by
            gcongr
            exact Nat.one_le_two_pow
          _ = m * 2 ^ (k + 1) := hpow.symm
      rw [if_neg hroom, if_pos (by omega), if_neg (not_lt.2 hlarge)]

theorem fitted?_whole (hm : m < 2 ^ 96) (n : Nat) :
    fitted? m n = if m * 2 ^ n < 2 ^ 96 then some (m * 2 ^ n, 0) else none := by
  rw [fitted?, if_neg (by omega), Int.toNat_natCast, multiplyTwos_eq n hm]
  split <;> rfl

/-! ### Fractions -/

/-- Halving drops bits where there is no room, so that the value does not grow. -/
theorem divideTwos_le (n : Nat) (x : Exponential) :
    ((divideTwos n x).mantissa : ℚ) * 10 ^ (divideTwos n x).exponent ≤
      x.mantissa * 10 ^ x.exponent * 5 ^ n := by
  induction n generalizing x with
  | zero => rw [divideTwos, pow_zero, mul_one]
  | succ n ih =>
    have hfloor : (2 : ℚ) * (x.mantissa / 2 : Nat) ≤ x.mantissa := by
      exact_mod_cast Nat.mul_div_le x.mantissa 2
    have hhalf : ((x.mantissa / 2 : Nat) : ℚ) * 10 ^ (x.exponent + 1) * 5 ^ n ≤
        x.mantissa * 10 ^ x.exponent * 5 ^ (n + 1) := by
      rw [zpow_add_one₀ (by norm_num), pow_succ']
      calc ((x.mantissa / 2 : Nat) : ℚ) * (10 ^ x.exponent * 10) * 5 ^ n
          = 2 * (x.mantissa / 2 : Nat) * 10 ^ x.exponent * (5 * 5 ^ n) := by ring
        _ ≤ x.mantissa * 10 ^ x.exponent * (5 * 5 ^ n) := by gcongr
    rw [divideTwos]
    split
    · exact (ih _).trans hhalf
    · split
      · refine (ih _).trans_eq ?_
        dsimp only
        push_cast
        ring
      · exact (ih _).trans hhalf

theorem divideTwos_exponent_le (n : Nat) (x : Exponential) :
    (divideTwos n x).exponent ≤ x.exponent + n := by
  induction n generalizing x with
  | zero => exact (Int.add_zero _).ge
  | succ n ih =>
    have hhalf := ih ⟨x.mantissa / 2, x.exponent + 1⟩
    have hfive := ih ⟨x.mantissa * 5, x.exponent⟩
    rw [divideTwos]
    dsimp only at hhalf hfive
    split
    · omega
    · split <;> omega

/-- The `c`-fold of `m` is below `t`, and it stays so when digits are dropped until there are 15.
Rounding them one by one takes up what is more than 4 ninths of a unit: 0.44445 becomes 0.445, 0.45,
0.5 and 1. So the gap has to be more than 5 ninths of `t / 10 ^ 15 - 1`, which is nothing when 15
digits are left. -/
structure Below (c t m : Nat) : Prop where
  lt : c * m < t
  margin : 9 * 10 ^ 15 * (c * m) + 5 * (c * t) < 9 * 10 ^ 15 * t + 5 * (c * 10 ^ 15)

theorem ten_mul_dropDigit_le (m : Nat) : 10 * dropDigit m ≤ m + 5 := by
  rw [dropDigit]
  split <;> omega

theorem Below.dropDigit (h : Below c (10 * t) m) (ht : 10 ^ 15 ≤ t) : Below c t (dropDigit m) := by
  have hmargin := h.margin
  have hdrop : 10 * (c * Scaled.dropDigit m) ≤ c * m + 5 * c := by
    calc 10 * (c * Scaled.dropDigit m) = c * (10 * Scaled.dropDigit m) := by ring
      _ ≤ c * (m + 5) := Nat.mul_le_mul_left c (ten_mul_dropDigit_le m)
      _ = c * m + 5 * c := by ring
  have hten : c * (10 * t) = 10 * (c * t) := by ring
  have hroom : c * 10 ^ 15 ≤ c * t := Nat.mul_le_mul_left c ht
  rw [hten] at hmargin
  constructor <;> omega

theorem Below.dropDigits (hc : c ≤ 2) (n : Nat) (h : Below c (10 ^ (k + maxScale + n)) m) :
    Below c (10 ^ (k + (dropDigits n m).2)) (dropDigits n m).1 := by
  induction n generalizing m with
  | zero => exact h
  | succ n ih =>
    rw [Scaled.dropDigits]
    split
    · have hpos : 0 < 10 ^ (k + 0) := Nat.pow_pos (by decide)
      have hle : c * 10 ^ (k + 0) ≤ 2 * 10 ^ (k + 0) := Nat.mul_le_mul_right _ hc
      constructor <;> dsimp only <;> omega
    · refine ih (Below.dropDigit ?_ ?_)
      · rwa [← pow_succ']
      · exact Nat.pow_le_pow_right (by decide) (by rw [maxScale]; omega)

theorem Below.dropExcess (hc : 0 < c) (scale : Nat) (h : Below c (10 ^ (k + scale)) m) :
    Below c (10 ^ (k + (dropExcess scale m).2)) (dropExcess scale m).1 := by
  induction scale generalizing m with
  | zero => exact h
  | succ scale ih =>
    rw [Scaled.dropExcess]
    split
    · next hexcess =>
      have hdigits : 15 < k + (scale + 1) := by
        rw [← Nat.pow_lt_pow_iff_right (show 1 < 10 by decide)]
        calc 10 ^ 15 < 2 ^ 52 := by decide
          _ ≤ m := hexcess
          _ ≤ c * m := Nat.le_mul_of_pos_left m hc
          _ < 10 ^ (k + (scale + 1)) := h.lt
      refine ih (Below.dropDigit ?_ ?_)
      · rwa [← pow_succ']
      · exact Nat.pow_le_pow_right (by decide) (by omega)
    · exact h

theorem dropZeros_lt_iff (scale m : Nat) :
    c * (dropZeros scale m).1 < 10 ^ (k + (dropZeros scale m).2) ↔ c * m < 10 ^ (k + scale) := by
  induction scale generalizing m with
  | zero => rfl
  | succ scale ih =>
    rw [dropZeros]
    split
    · next hzero =>
      obtain ⟨q, rfl⟩ := Nat.dvd_of_mod_eq_zero hzero
      have hten : c * (10 * q) = 10 * (c * q) := by ring
      rw [ih, Nat.mul_div_cancel_left q (by decide), ← Nat.add_assoc, pow_succ', hten]
      omega
    · rfl

theorem fit?_lt {x : Exponential} {q : Nat × Nat} (hc : c = 1 ∨ c = 2) (hx : x.exponent ≤ 0)
    (h : Below c (10 ^ (k + (-x.exponent).toNat)) x.mantissa) (hq : x.fit? = some q) :
    c * q.1 < 10 ^ (k + q.2) := by
  have hdigits : ∃ p : Nat × Nat, Below c (10 ^ (k + p.2)) p.1 ∧
      q = dropZeros (Scaled.dropExcess p.2 p.1).2 (Scaled.dropExcess p.2 p.1).1 := by
    rw [Exponential.fit?, if_neg (not_lt.2 hx)] at hq
    dsimp only at hq
    by_cases hscale : maxScale < (-x.exponent).toNat
    · refine ⟨Scaled.dropDigits ((-x.exponent).toNat - maxScale) x.mantissa,
        .dropDigits (by omega) _ ?_, ?_⟩
      · rwa [Nat.add_assoc, Nat.add_sub_of_le hscale.le]
      · rw [if_pos hscale] at hq
        exact (Option.some.inj hq).symm
    · refine ⟨(x.mantissa, (-x.exponent).toNat), h, ?_⟩
      rw [if_neg hscale] at hq
      exact (Option.some.inj hq).symm
  obtain ⟨p, hp, rfl⟩ := hdigits
  rw [dropZeros_lt_iff]
  exact (hp.dropExcess (by omega) _).lt

/-- A number so far below a bound is read below it, too. -/
theorem fitted?_lt {q : Nat × Nat} (hc : c = 1 ∨ c = 2) (he : e < 0) (hv : v = m * 2 ^ e)
    (hlt : c * v < 10 ^ k) (hgap : 5 * c * 10 ^ k ≤ 9 * 10 ^ 15 * (10 ^ k - c * v))
    (hq : fitted? m e = some q) : c * q.1 < 10 ^ (k + q.2) := by
  rw [fitted?, if_pos he] at hq
  have hvalue := divideTwos_le (-e).toNat ⟨m, e⟩
  have hexponent := divideTwos_exponent_le (-e).toNat ⟨m, e⟩
  generalize divideTwos (-e).toNat ⟨m, e⟩ = x at hq hvalue hexponent
  dsimp only at hvalue hexponent
  have hx : x.exponent ≤ 0 := by omega
  refine fit?_lt hc hx ?_ hq
  have hscale : x.exponent = -((-x.exponent).toNat : Int) := by omega
  have he' : e = -((-e).toNat : Int) := by omega
  generalize (-x.exponent).toNat = s at hscale ⊢
  generalize (-e).toNat = n at hvalue he'
  have hread : (x.mantissa : ℚ) ≤ v * 10 ^ s := by
    have hten : (m : ℚ) * 10 ^ e * 5 ^ n = v := by
      have hpow : (10 : ℚ) ^ n = 2 ^ n * 5 ^ n := by rw [← mul_pow]; norm_num
      rw [hv, he', zpow_neg, zpow_neg, zpow_natCast, zpow_natCast, hpow]
      field_simp
    rwa [hten, hscale, zpow_neg, zpow_natCast, ← div_eq_mul_inv,
      div_le_iff₀ (by positivity)] at hvalue
  have hs : (0 : ℚ) < 10 ^ s := by positivity
  have hcread : (c : ℚ) * x.mantissa ≤ c * v * 10 ^ s := by
    rw [mul_assoc]
    gcongr
  constructor
  · have hbound : (c : ℚ) * x.mantissa < 10 ^ (k + s) := by
      rw [pow_add]
      exact hcread.trans_lt (mul_lt_mul_of_pos_right hlt hs)
    exact_mod_cast hbound
  · have hmargin := mul_le_mul_of_nonneg_right hgap hs.le
    have hsum : (9 * 10 ^ 15 * (c * x.mantissa) + 5 * (c * 10 ^ (k + s)) : ℚ) <
        9 * 10 ^ 15 * 10 ^ (k + s) + 5 * (c * 10 ^ 15) := by
      have hc' : (0 : ℚ) < c := by exact_mod_cast (by omega : 0 < c)
      rw [pow_add]
      linarith
    exact_mod_cast hsum

/-! ### Numbers next to a bound -/

/-- The number is so little below the bound that its digits up to the 15th are those of the
bound. -/
def Reaches (k : Nat) (bound v : ℚ) : Prop := k ≤ 15 ∧ bound - v < 5 / 9 * (10 ^ k / 10 ^ 15)

/-- The binary places of the floats next below the `c`th part of `10 ^ k`. -/
def binaryPlaces (c k : Nat) : Nat := 52 + c - (2 * 10 ^ k - 1).log2

theorem binaryPlaces_spec : ∀ k < 16, ∀ c ∈ [1, 2],
    10 ^ k * 2 ^ binaryPlaces c k ≤ c * 2 ^ 53 ∧
    9 * 10 ^ 15 * (c * 2 ^ 52) + 5 * c * (10 ^ k * 2 ^ binaryPlaces c k) ≤
      9 * 10 ^ 15 * (10 ^ k * 2 ^ binaryPlaces c k) ∧
    c * (10 ^ k * 2 ^ binaryPlaces c k / c) = 10 ^ k * 2 ^ binaryPlaces c k ∧
    binaryPlaces c k < 55 := by
  decide +kernel

theorem fitted?_next : ∀ k < 16, ∀ c ∈ [1, 2], ∀ j < 10,
    9 * 10 ^ 15 * (c * (j + 1)) < 5 * c * (10 ^ k * 2 ^ binaryPlaces c k) →
      (fitted? (10 ^ k * 2 ^ binaryPlaces c k / c - (j + 1)) (-binaryPlaces c k)).any
        (fun q => 10 ^ (k + q.2) ≤ c * q.1) = true := by
  decide +kernel

/-- A number that reaches a bound, in units of `2 ^ -p`. -/
theorem Reaches.lt_add (hc : 0 < c) (h : Reaches k (10 ^ k / c) v) (p : Nat) :
    (9 * 10 ^ 15 * (10 ^ k * 2 ^ p) : ℚ) <
      9 * 10 ^ 15 * (c * (v * 2 ^ p)) + 5 * c * (10 ^ k * 2 ^ p) := by
  have hc' : (0 : ℚ) < c := by exact_mod_cast hc
  have hp : (0 : ℚ) < 2 ^ p := by positivity
  have hgap := h.2
  rw [sub_lt_iff_lt_add, div_lt_iff₀ hc'] at hgap
  have hscaled := mul_lt_mul_of_pos_right hgap hp
  linarith

theorem Reaches.exponent_eq (hc : c = 1 ∨ c = 2) (hdigits : Canonical m e)
    (h : Reaches k (10 ^ k / c) (m * 2 ^ e)) (hlt : c * (m * 2 ^ e : ℚ) < 10 ^ k) :
    e = -binaryPlaces c k := by
  obtain ⟨hhigh, hlow, -, hplaces⟩ :=
    binaryPlaces_spec k (Nat.lt_succ_of_le h.1) c (by simpa using hc)
  have hc' : (0 : ℚ) < c := by exact_mod_cast (by omega : 0 < c)
  have hnear := h.lt_add (by omega) (binaryPlaces c k)
  generalize binaryPlaces c k = p at hhigh hlow hplaces hnear ⊢
  have hp : (0 : ℚ) < 2 ^ p := by positivity
  have hlt' := mul_lt_mul_of_pos_right hlt hp
  have hhigh' : (10 ^ k * 2 ^ p : ℚ) ≤ c * 2 ^ 53 := by exact_mod_cast hhigh
  have hlow' : (9 * 10 ^ 15 * (c * 2 ^ 52) + 5 * c * (10 ^ k * 2 ^ p) : ℚ) ≤
      9 * 10 ^ 15 * (10 ^ k * 2 ^ p) := by
    exact_mod_cast hlow
  have hunit (t : Nat) : (2 : ℚ) ^ (-(p : Int) + t) = 2 ^ t / 2 ^ p := by
    rw [two_zpow_add, zpow_neg, zpow_natCast, div_eq_mul_inv]
  refine hdigits.exponent_eq (by omega) ?_ ?_
  · refine (hunit 52).trans_le ((div_le_iff₀ hp).2 (le_of_mul_le_mul_left ?_ hc'))
    linarith
  · refine lt_of_lt_of_eq ((lt_div_iff₀ hp).2 (lt_of_mul_lt_mul_left ?_ hc'.le)) (hunit 53).symm
    linarith

/-- A number that reaches a bound is one of the ten floats next below it. -/
theorem Reaches.next (hc : c = 1 ∨ c = 2) (hdigits : Canonical m e)
    (h : Reaches k (10 ^ k / c) (m * 2 ^ e)) (hlt : c * (m * 2 ^ e : ℚ) < 10 ^ k) :
    ∃ j < 10, 10 ^ k * 2 ^ binaryPlaces c k / c = m + (j + 1) ∧
      9 * 10 ^ 15 * (c * (j + 1)) < 5 * c * (10 ^ k * 2 ^ binaryPlaces c k) := by
  have hexponent := h.exponent_eq hc hdigits hlt
  obtain ⟨hhigh, -, hwhole, -⟩ :=
    binaryPlaces_spec k (Nat.lt_succ_of_le h.1) c (by simpa using hc)
  have hnear := h.lt_add (by omega) (binaryPlaces c k)
  generalize binaryPlaces c k = p at hexponent hhigh hwhole hnear ⊢
  have hp : (0 : ℚ) < 2 ^ p := by positivity
  have hunits : (m : ℚ) * 2 ^ e * 2 ^ p = m := by
    rw [hexponent, mul_assoc, zpow_neg, zpow_natCast, inv_mul_cancel₀ hp.ne', mul_one]
  have hlt' := mul_lt_mul_of_pos_right hlt hp
  rw [mul_assoc, hunits] at hlt'
  rw [hunits] at hnear
  norm_cast at hlt' hnear
  generalize 10 ^ k * 2 ^ p = t at hhigh hwhole hlt' hnear ⊢
  obtain ⟨j, hj⟩ : ∃ j, t / c = m + (j + 1) := by
    have hm : m < t / c := by
      refine lt_of_mul_lt_mul_left ?_ (Nat.zero_le c)
      rwa [hwhole]
    exact ⟨t / c - m - 1, by omega⟩
  have ht : t = c * m + c * (j + 1) := by rw [← hwhole, hj, Nat.mul_add]
  refine ⟨j, ?_, hj, by omega⟩
  obtain rfl | rfl := hc <;> omega

/-- The digits of a number that reaches a bound are taken for those of the bound. -/
theorem Reaches.le {q : Nat × Nat} (hc : c = 1 ∨ c = 2) (hdigits : Canonical m e)
    (h : Reaches k (10 ^ k / c) (m * 2 ^ e)) (hlt : c * (m * 2 ^ e : ℚ) < 10 ^ k)
    (hq : fitted? m e = some q) : 10 ^ (k + q.2) ≤ c * q.1 := by
  obtain ⟨j, hj, hnext, hmargin⟩ := h.next hc hdigits hlt
  have hread := fitted?_next k (Nat.lt_succ_of_le h.1) c (by simpa using hc) j hj hmargin
  rw [hnext, Nat.add_sub_cancel, ← h.exponent_eq hc hdigits hlt, hq] at hread
  exact of_decide_eq_true hread

/-- A number below a bound is read below it, unless it reaches the bound. -/
theorem fitted?_lt_iff {q : Nat × Nat} (hc : c = 1 ∨ c = 2) (hdigits : Canonical m e)
    (hlt : c * (m * 2 ^ e : ℚ) < 10 ^ k) (hq : fitted? m e = some q) :
    c * q.1 < 10 ^ (k + q.2) ↔ ¬ Reaches k (10 ^ k / c) (m * 2 ^ e) := by
  refine ⟨fun hread hreaches => absurd hread (not_lt.2 (hreaches.le hc hdigits hlt hq)),
    fun hreaches => ?_⟩
  have hm := lt_two_pow_of_log2_le hdigits.log2_le
  have hcpos : (0 : ℚ) < c := by exact_mod_cast (by omega : 0 < c)
  rcases lt_or_ge e 0 with he | he
  · rcases Nat.lt_or_ge 15 k with hk | hk
    · -- fractions are all far below such a bound
      have hsmall : (m : ℚ) * 2 ^ e < 2 ^ 52 := hdigits.lt_of_neg he
      have hc' : (c : ℚ) ≤ 2 := by exact_mod_cast (by omega : c ≤ 2)
      have hproduct : (c : ℚ) * (m * 2 ^ e) ≤ 2 * 2 ^ 52 := by
        gcongr
      have hread := fitted?_lt (k := 16) hc he rfl (by linarith) (by linarith) hq
      exact hread.trans_le (Nat.pow_le_pow_right (by decide) (by omega))
    · refine fitted?_lt hc he rfl hlt ?_ hq
      rw [Reaches, not_and, not_lt, le_sub_iff_add_le, le_div_iff₀ hcpos] at hreaches
      have hgap := hreaches hk
      linarith
  · obtain ⟨n, rfl⟩ := Int.eq_ofNat_of_zero_le he
    rw [fitted?_whole (hm.trans (by decide))] at hq
    split at hq
    · cases hq
      rw [zpow_natCast] at hlt
      exact_mod_cast hlt
    · cases hq

/-! ### Floats -/

/-- Just the numbers of more than 96 bits have no decimal. -/
theorem fitted?_eq_none_iff (hdigits : Canonical m e) :
    fitted? m e = none ↔ (2 : ℚ) ^ 96 ≤ m * 2 ^ e := by
  rcases lt_or_ge e 0 with he | he
  · have hsmall := hdigits.lt_of_neg he
    have hexponent := divideTwos_exponent_le (-e).toNat ⟨m, e⟩
    dsimp only at hexponent
    have hsome : (fitted? m e).isSome = true := by
      rw [fitted?, if_pos he, Exponential.fit?, if_neg (by omega)]
      rfl
    exact iff_of_false (Option.isSome_iff_ne_none.1 hsome) (by linarith)
  · obtain ⟨n, rfl⟩ := Int.eq_ofNat_of_zero_le he
    have hm := lt_two_pow_of_log2_le hdigits.log2_le
    rw [fitted?_whole (hm.trans (by decide)), zpow_natCast, ite_eq_right_iff]
    have hlarge : ((2 : ℚ) ^ 96 ≤ m * 2 ^ n) ↔ 2 ^ 96 ≤ m * 2 ^ n := by exact_mod_cast Iff.rfl
    rw [hlarge, ← not_lt]
    exact ⟨fun h hlt => Option.some_ne_none _ (h hlt), fun h hlt => absurd hlt h⟩

theorem ofFloat?_eq_none_iff {x : Float} (hx : Represents x v) :
    ofFloat? x = none ↔ 2 ^ 96 ≤ |v| := by
  rw [Represents] at hx
  generalize hf : x.toModel.unpack = f at hx
  cases hx with
  | zero s =>
    rw [ofFloat?, hf]
    exact iff_of_false (Option.some_ne_none _) (by norm_num)
  | @finite s m e hdigits =>
    rw [ofFloat?_finite hf, Option.map_eq_none_iff, fitted?_eq_none_iff hdigits, abs_unit_mul,
      abs_of_nonneg (digits_nonneg m e)]

theorem not_reaches_zero (hc : c = 1 ∨ c = 2) : ¬ Reaches k (10 ^ k / c) 0 := by
  have hpow : (0 : ℚ) < 10 ^ k := by positivity
  rw [Reaches, not_and, not_lt, sub_zero]
  intro _
  obtain rfl | rfl := hc <;> push_cast <;> linarith

/-- A number below a bound has a decimal below it, unless the number reaches the bound. -/
theorem ofFloat?_lt_iff {x : Float} {d : Scaled} (hc : c = 1 ∨ c = 2) (hx : Represents x v)
    (hlt : c * |v| < 10 ^ k) (hd : ofFloat? x = some d) :
    c * d.mantissa < 10 ^ (k + d.scale) ↔ ¬ Reaches k (10 ^ k / c) |v| := by
  rw [Represents] at hx
  generalize hf : x.toModel.unpack = f at hx
  cases hx with
  | zero s =>
    rw [ofFloat?, hf] at hd
    cases hd
    rw [abs_zero]
    exact iff_of_true (Nat.pow_pos (by decide)) (not_reaches_zero hc)
  | @finite s m e hdigits =>
    rw [ofFloat?_finite hf] at hd
    obtain ⟨q, hq, rfl⟩ := Option.map_eq_some_iff.1 hd
    rw [abs_unit_mul, abs_of_nonneg (digits_nonneg m e)] at hlt ⊢
    exact fitted?_lt_iff hc hdigits hlt hq

end Number.Scaled

end Spreadsheet
