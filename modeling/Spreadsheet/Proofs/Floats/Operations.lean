import Spreadsheet.Proofs.Floats.Rounding
import Spreadsheet.Proofs.Writing.Decimals

/-!
Operations on finite floats. Each of them makes what the same operation on rational numbers is
rounded to, or no finite float if that is too large.
-/

namespace Spreadsheet

open Float.Model Float.Model.UnpackedFloat

/-! ### The number of a float -/

/-- The number that has this sign and the magnitude one. -/
def unit : Sign → ℚ
  | .positive => 1
  | .negative => -1

theorem unit_neg (s : Sign) : unit (-s) = -unit s := by
  cases s with
  | positive => rfl
  | negative => exact (neg_neg 1).symm

theorem unit_mul (s s' : Sign) : unit (s * s') = unit s * unit s' := by
  have hunits : (1 : ℚ) = -1 * -1 ∧ (-1 : ℚ) = -1 * 1 ∧ (-1 : ℚ) = 1 * -1 ∧ (1 : ℚ) = 1 * 1 := by
    norm_num
  cases s <;> cases s'
  exacts [hunits.1, hunits.2.1, hunits.2.2.1, hunits.2.2.2]

theorem unit_div (s s' : Sign) : unit (s / s') = unit s / unit s' := by
  have hself (s : Sign) : unit s / unit s = 1 := by cases s <;> norm_num [unit]
  have hunits : (-1 : ℚ) = -1 / 1 ∧ (-1 : ℚ) = 1 / -1 := by norm_num
  cases s <;> cases s'
  exacts [(hself _).symm, hunits.1, hunits.2, (hself _).symm]

theorem abs_unit_mul (s : Sign) (v : ℚ) : |unit s * v| = |v| := by
  cases s with
  | positive => rw [unit, one_mul]
  | negative => rw [unit, neg_one_mul, abs_neg]

/-- What a finite float stands for. -/
inductive Holds : UnpackedFloat → ℚ → Prop
  | zero (s : Sign) : Holds (.zero s) 0
  | finite (s : Sign) {m : Nat} {e : Int} (hc : Canonical m e) :
    Holds (.finite s m e hc.pos) (unit s * (m * 2 ^ e))

variable {f : UnpackedFloat} {x y : Float} {v w a b : ℚ} {m : Nat} {e : Int}

theorem digits_nonneg (m : Nat) (e : Int) : (0 : ℚ) ≤ m * 2 ^ e :=
  mul_nonneg (Nat.cast_nonneg m) (two_zpow_pos e).le

theorem Canonical.lt_two_zpow (hc : Canonical m e) : (m : ℚ) * 2 ^ e < 2 ^ (e + 53) := by
  have hm : (m : ℚ) < 2 ^ 53 := by exact_mod_cast lt_two_pow_of_log2_le hc.log2_le
  calc (m : ℚ) * 2 ^ e < 2 ^ 53 * 2 ^ e := mul_lt_mul_of_pos_right hm (two_zpow_pos e)
    _ = 2 ^ (e + 53) := (two_zpow_add e 53).symm

/-- Digits have a leading one, unless they have the least exponent. -/
theorem two_zpow_le_of_target (hm : 0 < m) (ht : targetOf m e = e) (he : e ≠ -1074) :
    (2 : ℚ) ^ (e + 52) ≤ m * 2 ^ e := by
  have hdigits : (2 : ℚ) ^ 52 ≤ m := by
    rw [targetOf] at ht
    have hlog : m.log2 = 52 := by omega
    exact_mod_cast hlog ▸ Nat.log2_self_le hm.ne'
  calc (2 : ℚ) ^ (e + 52) = 2 ^ 52 * 2 ^ e := two_zpow_add e 52
    _ ≤ m * 2 ^ e := mul_le_mul_of_nonneg_right hdigits (two_zpow_pos e).le

theorem Canonical.two_zpow_le (hc : Canonical m e) (he : e ≠ -1074) :
    (2 : ℚ) ^ (e + 52) ≤ m * 2 ^ e :=
  two_zpow_le_of_target hc.pos hc.target he

theorem Canonical.lt (hc : Canonical m e) : (m : ℚ) * 2 ^ e < 2 ^ (1024 : Int) :=
  hc.lt_two_zpow.trans_le (zpow_le_zpow_right₀ one_le_two (by have hle := hc.le; omega))

namespace Holds

theorem isFinite (h : Holds f v) : f.isFinite = true := by
  cases h <;> rfl

theorem isNaN (h : Holds f v) : f.isNaN = false := by
  cases h <;> rfl

theorem neg (h : Holds f v) : Holds f.neg (-v) := by
  cases h with
  | zero s =>
    rw [neg_zero]
    exact .zero _
  | finite s hc =>
    rw [← neg_mul, ← unit_neg]
    exact .finite _ hc

theorem abs (h : Holds f v) : Holds f.abs |v| := by
  cases h with
  | zero s =>
    rw [abs_zero]
    exact .zero _
  | @finite s m e hc =>
    have hvalue : |unit s * (m * 2 ^ e)| = unit .positive * (m * 2 ^ e) := by
      rw [abs_unit_mul, unit, one_mul, abs_of_nonneg (digits_nonneg m e)]
    rw [hvalue]
    exact .finite _ hc

theorem fewDigits (h : Holds f v) : FewDigits v := by
  cases h with
  | zero s => exact_mod_cast FewDigits.natCast (Nat.zero_le _)
  | @finite s m e hc =>
    have hleast : -1074 ≤ e := hc.target ▸ le_max_right _ _
    refine ⟨m, e, lt_two_pow_of_log2_le hc.log2_le, hleast, ?_⟩
    rw [abs_unit_mul, abs_of_nonneg (digits_nonneg m e)]

theorem abs_lt (h : Holds f v) : |v| < 2 ^ (1024 : Int) := by
  cases h with
  | zero s =>
    rw [abs_zero]
    exact two_zpow_pos _
  | @finite s m e hc =>
    rw [abs_unit_mul, abs_of_nonneg (digits_nonneg m e)]
    exact hc.lt

end Holds

/-- The float is finite and stands for the number. -/
def Represents (x : Float) (v : ℚ) : Prop := Holds x.toModel.unpack v

theorem exists_represents (hx : x.isFinite = true) : ∃ v, Represents x v := by
  obtain ⟨s, h⟩ | ⟨s, m, e, hm, h⟩ := unpack_cases hx
  · exact ⟨0, by rw [Represents, h]; exact .zero s⟩
  · exact ⟨_, by rw [Represents, h]; exact .finite s (canonical_of_isFinite hx h)⟩

theorem abs_unpack (x : Float) : x.abs.toModel.unpack = x.toModel.unpack.abs := by
  obtain ⟨⟨bits, hvalid⟩⟩ := x
  have hpack := pack_unpack hvalid
  have hneg := unpack_pack_neg (UnpackedFloat.unpack Format.binary64 bits.toBitVec)
  change UnpackedFloat.unpack Format.binary64 (UnpackedFloat.pack Format.binary64
    (UnpackedFloat.unpack Format.binary64 bits.toBitVec).abs) =
    (UnpackedFloat.unpack Format.binary64 bits.toBitVec).abs
  rw [hpack] at hneg
  cases h : UnpackedFloat.unpack Format.binary64 bits.toBitVec with
  | notANumber => rfl
  | infinity s | zero s => cases s <;> rfl
  | finite s m e hm =>
    rw [h] at hneg hpack
    cases s with
    | positive => rw [UnpackedFloat.abs, hpack, h]
    | negative => exact hneg

namespace Represents

theorem isFinite (h : Represents x v) : x.isFinite = true := Holds.isFinite h

theorem isNaN (h : Represents x v) : x.isNaN = false := Holds.isNaN h

theorem neg (h : Represents x v) : Represents (-x) (-v) := by
  rw [Represents, neg_unpack]
  exact Holds.neg h

theorem abs (h : Represents x v) : Represents x.abs |v| := by
  rw [Represents, abs_unpack]
  exact Holds.abs h

theorem fewDigits (h : Represents x v) : FewDigits v := Holds.fewDigits h

theorem abs_lt (h : Represents x v) : |v| < 2 ^ (1024 : Int) := Holds.abs_lt h

end Represents

/-! ### Rounded digits -/

theorem unpack_pack_subnormal {m : Nat} (hm : 0 < m) (hlt : m < 2 ^ 52) (s : Sign) :
    UnpackedFloat.unpack Format.binary64 (UnpackedFloat.pack Format.binary64
      (.finite s m (-1074) hm)) = .finite s m (-1074) hm := by
  obtain ⟨d, rfl⟩ : ∃ d : BitVec 52, m = d.toNat :=
    ⟨BitVec.ofNat 52 m, by rw [BitVec.toNat_ofNat, Nat.mod_eq_of_lt hlt]⟩
  have hd : ¬ d = 0#52 := by
    rintro rfl
    exact Nat.lt_irrefl 0 hm
  rw [pack_subnormal s hm]
  simp only [UnpackedFloat.unpack, unpackSign_packComponents, unpackExponent_packComponents,
    unpackMantissa_packComponents, ofBitVec_toBitVec]
  rw [if_neg (by decide)]
  exact dif_neg hd

/-- Digits that have the exponent of their number are unpacked as they were packed, unless they are
too large. -/
theorem unpack_pack_canonical (hm : 0 < m) (hlog : m.log2 ≤ 52) (he : targetOf m e = e)
    (s : Sign) : UnpackedFloat.unpack Format.binary64 (UnpackedFloat.pack Format.binary64
      (.finite s m e hm)) = if e ≤ 971 then .finite s m e hm else .infinity s := by
  have hhigh : m < 2 ^ 53 := lt_two_pow_of_log2_le hlog
  rw [targetOf] at he
  rcases Nat.lt_or_ge m (2 ^ 52) with hlt | hge
  · have hlog' : m.log2 ≤ 51 := log2_le_of_lt hlt
    obtain rfl : e = -1074 := by omega
    rw [unpack_pack_subnormal hm hlt, if_pos (by decide)]
  · exact unpack_pack hge hhigh (by omega) hm s

/-- Rounding makes the nearest number of units, which carries if it has a digit too many. -/
theorem roundWithAccuracy_spec {M : Nat} {E : Int} {accuracy : Accuracy}
    (hs : Shows M (v / 2 ^ E) accuracy) (hE : E ≤ targetOf M E) (s : Sign) :
    ∃ t r, RoundedAt v t r ∧
      (r = 0 ∧ roundWithAccuracy Format.binary64 s M E accuracy = .zero s ∨
        ∃ m e, ∃ hm : 0 < m, m.log2 ≤ 52 ∧ targetOf m e = e ∧ (m : ℚ) * 2 ^ e = r * 2 ^ t ∧
          roundWithAccuracy Format.binary64 s M E accuracy = .finite s m e hm) := by
  obtain ⟨hlt, hge⟩ := hs.target hE
  obtain ⟨r, hnear, hround⟩ := hs.round_eq_settled hE s
  have hr : RoundedAt v (targetOf M E) r := ⟨le_max_right _ _, hlt, hge, hnear⟩
  rw [hround]
  generalize targetOf M E = t at hr ⊢
  refine ⟨t, r, hr, ?_⟩
  rcases hr.upper.lt_or_eq with hfits | rfl
  · have htarget : targetOf r t = t := by
      have hlog : r.log2 ≤ 52 := log2_le_of_lt hfits
      have hleast := hr.least
      rw [targetOf]
      by_cases ht : t = -1074
      · omega
      · have hge := hr.lower ht
        have hlog' := (Nat.le_log2 (Nat.lt_of_lt_of_le (by decide) hge).ne').2 hge
        omega
    rcases Nat.eq_zero_or_pos r with rfl | hpos
    · exact .inl ⟨rfl, settled_zero htarget s⟩
    · exact .inr ⟨r, t, hpos, log2_le_of_lt hfits, htarget, rfl, settled_fixed hpos htarget s⟩
  · refine .inr ⟨2 ^ 52, t + 1, by decide, by decide, ?_, ?_, settled_carry hr.least s⟩
    · have hleast := hr.least
      rw [targetOf, Nat.log2_two_pow]
      omega
    · rw [zpow_add₀ two_ne_zero]
      norm_num
      ring

/-! ### Rounded results -/

/-- The float is what the number is rounded to, and not finite if that is too large. -/
def IsRounding (x : Float) (v : ℚ) : Prop :=
  ∃ w, Rounds v w ∧ (|w| < 2 ^ (1024 : Int) → Represents x w) ∧
    (2 ^ (1024 : Int) ≤ |w| → x.isFinite = false)

namespace IsRounding

theorem exists_of_isFinite (h : IsRounding x v) (hx : x.isFinite = true) :
    ∃ w, Rounds v w ∧ Represents x w := by
  obtain ⟨w, hw, hfits, hoverflows⟩ := h
  refine ⟨w, hw, hfits (not_le.1 fun hlarge => ?_)⟩
  rw [hoverflows hlarge] at hx
  cases hx

/-- A result that is no larger than a float is finite. -/
theorem exists_of_abs_le (h : IsRounding x v) (hb : FewDigits b) (hv : |v| ≤ b)
    (hlt : b < 2 ^ (1024 : Int)) : ∃ w, Rounds v w ∧ Represents x w := by
  obtain ⟨w, hw, hfits, -⟩ := h
  have hbound : Rounds b b := .of_fewDigits hb
  obtain ⟨hlow, hhigh⟩ := abs_le.1 hv
  have hle : |w| ≤ b := abs_le.2 ⟨hbound.neg.mono hw hlow, hw.mono hbound hhigh⟩
  exact ⟨w, hw, hfits (hle.trans_lt hlt)⟩

theorem exists_of_le (h : IsRounding x v) (hv : |v| ≤ 2 ^ (1023 : Int)) :
    ∃ w, Rounds v w ∧ Represents x w :=
  h.exists_of_abs_le (.zpow (by decide)) hv (zpow_lt_zpow_right₀ one_lt_two (by decide))

/-- Rounding does not reach beyond a power of two. -/
theorem exists_le_zpow (h : IsRounding x v) (hv : 0 ≤ v) (hle : v ≤ 2 ^ e) (he : -1074 ≤ e)
    (he' : e < 1024) : ∃ w, Rounds v w ∧ Represents x w ∧ 0 ≤ w ∧ w ≤ 2 ^ e := by
  obtain ⟨w, hw, hx⟩ := h.exists_of_abs_le (.zpow he) (by rwa [abs_of_nonneg hv])
    (zpow_lt_zpow_right₀ one_lt_two he')
  exact ⟨w, hw, hx, hw.nonneg hv, hw.mono (.of_fewDigits (.zpow he)) hle⟩

/-- A result with few digits is exact. -/
theorem represents (h : IsRounding x v) (hv : FewDigits v) (hlt : |v| < 2 ^ (1024 : Int)) :
    Represents x v := by
  obtain ⟨w, hw, hfits, -⟩ := h
  rw [hw.eq_of_fewDigits hv] at hfits
  exact hfits hlt

end IsRounding

theorem Represents.isRounding (h : Represents x v) : IsRounding x v :=
  ⟨v, .of_fewDigits h.fewDigits, fun _ => h, fun hle => absurd h.abs_lt (not_lt.2 hle)⟩

/-- Rounding a magnitude and putting a sign before it. -/
theorem RoundedAt.rounds (h : RoundedAt v t r) (hv : 0 ≤ v) (s : Sign) :
    Rounds (unit s * v) (unit s * (r * 2 ^ t)) := by
  have hunits : (0 : ℚ) ≤ r * 2 ^ t := digits_nonneg r t
  constructor
  · rw [abs_unit_mul, abs_unit_mul, abs_of_nonneg hv, abs_of_nonneg hunits]
    exact ⟨t, r, h, rfl⟩
  · cases s with
    | positive =>
      rw [unit, one_mul, one_mul]
      exact mul_nonneg hv hunits
    | negative =>
      rw [unit, neg_one_mul, neg_one_mul, neg_mul_neg]
      exact mul_nonneg hv hunits

/-- A float of rounded digits. -/
theorem isRounding_of_shows {M : Nat} {E : Int} {accuracy : Accuracy} {s : Sign} (hv : 0 ≤ v)
    (hs : Shows M (v / 2 ^ E) accuracy) (hE : E ≤ targetOf M E)
    (hx : x = .ofModel (.pack (roundWithAccuracy Format.binary64 s M E accuracy))) :
    IsRounding x (unit s * v) := by
  obtain ⟨t, r, hr, hcases⟩ := roundWithAccuracy_spec hs hE s
  have hunpack : x.toModel.unpack = UnpackedFloat.unpack Format.binary64
      (UnpackedFloat.pack Format.binary64 (roundWithAccuracy Format.binary64 s M E accuracy)) := by
    rw [hx]
    rfl
  refine ⟨_, hr.rounds hv s, ?_⟩
  rw [abs_unit_mul, abs_of_nonneg (digits_nonneg r t)]
  obtain ⟨rfl, hzero⟩ | ⟨m, e, hm, hlog, he, hvalue, hfinite⟩ := hcases
  · have hx : x.toModel.unpack = .zero s := by
      rw [hunpack, hzero]
      cases s <;> rfl
    rw [Nat.cast_zero, zero_mul, mul_zero, Represents, hx]
    exact ⟨fun _ => .zero s, fun hle => absurd hle (not_le.2 (two_zpow_pos _))⟩
  · have hx : x.toModel.unpack = if e ≤ 971 then .finite s m e hm else .infinity s := by
      rw [hunpack, hfinite, unpack_pack_canonical hm hlog he]
    rw [← hvalue]
    by_cases hle : e ≤ 971
    · have hc : Canonical m e := ⟨hm, hlog, he, hle⟩
      rw [if_pos hle] at hx
      rw [Represents, hx]
      exact ⟨fun _ => .finite s hc, fun hlarge => absurd hc.lt (not_lt.2 hlarge)⟩
    · rw [if_neg hle] at hx
      have hlarge : (2 : ℚ) ^ (1024 : Int) ≤ m * 2 ^ e :=
        (zpow_le_zpow_right₀ one_le_two (by omega)).trans
          (two_zpow_le_of_target hm he (by omega))
      refine ⟨fun hlt => absurd hlarge (not_le.2 hlt), fun _ => ?_⟩
      change x.toModel.unpack.isFinite = false
      rw [hx]
      rfl

/-! ### Arithmetic -/

theorem represents_zero (s : Sign) : Represents (.ofModel (.pack (.zero s))) 0 := by
  have hunpack : (Float.ofModel (.pack (.zero s))).toModel.unpack = .zero s := by cases s <;> rfl
  rw [Represents, hunpack]
  exact .zero s

/-- A float that is packed from what holds a number stands for it. -/
theorem Holds.represents (h : Holds f v) : Represents (.ofModel (.pack f)) v := by
  cases h with
  | zero s => exact represents_zero s
  | finite s hc =>
    have hunpack := unpack_pack_canonical hc.pos hc.log2_le hc.target s
    rw [if_pos hc.le] at hunpack
    change Holds (UnpackedFloat.unpack Format.binary64 (UnpackedFloat.pack Format.binary64 _)) _
    rw [hunpack]
    exact .finite s hc

/-- Factors that are both short have the least exponent. -/
theorem Canonical.add_le_target {m' : Nat} {e' : Int} (hc : Canonical m e)
    (hc' : Canonical m' e') : e + e' ≤ targetOf (m * m') (e + e') := by
  have he := hc.target
  have he' := hc'.target
  rw [targetOf] at he he' ⊢
  rcases Nat.lt_or_ge m (2 ^ 52) with hlt | hge
  · rcases Nat.lt_or_ge m' (2 ^ 52) with hlt' | hge'
    · have hlog : m.log2 ≤ 51 := log2_le_of_lt hlt
      have hlog' : m'.log2 ≤ 51 := log2_le_of_lt hlt'
      omega
    · have hlog := (Nat.le_log2 (Nat.mul_pos hc.pos hc'.pos).ne').2
        (hge'.trans (Nat.le_mul_of_pos_left m' hc.pos))
      omega
  · have hlog := (Nat.le_log2 (Nat.mul_pos hc.pos hc'.pos).ne').2
      (hge.trans (Nat.le_mul_of_pos_right m hc'.pos))
    omega

theorem Holds.mul {g : UnpackedFloat} (hf : Holds f a) (hg : Holds g b) :
    IsRounding (.ofModel (.pack (f.mul Format.binary64 g))) (a * b) := by
  cases hf with
  | zero s =>
    rw [zero_mul]
    cases hg <;> exact (represents_zero _).isRounding
  | @finite s m e hc =>
    cases hg with
    | zero s' =>
      rw [mul_zero]
      exact (represents_zero _).isRounding
    | @finite s' m' e' hc' =>
      have hvalue : unit s * (m * 2 ^ e) * (unit s' * (m' * 2 ^ e')) =
          unit (s * s') * (m * 2 ^ e * (m' * 2 ^ e')) := by
        rw [unit_mul]
        ring
      have hshown : Shows (m * m') (m * 2 ^ e * (m' * 2 ^ e') / 2 ^ (e + e')) .exact := by
        apply Shows.exact
        rw [div_eq_iff (two_zpow_pos _).ne', zpow_add₀ two_ne_zero]
        push_cast
        ring
      rw [hvalue]
      exact isRounding_of_shows (mul_nonneg (digits_nonneg m e) (digits_nonneg m' e')) hshown
        (hc.add_le_target hc') rfl

theorem Holds.div {g : UnpackedFloat} (hf : Holds f a) (hg : Holds g b) (hb : b ≠ 0) :
    IsRounding (.ofModel (.pack (f.div Format.binary64 g))) (a / b) := by
  cases hg with
  | zero s => exact absurd rfl hb
  | @finite s' m' e' hc' =>
    cases hf with
    | zero s =>
      rw [zero_div]
      exact (represents_zero _).isRounding
    | @finite s m e hc =>
      obtain ⟨q, t, accuracy, hcore, hshown, ht⟩ := divCore_spec hc.pos hc'.pos e e'
      have hvalue : unit s * (m * 2 ^ e) / (unit s' * (m' * 2 ^ e')) =
          unit (s / s') * (m * 2 ^ e / (m' * 2 ^ e')) := by
        rw [unit_div, mul_div_mul_comm]
      rw [hvalue, UnpackedFloat.div, hcore]
      exact isRounding_of_shows (div_nonneg (digits_nonneg m e) (digits_nonneg m' e')) hshown ht
        rfl

/-- Digits get as many zeros behind them as the exponent goes down. -/
theorem decreaseExponent_spec {t : Int} (ht : t ≤ e) :
    ∃ k : Nat, e = t + k ∧ decreaseExponent m e t = (m * 2 ^ k, t) := by
  refine ⟨(e - t).toNat, by omega, ?_⟩
  have hexponent : e - (e - t).toNat = t := by omega
  rw [decreaseExponent, Nat.shiftLeft_eq, hexponent]

/-- Whole numbers of units are rounded with as many digits as floats have. -/
theorem isRounding_round (hm : 0 < m) (s : Sign) :
    IsRounding (.ofModel (.pack (UnpackedFloat.round Format.binary64 s m e)))
      (unit s * (m * 2 ^ e)) := by
  have htarget : Format.binary64.targetExponent (totalExponent m e) = targetOf m e := rfl
  rw [UnpackedFloat.round, htarget]
  by_cases hle : targetOf m e ≤ e
  · obtain ⟨k, hk, hdigits⟩ := decreaseExponent_spec (m := m) hle
    have hvalue : ((m * 2 ^ k : Nat) : ℚ) * 2 ^ targetOf m e = m * 2 ^ e := by
      conv => rhs; rw [hk, two_zpow_add]
      push_cast
      ring
    have hfixed : targetOf (m * 2 ^ k) (targetOf m e) = targetOf m e := by
      rw [targetOf, log2_mul_two_pow hm]
      rw [targetOf] at hk ⊢
      omega
    rw [hdigits]
    refine isRounding_of_shows (digits_nonneg m e) (.exact ?_) hfixed.ge rfl
    rw [← hvalue, mul_div_cancel_right₀ _ (two_zpow_pos _).ne']
  · have hnone : decreaseExponent m e (targetOf m e) = (m, e) := by
      have hzero : (e - targetOf m e).toNat = 0 := by omega
      rw [decreaseExponent, hzero]
      simp
    rw [hnone]
    refine isRounding_of_shows (digits_nonneg m e) (.exact ?_) (not_le.1 hle).le rfl
    rw [mul_div_cancel_right₀ _ (two_zpow_pos _).ne']

theorem isRounding_normalize (n : Int) (e : Int) (s : Sign) :
    IsRounding (.ofModel (.pack (UnpackedFloat.normalize Format.binary64 n e s))) (n * 2 ^ e) := by
  rw [UnpackedFloat.normalize]
  rcases Int.lt_trichotomy n 0 with hlt | rfl | hgt
  · obtain ⟨k, rfl⟩ : ∃ k : Nat, n = -(k : Int) := ⟨n.natAbs, by omega⟩
    have hvalue : ((-(k : Int) : Int) : ℚ) * 2 ^ e = unit .negative * (k * 2 ^ e) := by
      rw [unit]
      push_cast
      ring
    rw [Int.compare_eq_lt.2 hlt, hvalue]
    dsimp only
    rw [Int.neg_neg, Int.toNat_natCast]
    exact isRounding_round (by omega) .negative
  · rw [Int.cast_zero, zero_mul]
    exact (represents_zero s).isRounding
  · obtain ⟨k, rfl⟩ : ∃ k : Nat, n = (k : Int) := ⟨n.natAbs, by omega⟩
    have hvalue : ((k : Int) : ℚ) * 2 ^ e = unit .positive * (k * 2 ^ e) := by
      rw [unit, one_mul, Int.cast_natCast]
    rw [Int.compare_eq_gt.2 hgt, hvalue]
    dsimp only
    rw [Int.toNat_natCast]
    exact isRounding_round (by omega) .positive

theorem cast_apply (s : Sign) (m : Nat) : ((s.apply m : Int) : ℚ) = unit s * m := by
  cases s <;> simp [Sign.apply, unit]

theorem Holds.add {g : UnpackedFloat} (hf : Holds f a) (hg : Holds g b) :
    IsRounding (.ofModel (.pack (f.add Format.binary64 g))) (a + b) := by
  cases hf with
  | zero s =>
    rw [zero_add]
    cases hg with
    | zero s' => cases s <;> cases s' <;> exact (represents_zero _).isRounding
    | finite s' hc' => exact (Holds.finite s' hc').represents.isRounding
  | @finite s m e hc =>
    cases hg with
    | zero s' =>
      rw [add_zero]
      exact (Holds.finite s hc).represents.isRounding
    | @finite s' m' e' hc' =>
      obtain ⟨k, hk, hdigits⟩ := decreaseExponent_spec (m := m) (min_le_left e e')
      obtain ⟨k', hk', hdigits'⟩ := decreaseExponent_spec (m := m') (min_le_right e e')
      have hvalue : unit s * (m * 2 ^ e) + unit s' * (m' * 2 ^ e') =
          ((s.apply (m * 2 ^ k : Nat) + s'.apply (m' * 2 ^ k' : Nat) : Int) : ℚ) *
            2 ^ min e e' := by
        generalize min e e' = t at hk hk'
        rw [hk, hk', two_zpow_add, two_zpow_add, Int.cast_add, cast_apply, cast_apply]
        push_cast
        ring
      rw [hvalue, UnpackedFloat.add, hdigits, hdigits']
      exact isRounding_normalize _ _ _

theorem sub_eq_add (f g : UnpackedFloat) :
    f.sub Format.binary64 g = f.add Format.binary64 g.neg := by
  have happly (s : Sign) (n : Int) : (-s).apply n = -s.apply n := by
    cases s with
    | positive => rfl
    | negative => exact (Int.neg_neg n).symm
  cases f with
  | finite s m e hm =>
    cases g with
    | finite s' m' e' hm' =>
      simp only [UnpackedFloat.sub, UnpackedFloat.neg, UnpackedFloat.add, happly,
        Int.sub_eq_add_neg]
    | _ => rfl
  | _ => cases g <;> rfl

namespace Represents

theorem mul (hx : Represents x a) (hy : Represents y b) : IsRounding (x * y) (a * b) :=
  Holds.mul hx hy

theorem div (hx : Represents x a) (hy : Represents y b) (hb : b ≠ 0) :
    IsRounding (x / y) (a / b) := Holds.div hx hy hb

theorem add (hx : Represents x a) (hy : Represents y b) : IsRounding (x + y) (a + b) :=
  Holds.add hx hy

theorem sub (hx : Represents x a) (hy : Represents y b) : IsRounding (x - y) (a - b) := by
  have hsub : x - y = .ofModel (.pack (x.toModel.unpack.add Format.binary64
      y.toModel.unpack.neg)) := by
    rw [← sub_eq_add]
    rfl
  rw [hsub, sub_eq_add_neg a b]
  exact Holds.add hx (Holds.neg hy)

end Represents

end Spreadsheet
