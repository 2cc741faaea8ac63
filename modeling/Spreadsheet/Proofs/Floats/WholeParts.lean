import Spreadsheet.Proofs.Floats.Order

/-!
Whole numbers among floats: the whole numbers next to a float, and quotients of whole numbers below
`2 ^ 53`, which rounding never moves to or past another whole number.
-/

namespace Spreadsheet

open Float.Model Float.Model.UnpackedFloat

variable {x y : Float} {v w : ℚ} {m n : Nat} {e : Int}

/-! ### Whole numbers -/

theorem represents_ofNat (h : n ≤ 2 ^ 53) : Represents (Float.ofNat n) n := by
  rcases Nat.eq_zero_or_pos n with rfl | hn
  · rw [Nat.cast_zero]
    exact represents_zero .positive
  · obtain ⟨m, hm, hdigits, hunpack⟩ := ofNat_unpack_of_le hn h
    have hc : Canonical m (n.log2 - 52) := by
      have hlog := log2_of_digits hm hn hdigits
      have hlog' : n.log2 ≤ 53 := log2_le_of_le h
      exact ⟨hm, hlog.le, by rw [targetOf]; omega, by omega⟩
    have hvalue : (n : ℚ) = unit .positive * (m * 2 ^ ((n.log2 : Int) - 52)) := by
      have hcast : (m : ℚ) * 2 ^ n.log2 = n * 2 ^ 52 := by exact_mod_cast hdigits
      rw [unit_positive_mul, zpow_sub₀ two_ne_zero, zpow_natCast, ← mul_div_assoc, hcast]
      norm_num
    rw [Represents, hunpack, hvalue]
    exact .finite .positive hc

theorem represents_one : Represents 1 (1 : Nat) := represents_ofNat (by decide)

theorem represents_ofInt {n : Int} (h : n.natAbs < 2 ^ 53) : Represents (Float.ofInt n) n := by
  obtain ⟨k, hk, ⟨rfl, hn⟩ | ⟨-, rfl, hn⟩⟩ := Number.ofInt_cases h
  · rw [hn, Int.cast_natCast]
    exact represents_ofNat hk.le
  · rw [hn, Int.cast_neg, Int.cast_natCast]
    exact (represents_ofNat hk.le).neg

/-- A whole number above 0 is told by one float. -/
theorem Represents.eq_ofNat (hx : Represents x n) (hn : 0 < n) (h : n ≤ 2 ^ 53) :
    x = Float.ofNat n :=
  hx.eq_of_ne_zero (represents_ofNat h) (by exact_mod_cast hn.ne')

theorem two_pow_le_bound : (2 : ℚ) ^ 53 ≤ 2 ^ (1023 : Int) := by
  calc (2 : ℚ) ^ 53 = 2 ^ (53 : Int) := by norm_num
    _ ≤ 2 ^ (1023 : Int) := zpow_le_zpow_right₀ one_le_two (by decide)

/-- An operation whose exact result is a whole number of at most `2 ^ 53` is not rounded. -/
theorem IsRounding.whole {n : Int} (hx : IsRounding x n) (hn : n.natAbs ≤ 2 ^ 53) :
    Represents x n := by
  refine hx.represents (.intCast hn) ?_
  have hle : |(n : ℚ)| ≤ 2 ^ 53 := by
    rw [← Int.cast_abs, Int.abs_eq_natAbs]
    exact_mod_cast hn
  calc |(n : ℚ)| ≤ 2 ^ (1023 : Int) := hle.trans two_pow_le_bound
    _ < 2 ^ (1024 : Int) := zpow_lt_zpow_right₀ one_lt_two (by decide)

/-- Whole numbers of up to `2 ^ 53` are no rounded results. -/
theorem IsRounding.natCast (hx : IsRounding x n) (hn : n ≤ 2 ^ 53) : Represents x n := by
  rw [← Int.cast_natCast] at hx ⊢
  exact hx.whole (by rwa [Int.natAbs_natCast])

theorem Represents.add_nat {y : Float} (hx : Represents x m) (hy : Represents y n)
    (h : m + n ≤ 2 ^ 53) : Represents (x + y) (m + n : Nat) := by
  have hadd := hx.add hy
  rw [← Nat.cast_add] at hadd
  exact hadd.natCast h

theorem Represents.sub_nat {y : Float} (hx : Represents x m) (hy : Represents y n) (h : n ≤ m)
    (hm : m ≤ 2 ^ 53) : Represents (x - y) (m - n : Nat) := by
  have hsub := hx.sub hy
  rw [← Nat.cast_sub h] at hsub
  exact hsub.natCast (by omega)

/-! ### Parts of a quotient by a power of two -/

/-- A float that is not negative is a whole number, or a quotient of one below `2 ^ 53`. -/
theorem Represents.exists_quotient (h : Represents x v) (hv : 0 ≤ v) :
    (∃ s, x.toModel.unpack = .zero s ∧ v = 0) ∨
      ∃ m e, ∃ hm : 0 < m, x.toModel.unpack = .finite .positive m e hm ∧ m < 2 ^ 53 ∧
        v = (m * 2 ^ e.toNat : Nat) / (2 ^ (-e).toNat : Nat) := by
  rw [Represents] at h
  generalize x.toModel.unpack = f at h ⊢
  cases h with
  | zero s => exact .inl ⟨s, rfl, rfl⟩
  | @finite s m e hc =>
    cases s with
    | negative =>
      have hpos := hc.value_pos
      rw [unit_negative_mul] at hv
      linarith
    | positive =>
      refine .inr ⟨m, e, hc.pos, rfl, lt_two_pow_of_log2_le hc.log2_le, ?_⟩
      have hexponent : e = e.toNat - (-e).toNat := by omega
      rw [unit_positive_mul]
      conv => lhs; rw [hexponent, zpow_sub₀ two_ne_zero, zpow_natCast, zpow_natCast]
      push_cast
      ring

/-- A rule for whole numbers that tells them from quotients, and leaves whole numbers alone. -/
structure Settles (rule : Nat → Nat → Nat) (part : ℚ → Nat) : Prop where
  rule_eq : ∀ n d, 0 < d → rule n d = part (n / d)
  mono : Monotone part
  whole : ∀ n : Nat, part n = n

namespace Number

theorem represents_toWhole {rule : Sign → Nat → Nat → Nat} {part : ℚ → Nat}
    (hrule : Settles (rule .positive) part) (h : Represents x v) (hv : 0 ≤ v) :
    Represents (toWhole rule x) (part v) := by
  obtain ⟨s, hx, rfl⟩ | ⟨m, e, hm, hx, hlt, hvalue⟩ := h.exists_quotient hv
  · have hzero : toWhole rule x = x := by
      rw [toWhole, hx]
    have hpart : part 0 = 0 := by exact_mod_cast hrule.whole 0
    rw [hzero, hpart, Nat.cast_zero]
    exact h
  · rw [toWhole, hx]
    dsimp only
    split
    · next he =>
      have hnone : (-e).toNat = 0 := by omega
      have hwhole : v = (m * 2 ^ e.toNat : Nat) := by
        rw [hvalue, hnone, pow_zero, Nat.cast_one, div_one]
      rw [hwhole, hrule.whole, ← hwhole]
      exact h
    · next he =>
      have hnone : e.toNat = 0 := by omega
      rw [hnone, pow_zero, mul_one] at hvalue
      have hle : part v ≤ m := by
        rw [← hrule.whole m]
        apply hrule.mono
        rw [hvalue]
        exact div_le_self (Nat.cast_nonneg m) (by exact_mod_cast Nat.one_le_two_pow)
      change Represents (Float.ofNat (rule .positive m (2 ^ (-e).toNat))) (part v)
      rw [hrule.rule_eq m _ (Nat.two_pow_pos _), ← hvalue]
      exact represents_ofNat (by omega)

theorem settles_floor : Settles (fun n d => n / d) (⌊·⌋₊) :=
  ⟨fun n d _ => (Nat.floor_div_eq_div n d).symm, Nat.floor_mono, Nat.floor_natCast⟩

theorem settles_nearest : Settles quotientNearest fun v => ⌊v + 1 / 2⌋₊ := by
  refine ⟨fun n d hd => ?_, fun v w hle => Nat.floor_mono (by linarith), fun n => ?_⟩
  · have hvalue : (n / d + 1 / 2 : ℚ) = (2 * n + d : Nat) / (2 * d : Nat) := by
      have hd' : (d : ℚ) ≠ 0 := by exact_mod_cast hd.ne'
      push_cast
      field_simp
    rw [hvalue, Nat.floor_div_eq_div]
    rfl
  · rw [Nat.floor_eq_iff (by positivity)]
    constructor <;> linarith

theorem settles_ceil : Settles quotientUp (⌈·⌉₊) := by
  refine ⟨fun n d hd => ?_, Nat.ceil_mono, Nat.ceil_natCast⟩
  have hd' : (0 : ℚ) < d := by exact_mod_cast hd
  apply eq_of_forall_ge_iff
  intro k
  rw [Nat.ceil_le, div_le_iff₀ hd', quotientUp, Nat.le_iff_lt_add_one, Nat.div_lt_iff_lt_mul hd,
    Nat.add_one_mul]
  norm_cast
  omega

/-- The whole part of a number that is not negative. -/
theorem represents_floor (h : Represents x v) (hv : 0 ≤ v) : Represents (floor x) ⌊v⌋₊ :=
  represents_toWhole settles_floor h hv

theorem represents_truncate (h : Represents x v) (hv : 0 ≤ v) : Represents (truncate x) ⌊v⌋₊ :=
  represents_toWhole settles_floor h hv

theorem toNat64_of_represents (h : Represents x v) (hv : 0 ≤ v) (hle : v ≤ 2 ^ 53) :
    toNat64 x = ⌊v⌋₊ := by
  have hfloor : ⌊v⌋₊ ≤ 2 ^ 53 := by
    have hcast : (⌊v⌋₊ : ℚ) ≤ 2 ^ 53 := (Nat.floor_le hv).trans hle
    exact_mod_cast hcast
  have hwhole := represents_truncate h hv
  rw [← toNat64_truncate]
  rcases Nat.eq_zero_or_pos ⌊v⌋₊ with hzero | hpos
  · rw [hzero] at hwhole ⊢
    obtain h | h := hwhole.eq_or_of_zero <;> rw [h] <;> decide
  · rw [hwhole.eq_ofNat hpos hfloor, toNat64_whole hfloor]

theorem represents_round (h : Represents x v) (hv : 0 ≤ v) :
    Represents (round x) ⌊v + 1 / 2⌋₊ :=
  @represents_toWhole x v _ (fun v => ⌊v + 1 / 2⌋₊) settles_nearest h hv

theorem exists_unit_mul (s : Sign) (v : ℚ) :
    (∃ n : Int, unit s * v = n) ↔ ∃ n : Int, v = n := by
  cases s with
  | positive => rw [unit_positive_mul]
  | negative =>
    rw [unit_negative_mul]
    constructor
    · rintro ⟨n, hn⟩
      exact ⟨-n, by rw [Int.cast_neg, ← hn, neg_neg]⟩
    · rintro ⟨n, rfl⟩
      exact ⟨-n, (Int.cast_neg n).symm⟩

theorem isWhole_iff (h : Represents x v) : isWhole x = true ↔ ∃ n : Int, v = n := by
  rw [Represents] at h
  rw [isWhole]
  generalize x.toModel.unpack = f at h ⊢
  cases h with
  | zero s => exact ⟨fun _ => ⟨0, Int.cast_zero.symm⟩, fun _ => rfl⟩
  | @finite s m e hc =>
    rw [exists_unit_mul]
    dsimp only
    rw [Bool.or_eq_true, decide_eq_true_iff, beq_iff_eq, Nat.pow_eq]
    by_cases he : 0 ≤ e
    · obtain ⟨k, rfl⟩ := Int.eq_ofNat_of_zero_le he
      exact iff_of_true (.inl he) ⟨m * 2 ^ k, by push_cast; rfl⟩
    · have hvalue : (m : ℚ) * 2 ^ e = m / (2 ^ (-e).toNat : Nat) := by
        have hexponent : e = -((-e).toNat : Int) := by omega
        conv => lhs; rw [hexponent, zpow_neg, zpow_natCast]
        rw [Nat.cast_pow, Nat.cast_ofNat, div_eq_mul_inv]
      generalize (-e).toNat = k at hvalue ⊢
      have hpos : ((2 ^ k : Nat) : ℚ) ≠ 0 := by exact_mod_cast (Nat.two_pow_pos k).ne'
      rw [hvalue, or_iff_right he, ← Nat.dvd_iff_mod_eq_zero]
      constructor
      · rintro ⟨q, rfl⟩
        exact ⟨q, by rw [Nat.cast_mul, mul_div_cancel_left₀ _ hpos, Int.cast_natCast]⟩
      · rintro ⟨n, hn⟩
        rw [div_eq_iff hpos] at hn
        have hint : (m : Int) = n * (2 ^ k : Nat) := by exact_mod_cast hn
        exact_mod_cast Dvd.intro_left n hint.symm

end Number

/-! ### Quotients of whole numbers -/

variable {a b : Nat}

/-- Between whole numbers there is room for a quotient to be rounded. -/
theorem Rounds.eq_mul_of_quotient (h : Rounds (a / b) w) (hb : 0 < b) (hb' : b ≤ 2 ^ 53)
    (ha : a < 2 ^ 53) (hw : w = n) : a = n * b := by
  rcases Nat.eq_zero_or_pos a with rfl | hpos
  · rw [Nat.cast_zero, zero_div] at h
    have hn : (n : ℚ) = 0 := hw ▸ h.of_zero
    rw [Nat.cast_eq_zero.1 hn, Nat.zero_mul]
  · have hbpos : (0 : ℚ) < b := by exact_mod_cast hb
    have ha' : (a : ℚ) < 2 ^ 53 := by exact_mod_cast ha
    have hquotient : (0 : ℚ) ≤ a / b := by positivity
    have hlarge : (2 : ℚ) ^ (-1022 : Int) ≤ |(a : ℚ) / b| := by
      have hone : (1 : ℚ) ≤ a := by exact_mod_cast hpos
      have hb53 : (b : ℚ) ≤ 2 ^ 53 := by exact_mod_cast hb'
      rw [abs_of_nonneg hquotient]
      calc (2 : ℚ) ^ (-1022 : Int) ≤ 2 ^ (-53 : Int) := zpow_le_zpow_right₀ one_le_two (by decide)
        _ = 1 / 2 ^ 53 := by norm_num
        _ ≤ a / b := div_le_div₀ (Nat.cast_nonneg a) hone hbpos hb53
    have herror := h.error hlarge
    rw [abs_of_nonneg hquotient, hw] at herror
    have hbound : |(n : ℚ) * b - a| < 1 := by
      have hscaled : (n : ℚ) * b - a = (n - a / b) * b := by field_simp
      rw [hscaled, abs_mul, abs_of_pos hbpos]
      calc |(n : ℚ) - a / b| * b ≤ a / b / 2 ^ 53 * b :=
            mul_le_mul_of_nonneg_right herror hbpos.le
        _ = a / 2 ^ 53 := by field_simp
        _ < 1 := (div_lt_one (by norm_num)).2 ha'
    have hint : |(n : Int) * b - a| < 1 := by exact_mod_cast hbound
    have hzero := Int.abs_lt_one_iff.1 hint
    have heq : (a : Int) = n * b := by omega
    exact_mod_cast heq

theorem Rounds.floor_of_quotient (h : Rounds (a / b) w) (hb : 0 < b) (hb' : b ≤ 2 ^ 53)
    (ha : a < 2 ^ 53) : ⌊w⌋₊ = a / b := by
  have hle : a / b ≤ a := Nat.div_le_self a b
  have hlow : ((a / b : Nat) : ℚ) ≤ a / b := Nat.cast_div_le
  have hhigh : (a / b : ℚ) ≤ (a / b + 1 : Nat) := by
    have hlt := Nat.lt_floor_add_one ((a : ℚ) / b)
    rw [Nat.floor_div_eq_div] at hlt
    exact_mod_cast hlt.le
  have hwlow : ((a / b : Nat) : ℚ) ≤ w :=
    (Rounds.of_fewDigits (.natCast (by omega))).mono h hlow
  have hwhigh : w ≤ (a / b + 1 : Nat) := h.mono (.of_fewDigits (.natCast (by omega))) hhigh
  have hne : w ≠ (a / b + 1 : Nat) := by
    intro hw
    have hmul := h.eq_mul_of_quotient hb hb' ha hw
    have hlt := Nat.lt_div_mul_add (a := a) hb
    rw [Nat.add_one_mul] at hmul
    omega
  rw [Nat.floor_eq_iff ((Nat.cast_nonneg _).trans hwlow)]
  refine ⟨hwlow, lt_of_le_of_ne ?_ ?_⟩
  · exact_mod_cast hwhigh
  · exact_mod_cast hne

end Spreadsheet
