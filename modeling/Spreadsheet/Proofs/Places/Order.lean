import Spreadsheet.Proofs.Floats.Powers
import Spreadsheet.Proofs.Places.Signs

/-!
A strategy that moves no number further from zero than another one also rounds no number that is not
negative to a larger result, whatever its size and the place. Every step from a decimal back to a
float keeps the order, though all of them are rounded.
-/

namespace Spreadsheet

open Float.Model Float.Model.UnpackedFloat

variable {x y : Float} {v w unit power : ℚ} {m n p k : Nat}

namespace Number

open Scaled (Strategy ofFloat?)

/-! ### Strategies -/

namespace Scaled

/-- The whole number that a strategy picks for a number that is not negative. -/
def Strategy.part : Strategy → ℚ → Nat
  | .nearest => fun v => ⌊v + 1 / 2⌋₊
  | .towardZero => fun v => ⌊v⌋₊
  | .awayFromZero => fun v => ⌈v⌉₊

/-- One strategy picks no larger whole number than the other one. -/
def Strategy.Within (strategy strategy' : Strategy) : Prop :=
  ∀ v, 0 ≤ v → strategy.part v ≤ strategy'.part v

namespace Strategy

variable {strategy strategy' : Strategy}

theorem settles (strategy : Strategy) : Settles strategy.quotient strategy.part := by
  cases strategy with
  | nearest => exact settles_nearest
  | towardZero => exact settles_floor
  | awayFromZero => exact settles_ceil

theorem towardZero_within : Within .towardZero .nearest :=
  fun _ _ => Nat.floor_mono (by linarith)

theorem within_awayFromZero : Within .nearest .awayFromZero := by
  intro v hv
  have hle : v ≤ ⌈v⌉₊ := Nat.le_ceil v
  have hlt : v + 1 / 2 < (⌈v⌉₊ + 1 : Nat) := by
    rw [Nat.cast_add, Nat.cast_one]
    linarith
  exact Nat.lt_succ_iff.1 ((Nat.floor_lt (by linarith)).2 hlt)

theorem Within.quotient_le (h : strategy.Within strategy') (m : Nat) (hk : 0 < k) :
    strategy.quotient m k ≤ strategy'.quotient m k := by
  rw [strategy.settles.rule_eq m k hk, strategy'.settles.rule_eq m k hk]
  exact h _ (div_nonneg (Nat.cast_nonneg m) (Nat.cast_nonneg k))

theorem quotient_le_self (strategy : Strategy) (m : Nat) (hk : 0 < k) :
    strategy.quotient m k ≤ m := by
  rw [strategy.settles.rule_eq m k hk]
  conv => rhs; rw [← strategy.settles.whole m]
  exact strategy.settles.mono (div_le_self (Nat.cast_nonneg m) (by exact_mod_cast hk))

end Strategy

/-! ### Decimals of numbers -/

variable {d : Scaled} {strategy strategy' : Strategy} {places : Nat}

/-- A decimal with places has a mantissa that a float holds. -/
def Fits (mantissa scale : Nat) : Prop := scale = 0 ∨ mantissa < 2 ^ 52

theorem dropExcess_fits (scale m : Nat) :
    Fits (dropExcess scale m).1 (dropExcess scale m).2 := by
  induction scale generalizing m with
  | zero => exact .inl rfl
  | succ scale ih =>
    rw [dropExcess]
    split
    · exact ih (dropDigit m)
    · next hlt => exact .inr (not_le.1 hlt)

theorem dropZeros_fits {scale : Nat} (h : Fits m scale) :
    Fits (dropZeros scale m).1 (dropZeros scale m).2 := by
  induction scale generalizing m with
  | zero => exact .inl rfl
  | succ scale ih =>
    have hlt : m < 2 ^ 52 := h.resolve_left (Nat.succ_ne_zero scale)
    rw [dropZeros]
    split
    · exact ih (.inr ((Nat.div_le_self m 10).trans_lt hlt))
    · exact .inr hlt

theorem fit?_fits {e : Exponential} {q : Nat × Nat} (h : e.fit? = some q) : Fits q.1 q.2 := by
  rw [Exponential.fit?] at h
  split at h
  · obtain ⟨m, -, rfl⟩ := Option.map_eq_some_iff.1 h
    exact .inl rfl
  · cases h
    exact dropZeros_fits (dropExcess_fits _ _)

theorem fitted?_fits {e : Int} {q : Nat × Nat} (h : fitted? m e = some q) : Fits q.1 q.2 := by
  rw [fitted?] at h
  split at h
  · exact fit?_fits h
  · obtain ⟨x, -, hx⟩ := Option.bind_eq_some_iff.1 h
    exact fit?_fits hx

theorem ofFloat?_fits (hx : Represents x v) (hv : 0 ≤ v) (hd : ofFloat? x = some d) :
    d.sign = .positive ∧ Fits d.mantissa d.scale := by
  obtain ⟨s, hzero, -⟩ | ⟨m, e, hm, hfinite, -⟩ := hx.exists_quotient hv
  · rw [ofFloat?, hzero] at hd
    cases hd
    exact ⟨rfl, .inl rfl⟩
  · rw [ofFloat?_finite hfinite] at hd
    obtain ⟨q, hq, rfl⟩ := Option.map_eq_some_iff.1 hd
    exact ⟨rfl, fitted?_fits hq⟩

/-! ### Decimals as floats -/

/-- The two floats near `10 ^ p` with which decimals are converted: the unit of the fraction, which
is no smaller than the digits of a fraction, and the power that the sum is scaled with. -/
structure Units (p : Nat) (unit power : ℚ) : Prop where
  represents_unit : Represents (Float.ofNat (10 ^ p)) unit
  unit_pos : 0 < unit
  digits_le : ∀ m < 2 ^ 52, ((m % 10 ^ p : Nat) : ℚ) ≤ unit
  represents_power : Represents (powerOfTen p) power
  one_le_power : 1 ≤ power
  power_le : power ≤ 2 ^ (100 : Int)

theorem Units.power_pos (h : Units p unit power) : 0 < power :=
  zero_lt_one.trans_le h.one_le_power

/-- The powers with which decimals are converted leave room for all their digits. -/
theorem powerOfTen_le (hp : p ≤ maxScale) (hpower : Represents (powerOfTen p) power) :
    power ≤ 2 ^ (100 : Int) := by
  have hle : ∀ p : Fin 29, powerOfTen p ≤ Float.ofNat (2 ^ 50) * Float.ofNat (2 ^ 50) := by
    decide +kernel
  have hten := (represents_ofNat (n := 2 ^ 50) (by decide)).mul
    (represents_ofNat (n := 2 ^ 50) (by decide))
  have hvalue : ((2 ^ 50 : Nat) : ℚ) * (2 ^ 50 : Nat) = 2 ^ (100 : Int) := by norm_num
  have hlt : |(2 : ℚ) ^ (100 : Int)| < 2 ^ (1024 : Int) := by
    rw [abs_of_pos (two_zpow_pos _)]
    exact zpow_lt_zpow_right₀ one_lt_two (by decide)
  rw [hvalue] at hten
  have hbound := hten.represents (.zpow (by decide)) hlt
  exact (hpower.le_iff hbound).1 (hle ⟨p, Nat.lt_succ_of_le hp⟩)

theorem exists_units (hp : p ≤ maxScale) : ∃ unit power, Units p unit power := by
  have hfinite : ∀ p : Fin 29, (Float.ofNat (10 ^ (p : Nat))).isFinite = true := by
    decide +kernel
  obtain ⟨unit, hunit⟩ := exists_represents (hfinite ⟨p, Nat.lt_succ_of_le hp⟩)
  obtain ⟨power, hone, hpower⟩ := one_le_powerOfTen hp
  have hle (r : Nat) (hr : r ≤ 10 ^ p) (hr' : r ≤ 2 ^ 53) : (r : ℚ) ≤ unit := by
    have hfloat : Float.ofNat r ≤ Float.ofNat (10 ^ p) := ofNat_le_ofNat hr
    exact ((represents_ofNat hr').le_iff hunit).1 hfloat
  have hten : 0 < 10 ^ p := Nat.pow_pos (by decide)
  have hunit' : (0 : ℚ) < unit := by
    have hone : ((1 : Nat) : ℚ) ≤ unit := hle 1 hten (by decide)
    rw [Nat.cast_one] at hone
    linarith
  refine ⟨unit, power, hunit, hunit', fun m hm => ?_, hpower, hone, powerOfTen_le hp hpower⟩
  have hrest : m % 10 ^ p ≤ m := Nat.mod_le m _
  exact hle _ (Nat.mod_lt m hten).le (by omega)

/-- The steps from `m / 10 ^ p` to a float, each of them rounded. -/
def Converts (unit power : ℚ) (p m : Nat) (v : ℚ) : Prop :=
  ∃ fraction total whole, Rounds ((m % 10 ^ p : Nat) / unit) fraction ∧
    Rounds ((m / 10 ^ p : Nat) + fraction) total ∧ Rounds (total * power) whole ∧
    Rounds (⌊whole + 1 / 2⌋₊ / power) v

theorem Converts.mono (h : Converts unit power p m v) (h' : Converts unit power p n w)
    (hle : m ≤ n) (hunits : Units p unit power) (hm : m < 2 ^ 52) : v ≤ w := by
  obtain ⟨fraction, total, whole, hfraction, htotal, hwhole, hv⟩ := h
  obtain ⟨fraction', total', whole', hfraction', htotal', hwhole', hw⟩ := h'
  have hunit := hunits.unit_pos
  have hpower := hunits.power_pos
  have hsum : ((m / 10 ^ p : Nat) : ℚ) + fraction ≤ (n / 10 ^ p : Nat) + fraction' := by
    rcases (Nat.div_le_div_right hle : m / 10 ^ p ≤ n / 10 ^ p).lt_or_eq with hlt | heq
    · -- the fraction is rounded to at most 1, so that it does not reach beyond the next whole part
      have hnext : ((m / 10 ^ p : Nat) : ℚ) + 1 ≤ (n / 10 ^ p : Nat) := by exact_mod_cast hlt
      have hfraction : fraction ≤ 1 := hfraction.mono (.of_fewDigits .one)
        (div_le_one_of_le₀ (hunits.digits_le m hm) hunit.le)
      have hpos : 0 ≤ fraction' := hfraction'.nonneg (div_nonneg (Nat.cast_nonneg _) hunit.le)
      linarith
    · have hmod : m % 10 ^ p ≤ n % 10 ^ p := by
        have hm := Nat.div_add_mod m (10 ^ p)
        have hn := Nat.div_add_mod n (10 ^ p)
        rw [heq] at hm
        omega
      rw [heq]
      gcongr
      exact hfraction.mono hfraction' (by gcongr)
  have htotals := htotal.mono htotal' hsum
  have hwholes := hwhole.mono hwhole' (by gcongr)
  exact hv.mono hw (by gcongr)

/-- Where the decimal is a whole number no step rounds. -/
theorem converts_whole (hexact : (n : ℚ) * power = m) (hmod : m % 10 ^ p = 0)
    (hdiv : m / 10 ^ p = n) (hm : m < 2 ^ 52) (hpower : power ≠ 0) :
    Converts unit power p m n := by
  have hle : n ≤ m := hdiv ▸ Nat.div_le_self m (10 ^ p)
  have hn' : Rounds n n := .of_fewDigits (.natCast (by omega))
  have hm' : Rounds m m := .of_fewDigits (.natCast (by omega))
  refine ⟨0, n, m, ?_, ?_, ?_, ?_⟩
  · rw [hmod, Nat.cast_zero, zero_div]
    exact .of_fewDigits .zero
  · rwa [hdiv, add_zero]
  · rwa [hexact]
  · rwa [settles_nearest.whole m, ← hexact, mul_div_cancel_right₀ _ hpower]

/-- The steps of a decimal with a fraction are those that the operations on floats take. -/
theorem represents_fraction (hunits : Units p unit power) (hm : m < 2 ^ 52) :
    ∃ v, Converts unit power p m v ∧
      Represents (round ((Float.ofNat (m / 10 ^ p) +
        Float.ofNat (m % 10 ^ p) / Float.ofNat (10 ^ p)) * powerOfTen p) / powerOfTen p) v := by
  have hunit := hunits.unit_pos
  have hpower := hunits.power_pos
  have hdiv : m / 10 ^ p < 2 ^ 52 := (Nat.div_le_self m _).trans_lt hm
  have hmod : m % 10 ^ p < 2 ^ 52 := (Nat.mod_le m _).trans_lt hm
  have hlow := represents_ofNat (n := m % 10 ^ p) (by omega)
  have hhigh := represents_ofNat (n := m / 10 ^ p) (by omega)
  have hone : ((m % 10 ^ p : Nat) : ℚ) / unit ≤ 2 ^ (0 : Int) := by
    rw [zpow_zero]
    exact div_le_one_of_le₀ (hunits.digits_le m hm) hunit.le
  obtain ⟨fraction, hfraction, hx, hpos, hle⟩ :=
    (hlow.div hunits.represents_unit hunit.ne').exists_le_zpow (by positivity) hone (by decide)
      (by decide)
  have hsum : ((m / 10 ^ p : Nat) : ℚ) + fraction ≤ 2 ^ (53 : Int) := by
    have hdiv' : ((m / 10 ^ p : Nat) : ℚ) ≤ 2 ^ 52 := by exact_mod_cast hdiv.le
    rw [zpow_zero] at hle
    calc ((m / 10 ^ p : Nat) : ℚ) + fraction ≤ 2 ^ 52 + 1 := add_le_add hdiv' hle
      _ ≤ 2 ^ (53 : Int) := by norm_num
  obtain ⟨total, htotal, hy, hpos, hle⟩ := (hhigh.add hx).exists_le_zpow (by positivity) hsum
    (by decide) (by decide)
  have hproduct : total * power ≤ 2 ^ (153 : Int) := by
    calc total * power ≤ 2 ^ (53 : Int) * 2 ^ (100 : Int) := by
          gcongr
          exact hunits.power_le
      _ = 2 ^ (153 : Int) := by norm_num
  obtain ⟨whole, hwhole, hz, hpos, hle⟩ := (hy.mul hunits.represents_power).exists_le_zpow
    (by positivity) hproduct (by decide) (by decide)
  have hquotient : (⌊whole + 1 / 2⌋₊ / power : ℚ) ≤ 2 ^ (153 : Int) := by
    have hbound : (2 : ℚ) ^ (153 : Int) = (2 ^ 153 : Nat) := by norm_num
    rw [hbound] at hle ⊢
    refine (div_le_self (Nat.cast_nonneg _) hunits.one_le_power).trans ?_
    rw [Nat.cast_le, ← settles_nearest.whole (2 ^ 153)]
    exact settles_nearest.mono hle
  obtain ⟨v, hv, hresult, -⟩ := ((represents_round hz hpos).div hunits.represents_power
    hpower.ne').exists_le_zpow (by positivity) hquotient (by decide) (by decide)
  exact ⟨v, ⟨fraction, total, whole, hfraction, htotal, hwhole, hv⟩, hresult⟩

/-- A decimal with places is converted by steps that keep the order. -/
theorem toFloat_converts (hp : 0 < p) (hunits : Units p unit power) (hm : m < 2 ^ 52) :
    ∃ v, Converts unit power p m v ∧ Represents (toFloat ⟨.positive, m, p⟩) v := by
  by_cases hmod : m % 10 ^ p = 0
  · have hfloat : toFloat ⟨.positive, m, p⟩ = Float.ofNat (m / 10 ^ p) := by
      rw [toFloat, if_neg hp.ne']
      exact if_pos hmod
    -- beyond the exact powers the only whole number with so few digits is 0
    have hexact : ((m / 10 ^ p : Nat) : ℚ) * power = m := by
      rcases Nat.lt_or_ge 22 p with hlt | hge
      · have hlarge : (2 : Nat) ^ 52 < 10 ^ p :=
          (by decide : (2 : Nat) ^ 52 < 10 ^ 22).trans (Nat.pow_lt_pow_right (by decide) hlt)
        rw [Nat.mod_eq_of_lt (hm.trans hlarge)] at hmod
        rw [hmod, Nat.zero_div, Nat.cast_zero, zero_mul]
      · rw [hunits.represents_power.unique (represents_powerOfTen hge)]
        exact_mod_cast Nat.div_mul_cancel (Nat.dvd_of_mod_eq_zero hmod)
    have hdiv : m / 10 ^ p ≤ m := Nat.div_le_self m _
    rw [hfloat]
    exact ⟨_, converts_whole hexact hmod rfl hm hunits.power_pos.ne',
      represents_ofNat (by omega)⟩
  · have hfloat : toFloat ⟨.positive, m, p⟩ = round ((Float.ofNat (m / 10 ^ p) +
        Float.ofNat (m % 10 ^ p) / Float.ofNat (10 ^ p)) * powerOfTen p) / powerOfTen p := by
      rw [toFloat, if_neg hp.ne']
      exact if_neg hmod
    rw [hfloat]
    exact represents_fraction hunits hm

theorem toFloat_whole (m : Nat) : toFloat ⟨.positive, m, 0⟩ = Float.ofNat m := by
  rw [toFloat, if_pos rfl]
  split
  · next hzero =>
    rw [show m = 0 from hzero]
    rfl
  · rfl

/-- Decimals with the same places are converted in their order. -/
theorem toFloat_le (hle : m ≤ n) (hp : p ≤ maxScale) (hn : Fits n p) :
    toFloat ⟨.positive, m, p⟩ ≤ toFloat ⟨.positive, n, p⟩ := by
  rcases Nat.eq_zero_or_pos p with rfl | hpos
  · rw [toFloat_whole, toFloat_whole]
    exact ofNat_le_ofNat hle
  · have hn : n < 2 ^ 52 := hn.resolve_left hpos.ne'
    obtain ⟨unit, power, hunits⟩ := exists_units hp
    obtain ⟨v, hv, hx⟩ := toFloat_converts hpos hunits (hle.trans_lt hn)
    obtain ⟨w, hw, hy⟩ := toFloat_converts hpos hunits hn
    exact (hx.le_iff hy).2 (hv.mono hw hle hunits (hle.trans_lt hn))

theorem roundTo_of_lt (strategy : Strategy) (h : places < d.scale) :
    d.roundTo strategy places =
      ⟨d.sign, strategy.quotient d.mantissa (10 ^ (d.scale - places)), places⟩ :=
  if_neg (not_le.2 h)

theorem shiftRight_eq (d : Scaled) (k : Nat) :
    ∃ m p, d.shiftRight k = ⟨d.sign, m, p⟩ ∧ min k maxScale ≤ p := by
  rw [shiftRight]
  split
  · exact ⟨_, _, rfl, (min_le_left _ _).trans (Nat.le_add_left k d.scale)⟩
  · exact ⟨_, _, rfl, min_le_right _ _⟩

theorem eq_of_shiftLeft? {d' : Scaled} (h : d.shiftLeft? k = some d') :
    d' = ⟨d.sign, d.mantissa * 10 ^ k, d.scale⟩ := by
  rw [shiftLeft?] at h
  split at h
  · cases h
    rfl
  · cases h

theorem toFloat_roundTo_le (hwithin : strategy.Within strategy') (hsign : d.sign = .positive)
    (hfits : Fits d.mantissa d.scale) (hplaces : places ≤ maxScale) :
    (d.roundTo strategy places).toFloat ≤ (d.roundTo strategy' places).toFloat := by
  obtain ⟨s, m, p⟩ := d
  subst hsign
  by_cases hle : p ≤ places
  · rw [roundTo, if_pos hle, roundTo, if_pos hle]
    exact toFloat_le le_rfl (hle.trans hplaces) hfits
  · have hlt : places < p := not_le.1 hle
    have hten : 0 < 10 ^ (p - places) := Nat.pow_pos (by decide)
    have hm : m < 2 ^ 52 := hfits.resolve_left (Nat.ne_of_gt (Nat.zero_lt_of_lt hlt))
    rw [roundTo_of_lt _ hlt, roundTo_of_lt _ hlt]
    exact toFloat_le (hwithin.quotient_le m hten) hplaces
      (.inr ((strategy'.quotient_le_self m hten).trans_lt hm))

/-- Left of the point the decimal is whole, and there may be no room for its zeros. -/
theorem toFloat_shiftLeft?_le {a b : Scaled} (hwithin : strategy.Within strategy')
    (hsign : d.sign = .positive) (hk : 0 < k)
    (ha : ((d.shiftRight k).roundTo strategy 0).shiftLeft? k = some a)
    (hb : ((d.shiftRight k).roundTo strategy' 0).shiftLeft? k = some b) :
    a.toFloat ≤ b.toFloat := by
  obtain ⟨m, p, hshift, hp⟩ := shiftRight_eq d k
  have hpos : 0 < p := (lt_min hk (by decide)).trans_le hp
  rw [hshift, roundTo_of_lt _ hpos, hsign] at ha hb
  rw [eq_of_shiftLeft? ha, eq_of_shiftLeft? hb]
  refine toFloat_le (Nat.mul_le_mul_right _ ?_) (Nat.zero_le _) (.inl rfl)
  exact hwithin.quotient_le m (Nat.pow_pos (by decide))

end Scaled

/-! ### Numbers -/

variable {strategy strategy' : Strategy} {digits : Float}

theorem roundHuge_eq (strategy : Strategy) (k : Nat) (x : Float) : roundHuge strategy k x =
    toWhole (fun _ => strategy.quotient) (x / powerOfTen k) * powerOfTen k := by
  cases strategy <;> rfl

/-- A number that is not negative is divided by the power and rounded to the whole number that the
strategy picks for the quotient. -/
theorem exists_isRounding_roundHuge (hx : Represents x v) (hv : 0 ≤ v)
    (hpower : Represents (powerOfTen k) power) (hone : 1 ≤ power) :
    ∃ w, 0 ≤ w ∧ Rounds (v / power) w ∧ ∀ strategy : Strategy,
      IsRounding (roundHuge strategy k x) (strategy.part w * power) := by
  have hpos : 0 < power := zero_lt_one.trans_le hone
  have hquotient : |v / power| ≤ v := by
    rw [abs_of_nonneg (div_nonneg hv hpos.le)]
    exact div_le_self hv hone
  have hlt : v < 2 ^ (1024 : Int) := (le_abs_self v).trans_lt hx.abs_lt
  obtain ⟨w, hw, hxw⟩ := (hx.div hpower hpos.ne').exists_of_abs_le hx.fewDigits hquotient hlt
  have hw' : 0 ≤ w := hw.nonneg (div_nonneg hv hpos.le)
  refine ⟨w, hw', hw, fun strategy => ?_⟩
  have hpart : Represents (toWhole (fun _ => strategy.quotient) (x / powerOfTen k))
      (strategy.part w) := represents_toWhole strategy.settles hxw hw'
  rw [roundHuge_eq]
  exact hpart.mul hpower

theorem roundHuge_le (hwithin : strategy.Within strategy') (hx : Represents x v) (hv : 0 ≤ v)
    (hfinite : (roundHuge strategy k x).isFinite = true)
    (hfinite' : (roundHuge strategy' k x).isFinite = true) :
    roundHuge strategy k x ≤ roundHuge strategy' k x := by
  have hfactor : (powerOfTen k).isFinite = true := by
    rw [roundHuge_eq] at hfinite
    exact (isFinite_of_mul hfinite).2
  obtain ⟨power, hone, hpower⟩ := largeIfFinite_powerOfTen k hfactor
  obtain ⟨w, hw, -, hresult⟩ := exists_isRounding_roundHuge hx hv hpower hone
  refine (hresult strategy).le (hresult strategy') ?_ hfinite hfinite'
  gcongr
  exact hwithin w hw

/-- Where both strategies round a number that is not negative, the results are in their order. -/
theorem roundDecimal_le (hwithin : strategy.Within strategy') (hx : Represents x v) (hv : 0 ≤ v)
    {y z : Float} (hy : roundDecimal strategy x digits = some y) (hy' : y.isFinite = true)
    (hz : roundDecimal strategy' x digits = some z) (hz' : z.isFinite = true) : y ≤ z := by
  rw [roundDecimal] at hy hz
  cases hd : ofFloat? x with
  | none =>
    rw [hd] at hy hz
    cases hdigits : clampDigits digits with
    | ofNat n =>
      rw [hdigits] at hy hz
      cases hy
      cases hz
      exact (hx.le_iff hx).2 le_rfl
    | negSucc k =>
      rw [hdigits] at hy hz
      cases hy
      cases hz
      exact roundHuge_le hwithin hx hv hy' hz'
  | some d =>
    obtain ⟨hsign, hfits⟩ := Scaled.ofFloat?_fits hx hv hd
    rw [hd] at hy hz
    cases hdigits : clampDigits digits with
    | ofNat n =>
      rw [hdigits] at hy hz
      cases hy
      cases hz
      exact Scaled.toFloat_roundTo_le hwithin hsign hfits (min_le_right _ _)
    | negSucc k =>
      rw [hdigits] at hy hz
      dsimp only at hy hz
      by_cases hk : Scaled.maxScale < k + 1
      · rw [if_pos hk] at hy hz
        have hzero {strategy : Strategy} {y : Float}
            (h : (if strategy = .awayFromZero && x != 0 then none else some 0) = some y) :
            y = 0 := by
          split at h
          · cases h
          · cases h
            rfl
        rw [hzero hy, hzero hz]
        exact (represents_zero_literal.le_iff represents_zero_literal).2 le_rfl
      · rw [if_neg hk] at hy hz
        obtain ⟨a, ha, rfl⟩ := Option.map_eq_some_iff.1 hy
        obtain ⟨b, hb, rfl⟩ := Option.map_eq_some_iff.1 hz
        exact Scaled.toFloat_shiftLeft?_le hwithin hsign k.succ_pos ha hb

end Number

end Spreadsheet
