import Spreadsheet.Proofs.Evaluation.Zeros
import Spreadsheet.Proofs.Lookups.Indices

/-!
Whole numbers as floats. Those up to `2 ^ 53` are told exactly: they keep their order, sums and
products of them that stay there are not rounded, and they are read back as they are. Greater ones
stay at least as great as `2 ^ 53`.
-/

namespace Spreadsheet

open Float.Model Float.Model.UnpackedFloat

/-! ### Digits -/

/-- A whole number of at most `2 ^ 53` has its digits with zeros behind them. -/
theorem ofNat_unpack_of_le {n : Nat} (hn : 0 < n) (h : n ≤ 2 ^ 53) :
    ∃ (m : Nat) (hm : 0 < m), m * 2 ^ n.log2 = n * 2 ^ 52 ∧
      (Float.ofNat n).toModel.unpack = .finite .positive m (n.log2 - 52) hm := by
  rcases Nat.eq_or_lt_of_le h with rfl | hlt
  · exact ⟨2 ^ 52, Nat.two_pow_pos 52, by rw [Nat.log2_two_pow, Nat.mul_comm], rfl⟩
  · have hlog : n.log2 ≤ 52 := log2_le_of_lt hlt
    refine ⟨n * 2 ^ (52 - n.log2), _, ?_, ofNat_unpack_of_lt hn hlt⟩
    rw [Nat.mul_assoc, ← Nat.pow_add, Nat.sub_add_cancel hlog]

theorem log2_of_digits {m n : Nat} (hm : 0 < m) (hn : 0 < n)
    (h : m * 2 ^ n.log2 = n * 2 ^ 52) : m.log2 = 52 := by
  have hlog := congrArg Nat.log2 h
  rw [log2_mul_two_pow hm, log2_mul_two_pow hn] at hlog
  omega

/-- A whole number of at most `2 ^ 53`, written with enough digits, is not rounded. -/
theorem round_whole {n j : Nat} (hn : 0 < n) (h : n ≤ 2 ^ 53) (hj : 52 ≤ n.log2 + j) :
    roundWithAccuracy Format.binary64 .positive (n * 2 ^ j) (-j) .exact =
      (Float.ofNat n).toModel.unpack := by
  obtain ⟨m, hm, hdigits, hunpack⟩ := ofNat_unpack_of_le hn h
  obtain ⟨t, ht⟩ := Nat.exists_eq_add_of_le hj
  have hlog := log2_of_digits hm hn hdigits
  have hscaled : n * 2 ^ j = m * 2 ^ t := by
    refine Nat.eq_of_mul_eq_mul_right (Nat.two_pow_pos 52) ?_
    calc n * 2 ^ j * 2 ^ 52 = n * 2 ^ 52 * 2 ^ j := Nat.mul_right_comm ..
      _ = m * 2 ^ n.log2 * 2 ^ j := by rw [hdigits]
      _ = m * 2 ^ t * 2 ^ 52 := by
          rw [Nat.mul_assoc, Nat.mul_assoc, ← Nat.pow_add, ← Nat.pow_add, ht, Nat.add_comm t]
  have hexponent : -(j : Int) = n.log2 - 52 - t := by omega
  rw [hunpack, hscaled, hexponent]
  exact round_scaled hm (by omega) .positive t

/-- A float is what it is packed from. -/
theorem pack_of_unpack {f : UnpackedFloat} {x : Float} (h : f = x.toModel.unpack) :
    Float.ofModel (.pack f) = x := by
  rw [h]
  exact (eq_of_unpack rfl).symm

/-! ### Products and sums -/

theorem ofNat_mul_of_pos {a b : Nat} (ha : 0 < a) (hb : 0 < b) (h : a * b ≤ 2 ^ 53) :
    Float.ofNat a * Float.ofNat b = Float.ofNat (a * b) := by
  have hpos : 0 < a * b := Nat.mul_pos ha hb
  have hale : a ≤ a * b := Nat.le_mul_of_pos_right a hb
  have hble : b ≤ a * b := Nat.le_mul_of_pos_left b ha
  obtain ⟨m, hm, hdigits, hunpack⟩ := ofNat_unpack_of_le ha (Nat.le_trans hale h)
  obtain ⟨n, hn, hdigits', hunpack'⟩ := ofNat_unpack_of_le hb (Nat.le_trans hble h)
  have hlow : 2 ^ (a.log2 + b.log2) ≤ a * b := by
    rw [Nat.pow_add]
    exact Nat.mul_le_mul (Nat.log2_self_le (Nat.ne_of_gt ha)) (Nat.log2_self_le (Nat.ne_of_gt hb))
  have hlog : a.log2 + b.log2 ≤ (a * b).log2 := (Nat.le_log2 (Nat.ne_of_gt hpos)).2 hlow
  have hlog' : (a * b).log2 ≤ 53 := log2_le_of_le h
  obtain ⟨j, hj⟩ := Nat.exists_eq_add_of_le (show a.log2 + b.log2 ≤ 52 + 52 by omega)
  have hscaled : m * n = a * b * 2 ^ j := by
    refine Nat.eq_of_mul_eq_mul_right (Nat.two_pow_pos (a.log2 + b.log2)) ?_
    calc m * n * 2 ^ (a.log2 + b.log2) = m * 2 ^ a.log2 * (n * 2 ^ b.log2) := by
          rw [Nat.pow_add, Nat.mul_mul_mul_comm]
      _ = a * b * (2 ^ 52 * 2 ^ 52) := by rw [hdigits, hdigits', Nat.mul_mul_mul_comm]
      _ = a * b * 2 ^ j * 2 ^ (a.log2 + b.log2) := by
          rw [Nat.mul_assoc (a * b), ← Nat.pow_add, ← Nat.pow_add, hj, Nat.add_comm j]
  have hexponent : (a.log2 : Int) - 52 + (b.log2 - 52) = -j := by omega
  apply pack_of_unpack
  rw [hunpack, hunpack', UnpackedFloat.mul, hscaled, hexponent]
  exact round_whole hpos h (by omega)

theorem ofNat_mul {a b : Nat} (hb : 0 < b) (hb' : b ≤ 2 ^ 53) (h : a * b ≤ 2 ^ 53) :
    Float.ofNat a * Float.ofNat b = Float.ofNat (a * b) := by
  rcases Nat.eq_zero_or_pos a with rfl | ha
  · obtain ⟨m, hm, -, hunpack⟩ := ofNat_unpack_of_le hb hb'
    rw [Nat.zero_mul]
    apply pack_of_unpack
    rw [hunpack]
    rfl
  · exact ofNat_mul_of_pos ha hb h

/-- What is written with fewer digits than floats have gets zeros behind it. -/
theorem normalize_whole {n i : Nat} (hn : 0 < n) (h : n ≤ 2 ^ 53) :
    normalize Format.binary64 (n * 2 ^ i : Nat) (-i) .positive =
      (Float.ofNat n).toModel.unpack := by
  have hpos : 0 < n * 2 ^ i := Nat.mul_pos hn (Nat.two_pow_pos i)
  have hlog : n.log2 ≤ 53 := log2_le_of_le h
  have htarget : Format.binary64.targetExponent (totalExponent (n * 2 ^ i) (-i)) =
      n.log2 - 52 := by
    change max (((n * 2 ^ i).log2 : Int) + 1 + -i - 53) (-1074) = _
    rw [log2_mul_two_pow hn]
    omega
  have hshift : (-(i : Int) - (n.log2 - 52)).toNat = 52 - (n.log2 + i) := by omega
  have hexponent : -(i : Int) - (52 - (n.log2 + i) : Nat) =
      -(i + (52 - (n.log2 + i)) : Nat) := by omega
  rw [UnpackedFloat.normalize, Int.compare_eq_gt.2 (Int.natCast_pos.2 hpos)]
  dsimp only
  rw [Int.toNat_natCast, UnpackedFloat.round, htarget, decreaseExponent, hshift, Nat.shiftLeft_eq,
    Nat.mul_assoc, ← Nat.pow_add, hexponent]
  exact round_whole hn h (by omega)

theorem ofNat_add_of_pos {a b : Nat} (ha : 0 < a) (hb : 0 < b) (h : a + b ≤ 2 ^ 53) :
    Float.ofNat a + Float.ofNat b = Float.ofNat (a + b) := by
  obtain ⟨m, hm, hdigits, hunpack⟩ := ofNat_unpack_of_le ha (by omega)
  obtain ⟨n, hn, hdigits', hunpack'⟩ := ofNat_unpack_of_le hb (by omega)
  have hlog : a.log2 ≤ 52 := log2_le_of_lt (by omega)
  have hlog' : b.log2 ≤ 52 := log2_le_of_lt (by omega)
  -- the digits are lined up by the number with fewer of them before the point
  generalize hk : min a.log2 b.log2 = k
  obtain ⟨i, hi⟩ := Nat.exists_eq_add_of_le (show k ≤ 52 by omega)
  have hmin : min ((a.log2 : Int) - 52) (b.log2 - 52) = -i := by omega
  have hshift : ((a.log2 : Int) - 52 - -i).toNat = a.log2 - k := by omega
  have hshift' : ((b.log2 : Int) - 52 - -i).toNat = b.log2 - k := by omega
  have hscaled : m * 2 ^ (a.log2 - k) + n * 2 ^ (b.log2 - k) = (a + b) * 2 ^ i := by
    refine Nat.eq_of_mul_eq_mul_right (Nat.two_pow_pos k) ?_
    have hdrop {x y : Nat} (h : k ≤ y) : x * 2 ^ (y - k) * 2 ^ k = x * 2 ^ y := by
      rw [Nat.mul_assoc, ← Nat.pow_add, Nat.sub_add_cancel h]
    calc (m * 2 ^ (a.log2 - k) + n * 2 ^ (b.log2 - k)) * 2 ^ k = a * 2 ^ 52 + b * 2 ^ 52 := by
          rw [Nat.add_mul, hdrop (by omega), hdrop (by omega), hdigits, hdigits']
      _ = (a + b) * 2 ^ i * 2 ^ k := by
          rw [← Nat.add_mul, Nat.mul_assoc, ← Nat.pow_add, Nat.add_comm i, ← hi]
  apply pack_of_unpack
  rw [hunpack, hunpack', UnpackedFloat.add, decreaseExponent, decreaseExponent]
  dsimp only
  rw [hmin, hshift, hshift', Nat.shiftLeft_eq, Nat.shiftLeft_eq]
  change normalize Format.binary64
    ((m * 2 ^ (a.log2 - k) : Nat) + (n * 2 ^ (b.log2 - k) : Nat) : Int) (-i) .positive = _
  rw [← Int.natCast_add, hscaled]
  exact normalize_whole (by omega) h

theorem ofNat_add {a b : Nat} (h : a + b ≤ 2 ^ 53) :
    Float.ofNat a + Float.ofNat b = Float.ofNat (a + b) := by
  have hzero : (Float.ofNat 0).toModel.unpack = .zero .positive := rfl
  have hunchanged {n : Nat} (hn : 0 < n) (h : n ≤ 2 ^ 53) :
      Float.ofNat 0 + Float.ofNat n = Float.ofNat n ∧
        Float.ofNat n + Float.ofNat 0 = Float.ofNat n := by
    obtain ⟨m, hm, -, hunpack⟩ := ofNat_unpack_of_le hn h
    exact add_of_unpack hzero (by rw [hunpack]; nofun)
  rcases Nat.eq_zero_or_pos a with rfl | ha <;> rcases Nat.eq_zero_or_pos b with rfl | hb
  · decide
  · rw [Nat.zero_add] at h ⊢
    exact (hunchanged hb h).1
  · exact (hunchanged ha h).2
  · exact ofNat_add_of_pos ha hb h

/-! ### Whole parts -/

theorem roundToInt_positive (m : Nat) (e : Int) :
    roundToInt .positive m e = (m * 2 ^ e.toNat / 2 ^ (-e).toNat : Nat) := by
  have hshift : (0 - (e - (e.toNat : Int))).toNat = (-e).toNat := by omega
  rw [roundToInt, decreaseExponent, Int.sub_zero]
  dsimp only
  rw [shiftToExponent, hshift]
  dsimp only
  rw [mantissa_shiftRight, Nat.shiftLeft_eq]
  rfl

/-- Numbers of 53 digits are ordered by their exponents first. -/
theorem scaled_le_iff {d m : Nat} {k e : Int} (hlow : 2 ^ 52 ≤ d) (hhigh : d < 2 ^ 53)
    (hm : m < 2 ^ 53) (hnormal : k < e → 2 ^ 52 ≤ m) :
    k < e ∨ k = e ∧ d ≤ m ↔ d * 2 ^ (k - e).toNat ≤ m * 2 ^ (e - k).toNat := by
  have hpow : (2 : Nat) ^ 53 = 2 ^ 52 * 2 ^ 1 := rfl
  rcases Int.lt_trichotomy k e with hlt | rfl | hgt
  · have hnone : (k - e).toNat = 0 := by omega
    refine ⟨fun _ => ?_, fun _ => .inl hlt⟩
    calc d * 2 ^ (k - e).toNat = d := by rw [hnone, Nat.pow_zero, Nat.mul_one]
      _ ≤ 2 ^ 52 * 2 ^ 1 := Nat.le_of_lt hhigh
      _ ≤ m * 2 ^ (e - k).toNat :=
        Nat.mul_le_mul (hnormal hlt) (Nat.pow_le_pow_right Nat.two_pos (by omega))
  · simp
  · have hnone : (e - k).toNat = 0 := by omega
    refine ⟨fun h => absurd h (by omega), fun h => absurd h (Nat.not_le.2 ?_)⟩
    calc m * 2 ^ (e - k).toNat = m := by rw [hnone, Nat.pow_zero, Nat.mul_one]
      _ < 2 ^ 52 * 2 ^ 1 := hm
      _ ≤ d * 2 ^ (k - e).toNat :=
        Nat.mul_le_mul hlow (Nat.pow_le_pow_right Nat.two_pos (by omega))

/-- What is as great in the units of two floats is as great in whole numbers. -/
theorem digits_le_iff {d m n : Nat} {e : Int} (hdigits : d * 2 ^ n.log2 = n * 2 ^ 52) :
    d * 2 ^ ((n.log2 : Int) - 52 - e).toNat ≤ m * 2 ^ (e - ((n.log2 : Int) - 52)).toNat ↔
      n ≤ m * 2 ^ e.toNat / 2 ^ (-e).toNat := by
  -- both are written with so many digits that the last of them are whole
  obtain ⟨t, ht, ht'⟩ : ∃ t, n.log2 + (-e).toNat = ((n.log2 : Int) - 52 - e).toNat + t ∧
      e.toNat + 52 = (e - ((n.log2 : Int) - 52)).toNat + t :=
    ⟨n.log2 + (-e).toNat - ((n.log2 : Int) - 52 - e).toNat, by omega, by omega⟩
  have hleft : d * 2 ^ ((n.log2 : Int) - 52 - e).toNat * 2 ^ t =
      n * 2 ^ (-e).toNat * 2 ^ 52 := by
    calc d * 2 ^ ((n.log2 : Int) - 52 - e).toNat * 2 ^ t = d * 2 ^ (n.log2 + (-e).toNat) := by
          rw [ht, Nat.pow_add, Nat.mul_assoc]
      _ = n * 2 ^ 52 * 2 ^ (-e).toNat := by rw [Nat.pow_add, ← Nat.mul_assoc, hdigits]
      _ = n * 2 ^ (-e).toNat * 2 ^ 52 := Nat.mul_right_comm ..
  have hright : m * 2 ^ (e - ((n.log2 : Int) - 52)).toNat * 2 ^ t = m * 2 ^ e.toNat * 2 ^ 52 := by
    rw [Nat.mul_assoc, Nat.mul_assoc, ← Nat.pow_add, ← Nat.pow_add, ← ht']
  rw [Nat.le_div_iff_mul_le (Nat.two_pow_pos _), ← Nat.mul_le_mul_right_iff (Nat.two_pow_pos t),
    hleft, hright, Nat.mul_le_mul_right_iff (Nat.two_pow_pos 52)]

/-- The whole part of a number is at least a whole number of at most `2 ^ 53` just if the number
is. -/
theorem ofNat_le_iff {n : Nat} (hn : 0 < n) (h : n ≤ 2 ^ 53) (x : Float) :
    Float.ofNat n ≤ x ↔ n ≤ Number.toNat64 x := by
  obtain ⟨d, hd, hdigits, hunpack⟩ := ofNat_unpack_of_le hn h
  obtain ⟨hlow, hhigh⟩ := (Nat.log2_eq_iff (Nat.ne_of_gt hd)).1 (log2_of_digits hd hn hdigits)
  have hclamp (k : Nat) : n ≤ (UInt64.ofNatClamp k).toNat ↔ n ≤ k := by
    unfold UInt64.ofNatClamp
    split
    · rfl
    · next hk =>
      change n ≤ 2 ^ 64 - 1 ↔ n ≤ k
      change ¬ k < 2 ^ 64 at hk
      omega
  rw [le_iff_compare, hunpack]
  change _ ↔ n ≤ (UInt64.ofNatClamp (UnpackedFloat.toInt 0 _ x.toModel.unpack).toNat).toNat
  rw [hclamp]
  cases hx : x.toModel.unpack with
  | notANumber => simp [UnpackedFloat.compare, UnpackedFloat.toInt, Nat.ne_of_gt hn]
  | zero s => simp [UnpackedFloat.compare, UnpackedFloat.toInt, Nat.ne_of_gt hn]
  | infinity s =>
    cases s with
    | negative => simp [UnpackedFloat.compare, UnpackedFloat.toInt, Nat.ne_of_gt hn]
    | positive =>
      refine ⟨fun _ => ?_, fun _ => .inl rfl⟩
      exact Nat.le_trans h (by decide)
  | finite s m e hm =>
    cases s with
    | negative =>
      have hwhole : (roundToInt .negative m e).toNat = 0 := by
        have hneg : roundToInt .negative m e = -roundToInt .positive m e := rfl
        rw [hneg, roundToInt_positive]
        exact Int.toNat_neg_natCast _
      rw [UnpackedFloat.toInt, hwhole]
      simp [UnpackedFloat.compare, Nat.ne_of_gt hn]
    | positive =>
      obtain ⟨hlog, hcanonical⟩ := canonical_unpack hx
      have hmhigh : m < 2 ^ 53 :=
        Nat.lt_of_lt_of_le Nat.lt_log2_self (Nat.pow_le_pow_right Nat.two_pos (by omega))
      have hnormal (hlt : (n.log2 : Int) - 52 < e) : 2 ^ 52 ≤ m := by
        have hdigits : m.log2 = 52 := by omega
        exact hdigits ▸ Nat.log2_self_le (Nat.ne_of_gt hm)
      have hcompare : UnpackedFloat.compare (.finite .positive d (n.log2 - 52) hd)
          (.finite .positive m e hm) = some .lt ∨
          UnpackedFloat.compare (.finite .positive d (n.log2 - 52) hd)
          (.finite .positive m e hm) = some .eq ↔
          (n.log2 : Int) - 52 < e ∨ (n.log2 : Int) - 52 = e ∧ d ≤ m := by
        simp only [UnpackedFloat.compare, Option.some.injEq, Ordering.then_eq_lt,
          Ordering.then_eq_eq, Int.compare_eq_lt, Int.compare_eq_eq, Nat.compare_eq_lt,
          Nat.compare_eq_eq]
        omega
      rw [hcompare, scaled_le_iff hlow hhigh hmhigh hnormal, UnpackedFloat.toInt,
        roundToInt_positive, Int.toNat_natCast]
      exact digits_le_iff hdigits

/-! ### Order -/

theorem le_iff {x y : Float} : x ≤ y ↔ x.isNaN = false ∧ y.isNaN = false ∧
    (FloatOrder.compare x.toModel.unpack y.toModel.unpack).isLE = true := by
  have hne {x : Float} : x.isNaN = false ↔ x.toModel.unpack ≠ .notANumber := by
    rw [Ne, unpack_eq_notANumber, Bool.not_eq_true]
  rw [le_iff_compare, hne, hne]
  by_cases hx : x.toModel.unpack = .notANumber
  · simp [hx, UnpackedFloat.compare]
  · by_cases hy : y.toModel.unpack = .notANumber
    · have hnone : UnpackedFloat.compare x.toModel.unpack .notANumber = none := by
        cases x.toModel.unpack <;> rfl
      simp [hy, hnone]
    · rw [FloatOrder.compare_eq hx hy]
      cases FloatOrder.compare x.toModel.unpack y.toModel.unpack <;> simp [hx, hy]

theorem float_le_trans {x y z : Float} (h : x ≤ y) (h' : y ≤ z) : x ≤ z := by
  rw [le_iff] at *
  exact ⟨h.1, h'.2.1, Std.TransCmp.isLE_trans h.2.2 h'.2.2⟩

theorem float_le_of_lt {x y : Float} (h : x < y) : x ≤ y :=
  (le_iff_compare x y).2 (.inl ((lt_iff_compare x y).1 h))

theorem float_not_lt_of_le {x y : Float} (h : x ≤ y) : ¬ y < x := by
  intro hlt
  have hle := (le_iff.1 h).2.2
  have hgt := (lt_iff_compare y x).1 hlt
  obtain ⟨hy, hx, -⟩ := le_iff.1 (float_le_of_lt hlt)
  have hswap : FloatOrder.compare x.toModel.unpack y.toModel.unpack =
      (FloatOrder.compare y.toModel.unpack x.toModel.unpack).swap := Std.OrientedCmp.eq_swap
  rw [hswap, ← compareNumbers_eq hy hx, compareNumbers, if_pos hlt] at hle
  cases hle

theorem float_le_of_not_lt {x y : Float} (hx : x.isNaN = false) (hy : y.isNaN = false)
    (h : ¬ y < x) : x ≤ y := by
  have hcompare := compareNumbers_eq hx hy
  have hswap := compareNumbers_swap y x
  have hlt : compareNumbers y x ≠ .lt := by
    unfold compareNumbers
    rw [if_neg h]
    split <;> nofun
  rw [le_iff]
  refine ⟨hx, hy, ?_⟩
  rw [← hcompare, hswap]
  cases hyx : compareNumbers y x with
  | lt => exact absurd hyx hlt
  | _ => rfl

/-- Whole numbers of any size are positive floats, the greatest of them infinite. -/
theorem ofNat_unpack_cases {n : Nat} (hn : 0 < n) :
    (∃ (d : Nat) (e : Int) (hd : 0 < d), (n.log2 : Int) - 52 ≤ e ∧
      (Float.ofNat n).toModel.unpack = .finite .positive d e hd) ∨
    (Float.ofNat n).toModel.unpack = .infinity .positive := by
  obtain ⟨r, f, hr, hf, hfn⟩ := ofNat_unpack hn
  obtain ⟨d, e, hd, hfd, hunits⟩ := hf.unpack_eq hr.low
  rw [hfn, hfd]
  split
  · exact .inl ⟨d, e, hd, by omega, rfl⟩
  · exact .inr rfl

theorem isNaN_ofNat (n : Nat) : (Float.ofNat n).isNaN = false := by
  rcases Nat.eq_zero_or_pos n with rfl | hn
  · rfl
  · rw [← Bool.not_eq_true, ← unpack_eq_notANumber]
    rcases ofNat_unpack_cases hn with ⟨d, e, hd, -, h⟩ | h <;> simp [h]

theorem isFinite_ofNat {n : Nat} (h : n ≤ 2 ^ 53) : (Float.ofNat n).isFinite = true := by
  rcases Nat.eq_zero_or_pos n with rfl | hn
  · rfl
  · obtain ⟨m, hm, -, hunpack⟩ := ofNat_unpack_of_le hn h
    change (Float.ofNat n).toModel.unpack.isFinite = true
    rw [hunpack]
    rfl

theorem ofNat_le_ofNat {m n : Nat} (h : m ≤ n) : Float.ofNat m ≤ Float.ofNat n := by
  apply float_le_of_not_lt (isNaN_ofNat m) (isNaN_ofNat n)
  rcases Nat.eq_zero_or_pos m with rfl | hm
  · rcases Nat.eq_zero_or_pos n with rfl | hn
    · decide
    · have hzero : (Float.ofNat 0).toModel.unpack = .zero .positive := rfl
      rw [lt_iff_compare, hzero]
      rcases ofNat_unpack_cases hn with ⟨d, e, hd, -, h⟩ | h <;> rw [h] <;> nofun
  · exact not_ofNat_lt hm h

namespace Number

theorem not_whole_lt_zero (n : Nat) : ¬ Float.ofNat n < 0 :=
  float_not_lt_of_le (ofNat_le_ofNat (Nat.zero_le n))

/-- Whole numbers of any size have no fraction. -/
theorem truncate_whole (n : Nat) : truncate (Float.ofNat n) = Float.ofNat n := by
  by_cases h : n < 2 ^ 53
  · exact truncate_ofNat h
  · have hlog : 53 ≤ n.log2 := (Nat.le_log2 (by omega)).2 (by omega)
    rw [truncate, toWhole]
    rcases ofNat_unpack_cases (show 0 < n by omega) with ⟨d, e, hd, he, hunpack⟩ | hunpack
    · rw [hunpack]
      exact if_pos (by omega)
    · rw [hunpack]

theorem toNat64_whole {n : Nat} (h : n ≤ 2 ^ 53) : toNat64 (Float.ofNat n) = n := by
  rcases Nat.eq_or_lt_of_le h with rfl | hlt
  · decide
  · exact toUInt64_ofNat hlt

/-- Beyond the whole numbers that floats tell apart, none is read as one of them. -/
theorem le_toNat64_whole {n : Nat} (h : 2 ^ 53 ≤ n) : 2 ^ 53 ≤ toNat64 (Float.ofNat n) :=
  (ofNat_le_iff (Nat.two_pow_pos 53) (Nat.le_refl _) _).1 (ofNat_le_ofNat h)

theorem toNat64_le {n : Nat} {x : Float} (h : n < 2 ^ 53) (hx : x ≤ Float.ofNat n) :
    toNat64 x ≤ n := by
  refine Nat.le_of_not_lt fun hlt => ?_
  have hle := float_le_trans ((ofNat_le_iff (Nat.succ_pos n) h x).2 hlt) hx
  rw [ofNat_le_iff (Nat.succ_pos n) h, toNat64_whole (Nat.le_of_lt h)] at hle
  exact Nat.not_succ_le_self n hle

theorem toNat64_of_le_zero {x : Float} (h : x ≤ 0) : toNat64 x = 0 :=
  Nat.le_zero.1 (toNat64_le (Nat.two_pow_pos 53) h)

theorem toNat64_truncate (x : Float) : toNat64 (truncate x) = toNat64 x := by
  rw [truncate, toWhole]
  cases hx : x.toModel.unpack with
  | finite s m e hm =>
    dsimp only
    split
    · rfl
    · next he =>
      obtain ⟨hlog, -⟩ := canonical_unpack hx
      have hzero : e.toNat = 0 := by omega
      have hlt : m / 2 ^ (-e).toNat < 2 ^ 53 :=
        Nat.lt_of_le_of_lt (Nat.div_le_self _ _) (Nat.lt_of_lt_of_le Nat.lt_log2_self
          (Nat.pow_le_pow_right Nat.two_pos (by omega)))
      cases s with
      | positive =>
        change toNat64 (Float.ofNat (m / 2 ^ (-e).toNat)) =
          (UInt64.ofNatClamp (UnpackedFloat.toInt 0 _ x.toModel.unpack).toNat).toNat
        rw [toNat64_whole (Nat.le_of_lt hlt), hx, UnpackedFloat.toInt, roundToInt_positive, hzero,
          Nat.pow_zero, Nat.mul_one, Int.toNat_natCast, UInt64.ofNatClamp,
          dif_pos (Nat.lt_trans hlt (by decide))]
        rfl
      | negative =>
        have hneg : x ≤ 0 := float_le_of_lt (by rw [lt_iff_compare, hx]; rfl)
        rw [toNat64_of_le_zero hneg]
        apply toNat64_of_le_zero
        change -Float.ofNat (m / 2 ^ (-e).toNat) ≤ 0
        rcases Nat.eq_zero_or_pos (m / 2 ^ (-e).toNat) with hwhole | hwhole
        · rw [hwhole]
          decide
        · exact float_le_of_lt (neg_ofNat_lt_zero hwhole hlt)
  | _ => rfl

/-! ### Signs -/

theorem neg_ofNat_unpack {n : Nat} (hn : 0 < n) (h : n ≤ 2 ^ 53) :
    (-Float.ofNat n).toModel.unpack = (Float.ofNat n).toModel.unpack.neg := by
  obtain ⟨m, hm, hdigits, hunpack⟩ := ofNat_unpack_of_le hn h
  obtain ⟨hlow, hhigh⟩ := (Nat.log2_eq_iff (Nat.ne_of_gt hm)).1 (log2_of_digits hm hn hdigits)
  have hlog : n.log2 ≤ 53 := log2_le_of_le h
  have hneg : (-Float.ofNat n).toModel.unpack = UnpackedFloat.unpack Format.binary64
      (UnpackedFloat.pack Format.binary64 (Float.ofNat n).toModel.unpack.neg) := rfl
  rw [hneg, hunpack, UnpackedFloat.neg, unpack_pack hlow hhigh (by omega), if_pos (by omega)]

theorem neg_ofNat_lt_neg_ofNat {m n : Nat} (hm : 0 < m) (hm' : m ≤ 2 ^ 53) (hn : 0 < n)
    (hn' : n ≤ 2 ^ 53) : -Float.ofNat m < -Float.ofNat n ↔ n < m := by
  have hle : Float.ofNat m ≤ Float.ofNat n ↔ m ≤ n := by
    rw [ofNat_le_iff hm hm', toNat64_whole hn']
  obtain ⟨d, hd, -, hunpack⟩ := ofNat_unpack_of_le hm hm'
  obtain ⟨d', hd', -, hunpack'⟩ := ofNat_unpack_of_le hn hn'
  rw [← Nat.not_le, ← hle, lt_iff_compare, le_iff_compare, neg_ofNat_unpack hm hm',
    neg_ofNat_unpack hn hn', hunpack, hunpack']
  simp only [UnpackedFloat.neg, UnpackedFloat.compare, Option.some.injEq]
  change Ordering.swap _ = .lt ↔ _
  generalize (compare ((m.log2 : Int) - 52) (n.log2 - 52)).then (compare d d') = o
  cases o <;> simp

theorem abs_neg_ofNat {n : Nat} (hn : 0 < n) (h : n ≤ 2 ^ 53) :
    (-Float.ofNat n).abs = Float.ofNat n := by
  obtain ⟨m, hm, -, hunpack⟩ := ofNat_unpack_of_le hn h
  apply pack_of_unpack
  rw [neg_ofNat_unpack hn h, hunpack]
  rfl

theorem truncate_neg_ofNat {n : Nat} (hn : 0 < n) (h : n < 2 ^ 53) :
    truncate (-Float.ofNat n) = -Float.ofNat n := by
  obtain ⟨m, hm, hdigits, hunpack⟩ := ofNat_unpack_of_le hn (Nat.le_of_lt h)
  have hlog : n.log2 ≤ 52 := log2_le_of_lt h
  have hexponent : (-((n.log2 : Int) - 52)).toNat = 52 - n.log2 := by omega
  have hscaled : m = n * 2 ^ (52 - n.log2) := by
    refine Nat.eq_of_mul_eq_mul_right (Nat.two_pow_pos n.log2) ?_
    rw [hdigits, Nat.mul_assoc, ← Nat.pow_add, Nat.sub_add_cancel hlog]
  rw [truncate, toWhole, neg_ofNat_unpack hn (Nat.le_of_lt h), hunpack]
  dsimp only [UnpackedFloat.neg]
  split
  · rfl
  · change -Float.ofNat (m / 2 ^ (-((n.log2 : Int) - 52)).toNat) = _
    rw [hexponent, hscaled, Nat.mul_div_cancel _ (Nat.two_pow_pos _)]

/-- An integer is a whole number or the negative of one. -/
theorem ofInt_cases {n : Int} (h : n.natAbs < 2 ^ 53) :
    ∃ k < 2 ^ 53, n = (k : Nat) ∧ Float.ofInt n = Float.ofNat k ∨
      0 < k ∧ n = -(k : Nat) ∧ Float.ofInt n = -Float.ofNat k := by
  cases n with
  | ofNat k => exact ⟨k, h, .inl ⟨rfl, rfl⟩⟩
  | negSucc k => exact ⟨k + 1, h, .inr ⟨Nat.succ_pos k, rfl, rfl⟩⟩

theorem isFinite_ofInt {n : Int} (h : n.natAbs < 2 ^ 53) : (Float.ofInt n).isFinite = true := by
  obtain ⟨k, hk, ⟨-, hn⟩ | ⟨hpos, -, hn⟩⟩ := ofInt_cases h
  · rw [hn]
    exact isFinite_ofNat (Nat.le_of_lt hk)
  · obtain ⟨m, hm, -, hunpack⟩ := ofNat_unpack_of_le hpos (Nat.le_of_lt hk)
    rw [hn]
    change (-Float.ofNat k).toModel.unpack.isFinite = true
    rw [neg_ofNat_unpack hpos (Nat.le_of_lt hk), hunpack]
    rfl

theorem toInteger_ofInt {n : Int} (h : n.natAbs < 2 ^ 53) : toInteger (Float.ofInt n) = n := by
  obtain ⟨k, hk, ⟨rfl, hn⟩ | ⟨hpos, rfl, hn⟩⟩ := ofInt_cases h
  · rw [hn, toInteger, if_neg (not_whole_lt_zero k), toNat64_whole (Nat.le_of_lt hk)]
  · rw [hn, toInteger, if_pos (neg_ofNat_lt_zero hpos hk), abs_neg_ofNat hpos (Nat.le_of_lt hk),
      toNat64_whole (Nat.le_of_lt hk)]

theorem truncate_ofInt {n : Int} (h : n.natAbs < 2 ^ 53) :
    truncate (Float.ofInt n) = Float.ofInt n := by
  obtain ⟨k, hk, ⟨-, hn⟩ | ⟨hpos, -, hn⟩⟩ := ofInt_cases h
  · rw [hn, truncate_whole]
  · rw [hn, truncate_neg_ofNat hpos hk]

theorem ofInt_lt_neg_iff {b : Nat} {n : Int} (hb : 0 < b) (hb' : b < 2 ^ 53)
    (h : n.natAbs < 2 ^ 53) : Float.ofInt n < -Float.ofNat b ↔ n < -b := by
  obtain ⟨k, hk, ⟨rfl, hn⟩ | ⟨hpos, rfl, hn⟩⟩ := ofInt_cases h
  · have hneg : -Float.ofNat b ≤ 0 := float_le_of_lt (neg_ofNat_lt_zero hb hb')
    have hle := float_le_trans hneg (ofNat_le_ofNat (Nat.zero_le k))
    rw [hn]
    exact iff_of_false (float_not_lt_of_le hle) (by omega)
  · rw [hn, neg_ofNat_lt_neg_ofNat hpos (Nat.le_of_lt hk) hb (Nat.le_of_lt hb')]
    omega

theorem ofNat_le_ofInt_iff {b : Nat} {n : Int} (hb : 0 < b) (hb' : b < 2 ^ 53)
    (h : n.natAbs < 2 ^ 53) : Float.ofNat b ≤ Float.ofInt n ↔ b ≤ n := by
  rw [ofNat_le_iff hb (Nat.le_of_lt hb')]
  obtain ⟨k, hk, ⟨rfl, hn⟩ | ⟨hpos, rfl, hn⟩⟩ := ofInt_cases h
  · rw [hn, toNat64_whole (Nat.le_of_lt hk)]
    omega
  · rw [hn, toNat64_of_le_zero (float_le_of_lt (neg_ofNat_lt_zero hpos hk))]
    omega

end Number

end Spreadsheet
