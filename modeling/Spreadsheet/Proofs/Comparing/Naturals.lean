import Spreadsheet.Proofs.Comparing.Numbers
import Spreadsheet.Proofs.Evaluation.Zeros

/-!
Natural numbers as floats. A natural number is rounded to the nearest float, and so a greater one
never becomes a smaller float, also where floats can no longer tell neighbours apart.
-/

namespace Spreadsheet

open Float.Model Float.Model.UnpackedFloat

/-! ### Rounding to the nearest -/

/-- An extended mantissa tells on which side of the middle the rest of a number lies that was
shifted out. -/
structure Shifted (m t : Nat) (em : ExtendedMantissa) (rest : Nat) : Prop where
  split : m = em.mantissa * 2 ^ t + rest
  lt : rest < 2 ^ t
  roundBit : em.roundBit = true ↔ 2 ^ t ≤ 2 * rest
  tie : em.roundBit = true → em.stickyBit = false → 2 * rest = 2 ^ t
  exact : em.roundBit = false → em.stickyBit = false → rest = 0

variable {em : ExtendedMantissa} {m t rest : Nat}

theorem Shifted.shiftRightOne (h : Shifted m t em rest) :
    Shifted m (t + 1) em.shiftRightOne (rest + em.mantissa % 2 * 2 ^ t) := by
  obtain ⟨hsplit, hlt, hround, htie, hexact⟩ := h
  have hpow : 2 ^ (t + 1) = 2 * 2 ^ t := Nat.pow_succ'
  have hhalves : em.mantissa * 2 ^ t =
      em.mantissa / 2 * (2 * 2 ^ t) + em.mantissa % 2 * 2 ^ t := by
    rw [← Nat.mul_assoc, ← Nat.add_mul, Nat.div_add_mod']
  have hbit : (em.shiftRightOne.roundBit = true ↔ em.mantissa % 2 = 1) ∧
      (em.shiftRightOne.roundBit = false ↔ em.mantissa % 2 = 0) := by
    rw [ExtendedMantissa.shiftRightOne]
    rcases Nat.mod_two_eq_zero_or_one em.mantissa with h | h <;> simp [h]
  have hsticky (hs : em.shiftRightOne.stickyBit = false) : rest = 0 := by
    obtain ⟨hr, hs⟩ := Bool.or_eq_false_iff.1 hs
    exact hexact hr hs
  have hparity := Nat.mod_two_eq_zero_or_one em.mantissa
  refine ⟨?_, ?_, ?_, ?_, ?_⟩
  · rw [hpow, ExtendedMantissa.shiftRightOne]
    dsimp only
    omega
  · rcases hparity with h | h <;> rw [h] <;> omega
  · rw [hbit.1, hpow]
    rcases hparity with h | h <;> rw [h] <;> omega
  · intro hr hs
    rw [hbit.1.1 hr, hsticky hs, hpow]
    omega
  · intro hr hs
    rw [hbit.2.1 hr, hsticky hs, Nat.zero_mul]

theorem shifted (m t : Nat) :
    ∃ rest, Shifted m t (ExtendedMantissa.ofMantissaAndAccuracy m .exact >>> t) rest := by
  induction t with
  | zero =>
    refine ⟨0, (Nat.mul_one m).symm, Nat.one_pos, ?_, nofun, fun _ _ => rfl⟩
    exact ⟨nofun, nofun⟩
  | succ t ih =>
    obtain ⟨rest, h⟩ := ih
    exact ⟨_, h.shiftRightOne⟩

/-- What is rounded differs by at most half a unit. -/
theorem Shifted.rounded (h : Shifted m t em rest) :
    2 * m ≤ 2 * (em.roundedMantissa * 2 ^ t) + 2 ^ t ∧
      2 * (em.roundedMantissa * 2 ^ t) ≤ 2 * m + 2 ^ t := by
  obtain ⟨hsplit, hlt, hround, htie, hexact⟩ := h
  obtain ⟨q, roundBit, stickyBit⟩ := em
  dsimp only at hsplit hround htie hexact
  cases roundBit with
  | false =>
    have hhalf : 2 * rest < 2 ^ t := Nat.lt_of_not_le fun h => nomatch hround.2 h
    have hq : ExtendedMantissa.roundedMantissa ⟨q, false, stickyBit⟩ = q := by
      cases stickyBit <;> rfl
    rw [hq]
    omega
  | true =>
    have hhalf := hround.1 rfl
    cases stickyBit with
    | false =>
      have htie := htie rfl rfl
      change 2 * m ≤ 2 * ((q + q % 2) * 2 ^ t) + 2 ^ t ∧ 2 * ((q + q % 2) * 2 ^ t) ≤ 2 * m + 2 ^ t
      rw [Nat.add_mul]
      rcases Nat.mod_two_eq_zero_or_one q with h | h <;> rw [h] <;> omega
    | true =>
      change 2 * m ≤ 2 * ((q + 1) * 2 ^ t) + 2 ^ t ∧ 2 * ((q + 1) * 2 ^ t) ≤ 2 * m + 2 ^ t
      rw [Nat.add_mul]
      omega

/-- The nearest of the numbers with as many digits as floats have, in units of the last of them. -/
structure Nearest (n r : Nat) : Prop where
  low : 2 ^ 52 ≤ r
  high : r ≤ 2 ^ 53
  above : 2 * (n * 2 ^ 52) ≤ 2 * (r * 2 ^ n.log2) + 2 ^ n.log2
  below : 2 * (r * 2 ^ n.log2) ≤ 2 * (n * 2 ^ 52) + 2 ^ n.log2

/-- The float with so many units, which carries if these have a digit too many. -/
inductive Units (k r : Nat) : UnpackedFloat → Prop
  | fits (h : r < 2 ^ 53) (hr : 0 < r) : Units k r (.finite .positive r (k - 52) hr)
  | carries (h : r = 2 ^ 53) (hm : 0 < 2 ^ 52) : Units k r (.finite .positive (2 ^ 52) (k - 51) hm)

theorem shiftToTargetExponent_eq (m : Nat) (e : Int) (a : Accuracy)
    (hle : e ≤ max (m.log2 + 1 + e - 53) (-1074)) :
    shiftToTargetExponent Format.binary64 m e a =
      (ExtendedMantissa.ofMantissaAndAccuracy m a >>>
        (max (m.log2 + 1 + e - 53) (-1074) - e).toNat, max (m.log2 + 1 + e - 53) (-1074)) := by
  have htarget : Format.binary64.targetExponent (totalExponent m e) =
      max (m.log2 + 1 + e - 53) (-1074) := rfl
  simp only [shiftToTargetExponent, shiftToExponent, htarget]
  congr 1
  omega

/-- The float of rounded digits at an exponent, where a digit too many is shifted out. -/
def settled (s : Sign) (r : Nat) (e : Int) : UnpackedFloat :=
  let (em, e) := shiftToTargetExponent Format.binary64 r e .exact
  if h : em.mantissa = 0 then .zero s else .finite s em.mantissa e (Nat.pos_of_ne_zero h)

/-- Rounding takes the nearest number of units and settles it. -/
theorem roundWithAccuracy_eq_settled (s : Sign) {m : Nat} {e t : Int} (a : Accuracy)
    (ht : max (m.log2 + 1 + e - 53) (-1074) = t) (hle : e ≤ t) :
    roundWithAccuracy Format.binary64 s m e a =
      settled s (ExtendedMantissa.ofMantissaAndAccuracy m a >>> (t - e).toNat).roundedMantissa
        t := by
  subst ht
  rw [roundWithAccuracy, shiftToTargetExponent_eq m e a hle, settled]

/-- Digits that have the exponent of their number are not shifted. -/
theorem shift_fixed {m : Nat} {e : Int} (he : max (m.log2 + 1 + e - 53) (-1074) = e) :
    shiftToTargetExponent Format.binary64 m e .exact =
      (ExtendedMantissa.ofMantissaAndAccuracy m .exact, e) := by
  rw [shiftToTargetExponent_eq _ _ _ (by omega), he, Int.sub_self]
  rfl

theorem settled_zero {e : Int} (he : max ((Nat.log2 0 : Int) + 1 + e - 53) (-1074) = e) (s : Sign) :
    settled s 0 e = .zero s := by
  rw [settled, shift_fixed he]
  rfl

theorem settled_fixed {m : Nat} {e : Int} (hm : 0 < m)
    (he : max (m.log2 + 1 + e - 53) (-1074) = e) (s : Sign) :
    settled s m e = .finite s m e hm := by
  rw [settled, shift_fixed he]
  exact dif_neg (Nat.ne_of_gt hm)

/-- One digit too many is a zero and carries to the exponent. -/
theorem settled_carry {e : Int} (he : -1074 ≤ e) (s : Sign) :
    settled s (2 ^ 53) e = .finite s (2 ^ 52) (e + 1) (by decide) := by
  have htarget : max (((2 ^ 53).log2 : Int) + 1 + e - 53) (-1074) = e + 1 := by
    rw [Nat.log2_two_pow]
    omega
  have hone : (e + 1 - e).toNat = 1 := by omega
  rw [settled, shiftToTargetExponent_eq _ _ _ (by omega), htarget, hone]
  rfl

theorem log2_mul_two_pow {n : Nat} (hn : 0 < n) (j : Nat) : (n * 2 ^ j).log2 = n.log2 + j := by
  have hpos : n * 2 ^ j ≠ 0 := Nat.ne_of_gt (Nat.mul_pos hn (Nat.two_pow_pos j))
  rw [Nat.log2_eq_iff hpos, Nat.add_right_comm, Nat.pow_add, Nat.pow_add]
  obtain ⟨hle, hlt⟩ := (Nat.log2_eq_iff (Nat.ne_of_gt hn)).1 rfl
  exact ⟨Nat.mul_le_mul_right _ hle, Nat.mul_lt_mul_of_pos_right hlt (Nat.two_pow_pos j)⟩

/-- Numbers of units of which the first is not greater by a whole one. -/
theorem le_of_units_lt {r s : Nat} (k : Nat) (h : r * 2 ^ k < s * 2 ^ k + 2 ^ k) : r ≤ s := by
  rw [← Nat.succ_mul] at h
  exact Nat.le_of_lt_succ (Nat.lt_of_mul_lt_mul_right h)

/-- Half a unit is less than what lacks to another digit. -/
theorem Nearest.of_bounds {n r : Nat} (hn : 0 < n)
    (habove : 2 * (n * 2 ^ 52) ≤ 2 * (r * 2 ^ n.log2) + 2 ^ n.log2)
    (hbelow : 2 * (r * 2 ^ n.log2) ≤ 2 * (n * 2 ^ 52) + 2 ^ n.log2) : Nearest n r := by
  obtain ⟨hle, hlt⟩ := (Nat.log2_eq_iff (Nat.ne_of_gt hn)).1 rfl
  rw [Nat.pow_succ] at hlt
  have hpos := Nat.two_pow_pos n.log2
  exact ⟨le_of_units_lt n.log2 (by omega), le_of_units_lt n.log2 (by omega), habove, hbelow⟩

theorem units_settled {k r : Nat} (hlow : 2 ^ 52 ≤ r) (hhigh : r ≤ 2 ^ 53) :
    Units k r (settled .positive r (k - 52)) := by
  have hr : 0 < r := Nat.lt_of_lt_of_le (by decide) hlow
  rcases Nat.lt_or_eq_of_le hhigh with h | rfl
  · have hlog : r.log2 = 52 := (Nat.log2_eq_iff (Nat.ne_of_gt hr)).2 ⟨hlow, h⟩
    rw [settled_fixed hr (by omega)]
    exact .fits h hr
  · have hcarry : (k : Int) - 52 + 1 = k - 51 := by omega
    simp only [settled_carry (show (-1074 : Int) ≤ k - 52 by omega), hcarry]
    exact .carries rfl (by decide)

/-- A natural number, written with enough digits, is rounded to the nearest. -/
theorem round_natural {n j : Nat} (hn : 0 < n) (hj : 52 ≤ n.log2 + j) :
    ∃ r, Nearest n r ∧
      Units n.log2 r (roundWithAccuracy Format.binary64 .positive (n * 2 ^ j) (-j) .exact) := by
  obtain ⟨t, ht⟩ := Nat.exists_eq_add_of_le hj
  have htarget : max (((n * 2 ^ j).log2 : Int) + 1 + -j - 53) (-1074) = n.log2 - 52 := by
    rw [log2_mul_two_pow hn]
    omega
  have hshift : ((n.log2 : Int) - 52 - -j).toNat = t := by omega
  obtain ⟨rest, hshifted⟩ := shifted (n * 2 ^ j) t
  obtain ⟨habove, hbelow⟩ := hshifted.rounded
  rw [roundWithAccuracy_eq_settled _ _ htarget (by omega), hshift]
  generalize (ExtendedMantissa.ofMantissaAndAccuracy (n * 2 ^ j) .exact >>> t).roundedMantissa = r
    at habove hbelow
  -- the units of the rounding are those of the number, which is written with more digits
  have hscale : 2 ^ n.log2 * 2 ^ j = 2 ^ t * 2 ^ 52 := by
    rw [← Nat.pow_add, ← Nat.pow_add, ht, Nat.add_comm]
  have hnumber : 2 * (n * 2 ^ 52) * 2 ^ j = 2 * (n * 2 ^ j) * 2 ^ 52 := by ring
  have hunits (a : Nat) : a * 2 ^ n.log2 * 2 ^ j = a * 2 ^ t * 2 ^ 52 := by
    rw [Nat.mul_assoc, hscale, Nat.mul_assoc]
  have hnearest : Nearest n r := by
    apply Nearest.of_bounds hn
    · refine Nat.le_of_mul_le_mul_right ?_ (Nat.two_pow_pos j)
      calc 2 * (n * 2 ^ 52) * 2 ^ j = 2 * (n * 2 ^ j) * 2 ^ 52 := hnumber
        _ ≤ (2 * (r * 2 ^ t) + 2 ^ t) * 2 ^ 52 := Nat.mul_le_mul_right _ habove
        _ = (2 * r + 1) * 2 ^ t * 2 ^ 52 := by ring
        _ = (2 * r + 1) * 2 ^ n.log2 * 2 ^ j := (hunits _).symm
        _ = (2 * (r * 2 ^ n.log2) + 2 ^ n.log2) * 2 ^ j := by ring
    · refine Nat.le_of_mul_le_mul_right ?_ (Nat.two_pow_pos j)
      calc 2 * (r * 2 ^ n.log2) * 2 ^ j = 2 * r * 2 ^ n.log2 * 2 ^ j := by ring
        _ = 2 * r * 2 ^ t * 2 ^ 52 := hunits _
        _ = 2 * (r * 2 ^ t) * 2 ^ 52 := by ring
        _ ≤ (2 * (n * 2 ^ j) + 2 ^ t) * 2 ^ 52 := Nat.mul_le_mul_right _ hbelow
        _ = 2 * (n * 2 ^ 52) * 2 ^ j + 1 * 2 ^ t * 2 ^ 52 := by rw [hnumber]; ring
        _ = 2 * (n * 2 ^ 52) * 2 ^ j + 1 * 2 ^ n.log2 * 2 ^ j := by rw [hunits]
        _ = (2 * (n * 2 ^ 52) + 2 ^ n.log2) * 2 ^ j := by ring
  exact ⟨r, hnearest, units_settled hnearest.low hnearest.high⟩

/-! ### Packing and unpacking -/

theorem unpackSign_packComponents (s : Sign) (e : BitVec 11) (m : BitVec 52) :
    unpackSign (packComponents Format.binary64 s e m) = s.toBitVec := by
  ext i hi
  obtain rfl := Nat.lt_one_iff.1 hi
  rw [unpackSign, BitVec.getElem_cast, BitVec.extractLsb, BitVec.getElem_extractLsb',
    packComponents, BitVec.getLsbD_append, if_neg (by decide), BitVec.getLsbD_append,
    if_neg (by decide)]
  rfl

theorem unpack_packComponents (s : Sign) {e : BitVec 11} (m : BitVec 52) (hne : e ≠ -1#11)
    (hne' : e ≠ 0#11) (hm : 0 < (1#1 ++ m).toNat) :
    UnpackedFloat.unpack Format.binary64 (packComponents Format.binary64 s e m) =
      .finite s (1#1 ++ m).toNat (e.toNat - 1075) hm := by
  have hs : Sign.ofBitVec s.toBitVec = s := by cases s <;> rfl
  rw [UnpackedFloat.unpack]
  dsimp only
  simp only [unpackSign_packComponents, unpackExponent_packComponents,
    unpackMantissa_packComponents, hs, if_neg hne, if_neg hne', exponentBias_binary64]
  rfl

theorem unpack_pack {m : Nat} {e : Int} (hlow : 2 ^ 52 ≤ m) (hhigh : m < 2 ^ 53) (he : -1074 ≤ e)
    (hm : 0 < m) (s : Sign) :
    UnpackedFloat.unpack Format.binary64 (UnpackedFloat.pack Format.binary64 (.finite s m e hm)) =
      if e ≤ 971 then .finite s m e hm else .infinity s := by
  have hlog : m.log2 + 1 = Format.binary64.mantissaBits := by
    rw [(Nat.log2_eq_iff (Nat.ne_of_gt hm)).2 ⟨hlow, hhigh⟩]
    rfl
  rw [UnpackedFloat.pack, exponentBias_binary64]
  dsimp only
  by_cases h : e ≤ 971
  · have hfits : ¬ 2 ^ 11 ≤ (e + (1023 : Nat) + (52 : Nat)).toNat + 1 := by omega
    rw [if_neg hfits, if_pos hlog, if_pos h]
    have hexponent : (BitVec.ofNat 11 (e + (1023 : Nat) + (52 : Nat)).toNat).toNat =
        (e + (1023 : Nat) + (52 : Nat)).toNat := by
      rw [BitVec.toNat_ofNat]
      exact Nat.mod_eq_of_lt (by omega)
    have hmantissa : (1#1 ++ BitVec.ofNat 52 m).toNat = m := by
      rw [toNat_implicit, BitVec.toNat_ofNat]
      omega
    rw [unpack_packComponents _ _ _ _ (by omega)]
    · congr 1
      rw [hexponent]
      omega
    · intro h
      have h := congrArg BitVec.toNat h
      rw [hexponent] at h
      change _ = 2047 at h
      omega
    · intro h
      have h := congrArg BitVec.toNat h
      rw [hexponent] at h
      change _ = 0 at h
      omega
  · have hfits : 2 ^ 11 ≤ (e + (1023 : Nat) + (52 : Nat)).toNat + 1 := by omega
    rw [if_pos hfits, if_neg h, packedInfinity]
    cases s <;> rfl

/-! ### Natural numbers -/

theorem mul_unpack (x y : Float) :
    (x * y).toModel.unpack = UnpackedFloat.unpack Format.binary64 (UnpackedFloat.pack
      Format.binary64 (x.toModel.unpack.mul Format.binary64 y.toModel.unpack)) := rfl

theorem one_unpack : Float.exactlyRepresentablePowersOfTen[0].toModel.unpack =
    .finite .positive (2 ^ 52) (-52) (by decide) := rfl

/-- Digits that have the exponent of their number are not rounded. -/
theorem round_fixed {m : Nat} {e : Int} (hm : 0 < m)
    (he : max (m.log2 + 1 + e - 53) (-1074) = e) (s : Sign) :
    roundWithAccuracy Format.binary64 s m e .exact = .finite s m e hm := by
  rw [roundWithAccuracy_eq_settled _ _ he (Int.le_refl e), Int.sub_self]
  exact settled_fixed hm he s

theorem toFloat_unpack {n : Nat} (hn : 0 < n) (hlt : n < 2 ^ 53) :
    n.toUInt64.toFloat.toModel.unpack =
      .finite .positive (n * 2 ^ (52 - n.log2)) (n.log2 - 52)
        (Nat.mul_pos hn (Nat.two_pow_pos _)) := by
  have hlog : n.log2 ≤ 52 := log2_le_of_lt hlt
  have hnat : n.toUInt64.toNat = n := Nat.mod_eq_of_lt (Nat.lt_trans hlt (by decide))
  have htarget : Format.binary64.targetExponent (totalExponent n 0) = n.log2 - 52 := by
    change max ((n.log2 : Int) + 1 + 0 - 53) (-1074) = _
    omega
  have hshift : ((0 : Int) - (n.log2 - 52)).toNat = 52 - n.log2 := by omega
  have hexponent : (0 : Int) - (52 - n.log2 : Nat) = n.log2 - 52 := by omega
  have hdigits : (n * 2 ^ (52 - n.log2)).log2 = 52 := by
    rw [log2_mul_two_pow hn]
    omega
  have hpos : 0 < n * 2 ^ (52 - n.log2) := Nat.mul_pos hn (Nat.two_pow_pos _)
  have hround : UnpackedFloat.ofUInt64 Format.binary64 n.toUInt64 =
      .finite .positive (n * 2 ^ (52 - n.log2)) (n.log2 - 52) hpos := by
    rw [UnpackedFloat.ofUInt64, hnat, UnpackedFloat.ofNat, UnpackedFloat.ofInt,
      UnpackedFloat.normalize, Int.compare_eq_gt.2 (Int.natCast_pos.2 hn)]
    dsimp only
    rw [Int.toNat_natCast, UnpackedFloat.round, htarget, decreaseExponent, hshift,
      Nat.shiftLeft_eq, hexponent]
    exact round_fixed hpos (by omega) .positive
  obtain ⟨hlow, hhigh⟩ := (Nat.log2_eq_iff (Nat.ne_of_gt hpos)).1 hdigits
  change UnpackedFloat.unpack Format.binary64 (UnpackedFloat.pack Format.binary64
    (UnpackedFloat.ofUInt64 Format.binary64 n.toUInt64)) = _
  rw [hround, unpack_pack hlow hhigh (by omega), if_pos (by omega)]

theorem ofNat_unpack {n : Nat} (hn : 0 < n) :
    ∃ r f, Nearest n r ∧ Units n.log2 r f ∧ (Float.ofNat n).toModel.unpack =
      UnpackedFloat.unpack Format.binary64 (UnpackedFloat.pack Format.binary64 f) := by
  by_cases hlt : n < 2 ^ 53
  · have hfloat : Float.ofNat n =
        n.toUInt64.toFloat * Float.exactlyRepresentablePowersOfTen[0] := by
      change Float.ofScientific n false 0 = _
      rw [Float.ofScientific, dif_pos ⟨hlt, Nat.zero_le 22⟩]
      rfl
    have hlog : n.log2 ≤ 52 := log2_le_of_lt hlt
    obtain ⟨r, hr, hunits⟩ := round_natural (j := 104 - n.log2) hn (by omega)
    refine ⟨r, _, hr, hunits, ?_⟩
    rw [hfloat, mul_unpack, toFloat_unpack hn hlt, one_unpack, UnpackedFloat.mul]
    have hdigits : n * 2 ^ (52 - n.log2) * 2 ^ 52 = n * 2 ^ (104 - n.log2) := by
      rw [Nat.mul_assoc, ← Nat.pow_add]
      congr 2
      omega
    have hexponent : (n.log2 : Int) - 52 + -52 = -(104 - n.log2 : Nat) := by omega
    rw [hdigits, hexponent]
    rfl
  · have hfloat : Float.ofNat n = .ofModel (Float.Model.ofScientific n 0) := by
      change Float.ofScientific n false 0 = _
      rw [Float.ofScientific, dif_neg fun h => hlt h.1]
      rfl
    obtain ⟨r, hr, hunits⟩ := round_natural (j := 53) hn (by omega)
    refine ⟨r, _, hr, hunits, ?_⟩
    rw [hfloat]
    change UnpackedFloat.unpack Format.binary64 (UnpackedFloat.pack Format.binary64
      (UnpackedFloat.ofScientific Format.binary64 n 0)) = _
    have htiny : ¬ (0 : Int) < -((2 ^ Format.binary64.exponentBits : Int) + n.log2) := by
      change ¬ (0 : Int) < -(2 ^ 11 + n.log2)
      omega
    have hdigits : n <<< Format.binary64.mantissaBits * 10 ^ (0 : Int).toNat = n * 2 ^ 53 := by
      rw [Nat.shiftLeft_eq]
      exact Nat.mul_one _
    rw [UnpackedFloat.ofScientific, dif_neg (Nat.ne_of_gt hn), if_neg (by decide), if_neg htiny,
      if_pos (Int.le_refl 0), UnpackedFloat.mul, hdigits]
    rfl

/-! ### The order -/

theorem Nearest.mono {m n r s : Nat} (hm : Nearest m r) (hn : Nearest n s) (hlt : m < n)
    (hlog : m.log2 = n.log2) : r ≤ s := by
  have habove := hn.above
  have hbelow := hm.below
  rw [hlog] at hbelow
  have hpos := Nat.two_pow_pos n.log2
  exact le_of_units_lt n.log2 (by omega)

/-- Exponent and digits of the float with so many units, which is infinite if it is too great. -/
theorem Units.unpack_eq {k r : Nat} {f : UnpackedFloat} (h : Units k r f) (hlow : 2 ^ 52 ≤ r) :
    ∃ (d : Nat) (e : Int) (hd : 0 < d),
      UnpackedFloat.unpack Format.binary64 (UnpackedFloat.pack Format.binary64 f) =
        (if e ≤ 971 then .finite .positive d e hd else .infinity .positive) ∧
      (r < 2 ^ 53 ∧ d = r ∧ e = k - 52 ∨ r = 2 ^ 53 ∧ d = 2 ^ 52 ∧ e = k - 51) := by
  cases h with
  | fits h hr => exact ⟨r, _, hr, unpack_pack hlow h (by omega) hr _, .inl ⟨h, rfl, rfl⟩⟩
  | carries h hm =>
    exact ⟨2 ^ 52, _, hm, unpack_pack (Nat.le_refl _) (by decide) (by omega) hm _,
      .inr ⟨h, rfl, rfl⟩⟩

theorem compare_ne_lt {d d' : Nat} {e e' : Int} (hd : 0 < d) (hd' : 0 < d')
    (h : e < e' ∨ e = e' ∧ d ≤ d') :
    UnpackedFloat.compare (if e' ≤ 971 then .finite .positive d' e' hd' else .infinity .positive)
      (if e ≤ 971 then .finite .positive d e hd else .infinity .positive) ≠ some .lt := by
  by_cases he' : e' ≤ 971
  · rw [if_pos he', if_pos (by omega), UnpackedFloat.compare, Ne, Option.some.injEq,
      Ordering.then_eq_lt, Int.compare_eq_lt, Int.compare_eq_eq, Nat.compare_eq_lt]
    omega
  · rw [if_neg he']
    split
    · intro h
      cases h
    · intro h
      cases h

/-- Greater numbers are not smaller as floats. -/
theorem not_ofNat_lt {m n : Nat} (hm : 0 < m) (h : m ≤ n) : ¬ Float.ofNat n < Float.ofNat m := by
  have hn := Nat.lt_of_lt_of_le hm h
  obtain ⟨r, f, hr, hf, hfm⟩ := ofNat_unpack hm
  obtain ⟨d, e, hd, hfd, hunits⟩ := hf.unpack_eq hr.low
  rw [lt_iff_compare, hfm, hfd]
  rcases Nat.eq_or_lt_of_le h with rfl | hlt
  · rw [hfm, hfd]
    exact compare_ne_lt hd hd (.inr ⟨rfl, Nat.le_refl d⟩)
  · obtain ⟨s, g, hs, hg, hgn⟩ := ofNat_unpack hn
    obtain ⟨d', e', hd', hgd, hunits'⟩ := hg.unpack_eq hs.low
    rw [hgn, hgd]
    apply compare_ne_lt hd hd'
    have hlow := hs.low
    have hhigh := hr.high
    have hlog : m.log2 ≤ n.log2 :=
      (Nat.le_log2 (Nat.ne_of_gt hn)).2 (Nat.le_trans (Nat.log2_self_le (Nat.ne_of_gt hm)) h)
    rcases Nat.lt_or_eq_of_le hlog with hlog | hlog
    · omega
    · have hrs := hr.mono hs hlt hlog
      omega

/-! ### Exact numbers -/

theorem Nearest.eq_of_log2_le {n r : Nat} (h : Nearest n r) (hlog : n.log2 ≤ 52) :
    r = n * 2 ^ (52 - n.log2) := by
  have hscale : n * 2 ^ 52 = n * 2 ^ (52 - n.log2) * 2 ^ n.log2 := by
    rw [Nat.mul_assoc, ← Nat.pow_add, Nat.sub_add_cancel hlog]
  have habove := h.above
  have hbelow := h.below
  rw [hscale] at habove hbelow
  have hpos := Nat.two_pow_pos n.log2
  exact Nat.le_antisymm (le_of_units_lt n.log2 (by omega)) (le_of_units_lt n.log2 (by omega))

/-- A natural number of at most 53 binary digits is a float. -/
theorem ofNat_unpack_of_lt {n : Nat} (hn : 0 < n) (h : n < 2 ^ 53) :
    (Float.ofNat n).toModel.unpack = .finite .positive (n * 2 ^ (52 - n.log2)) (n.log2 - 52)
      (Nat.mul_pos hn (Nat.two_pow_pos _)) := by
  have hlog : n.log2 ≤ 52 := log2_le_of_lt h
  obtain ⟨r, f, hr, hf, hfn⟩ := ofNat_unpack hn
  obtain ⟨d, e, hd, hfd, hunits⟩ := hf.unpack_eq hr.low
  have hr' := hr.eq_of_log2_le hlog
  have hlt : r < 2 ^ 53 := by
    obtain ⟨-, hupper⟩ := (Nat.log2_eq_iff (Nat.ne_of_gt hn)).1 rfl
    calc r = n * 2 ^ (52 - n.log2) := hr'
      _ < 2 ^ (n.log2 + 1) * 2 ^ (52 - n.log2) :=
        Nat.mul_lt_mul_of_pos_right hupper (Nat.two_pow_pos _)
      _ = 2 ^ 53 := by
        rw [← Nat.pow_add]
        congr 1
        omega
  obtain ⟨rfl, rfl⟩ : d = n * 2 ^ (52 - n.log2) ∧ e = n.log2 - 52 := by omega
  rw [hfn, hfd, if_pos (by omega)]

/-- A natural number of at most 53 binary digits is read back from its float. -/
theorem toUInt64_ofNat {n : Nat} (h : n < 2 ^ 53) : (Float.ofNat n).toUInt64.toNat = n := by
  rcases Nat.eq_zero_or_pos n with rfl | hn
  · decide
  · have hlog : n.log2 ≤ 52 := log2_le_of_lt h
    have hwhole : UnpackedFloat.roundToInt .positive (n * 2 ^ (52 - n.log2)) (n.log2 - 52) = n := by
      have hnone : ((n.log2 : Int) - 52 - 0).toNat = 0 := by omega
      have hshift : ((0 : Int) - (n.log2 - 52 - (0 : Nat))).toNat = 52 - n.log2 := by omega
      rw [roundToInt, decreaseExponent, hnone]
      dsimp only
      rw [shiftToExponent, hshift]
      dsimp only
      rw [mantissa_shiftRight]
      change ((n * 2 ^ (52 - n.log2) / 2 ^ (52 - n.log2) : Nat) : Int) = n
      rw [Nat.mul_div_cancel _ (Nat.two_pow_pos _)]
    change (UInt64.ofNatClamp (UnpackedFloat.toInt 0 _
      (Float.ofNat n).toModel.unpack).toNat).toNat = n
    rw [ofNat_unpack_of_lt hn h, UnpackedFloat.toInt, hwhole, Int.toNat_natCast,
      UInt64.ofNatClamp, dif_pos (Nat.lt_trans h (by decide))]
    rfl

end Spreadsheet
