import Mathlib

/-!
Finite floats that stay finite: a number with its sign changed, and a hundredth of a number. Floats
are finite as far as their exponents, as they are unpacked, do not exceed 971.
-/

namespace Spreadsheet

open Float.Model Float.Model.UnpackedFloat

/-- Zero, or a number of at most 53 binary digits with an exponent that can be packed. -/
inductive Packable : UnpackedFloat → Prop
  | zero (s : Sign) : Packable (.zero s)
  | finite {s : Sign} {m : Nat} {e : Int} (hm : 0 < m) (hlog : m.log2 ≤ 52) (he : e ≤ 971) :
      Packable (.finite s m e hm)

/-! ### Packing -/

theorem log2_le_of_le {m n : Nat} (h : m ≤ 2 ^ n) : m.log2 ≤ n := by
  cases m with
  | zero => exact Nat.zero_le n
  | succ m =>
    exact Nat.le_of_lt_succ ((Nat.log2_lt (Nat.succ_ne_zero m)).2
      (Nat.lt_of_le_of_lt h (Nat.pow_lt_pow_right (by decide) (Nat.lt_succ_self n))))

theorem log2_le_of_lt {m n : Nat} (h : m < 2 ^ (n + 1)) : m.log2 ≤ n := by
  cases m with
  | zero => exact Nat.zero_le n
  | succ m => exact Nat.le_of_lt_succ ((Nat.log2_lt (Nat.succ_ne_zero m)).2 h)

theorem isFinite_unpack {b : BitVec Format.binary64.numBits} :
    (UnpackedFloat.unpack Format.binary64 b).isFinite = true ↔ unpackExponent b ≠ -1#11 := by
  unfold UnpackedFloat.unpack
  dsimp only
  split
  · next h =>
    split
    · exact ⟨nofun, fun hne => absurd h hne⟩
    · exact ⟨nofun, fun hne => absurd h hne⟩
  · next h =>
    split
    · split
      · exact ⟨fun _ => h, fun _ => rfl⟩
      · exact ⟨fun _ => h, fun _ => rfl⟩
    · exact ⟨fun _ => h, fun _ => rfl⟩

theorem packable_unpack {b : BitVec Format.binary64.numBits}
    (h : (UnpackedFloat.unpack Format.binary64 b).isFinite = true) :
    Packable (UnpackedFloat.unpack Format.binary64 b) := by
  have hexponent : unpackExponent b ≠ -1#11 := isFinite_unpack.1 h
  have hlt : (unpackExponent b).toNat < 2047 := by
    have hmax := (unpackExponent b).isLt
    have hne : (unpackExponent b).toNat ≠ 2047 := fun h => hexponent (BitVec.eq_of_toNat_eq h)
    change _ < 2 ^ 11 at hmax
    omega
  have hbias : Format.binary64.exponentBias = 1023 := by decide
  unfold UnpackedFloat.unpack
  dsimp only
  rw [if_neg hexponent, hbias]
  split
  · next hzero =>
    have hzero : (unpackExponent b).toNat = 0 := congrArg BitVec.toNat hzero
    split
    · exact .zero _
    · exact .finite _ (log2_le_of_lt (Nat.lt_trans (unpackMantissa b).isLt (by decide))) (by omega)
  · exact .finite _ (log2_le_of_lt (1#1 ++ unpackMantissa b).isLt) (by omega)

theorem isFinite_pack {f : UnpackedFloat} (h : Packable f) :
    (Float.Model.pack f).isFinite = true := by
  refine isFinite_unpack.2 ?_
  change unpackExponent (UnpackedFloat.pack Format.binary64 f) ≠ -1#11
  cases h with
  | zero s =>
    rw [UnpackedFloat.pack, packedZero, unpackExponent_packComponents]
    decide
  | @finite s m e hm hlog he =>
    have hbias : Format.binary64.exponentBias = 1023 := by decide
    have hfits : ¬ 2 ^ 11 ≤ (e + (1023 : Nat) + (52 : Nat)).toNat + 1 := by omega
    rw [UnpackedFloat.pack, hbias]
    dsimp only
    rw [if_neg hfits]
    split
    · rw [unpackExponent_packComponents]
      intro heq
      have hlt : (e + (1023 : Nat) + (52 : Nat)).toNat < 2 ^ 11 := by omega
      have hnat := congrArg BitVec.toNat heq
      rw [BitVec.toNat_ofNat, Nat.mod_eq_of_lt hlt] at hnat
      change _ = 2047 at hnat
      omega
    · rw [unpackExponent_packComponents]
      decide

theorem Packable.neg {f : UnpackedFloat} (h : Packable f) : Packable f.neg := by
  cases h with
  | zero s => exact .zero _
  | finite hm hlog he => exact .finite hm hlog he

theorem isFinite_neg {x : Float} (h : x.isFinite = true) : (-x).isFinite = true :=
  isFinite_pack (packable_unpack h).neg

/-! ### Rounding -/

theorem mantissa_shiftRight (em : ExtendedMantissa) (n : Nat) :
    (em >>> n).mantissa = em.mantissa / 2 ^ n := by
  induction n with
  | zero => exact (Nat.div_one _).symm
  | succ n ih =>
    change (em >>> n).mantissa / 2 = _
    rw [ih, Nat.div_div_eq_div_mul, Nat.pow_succ]

theorem roundedMantissa_le (em : ExtendedMantissa) : em.roundedMantissa ≤ em.mantissa + 1 := by
  obtain ⟨m, roundBit, stickyBit⟩ := em
  cases roundBit with
  | false => cases stickyBit <;> exact Nat.le_succ m
  | true =>
    cases stickyBit with
    | false => exact Nat.add_le_add_left (Nat.le_of_lt_succ (Nat.mod_lt m (by decide))) m
    | true => exact Nat.le_refl _

/-- A shift leaves at most 53 binary digits. -/
theorem shiftToTargetExponent_spec (m : Nat) (e : Int) (a : Accuracy) :
    (shiftToTargetExponent Format.binary64 m e a).1.mantissa < 2 ^ 53 ∧
      (shiftToTargetExponent Format.binary64 m e a).2 =
        max e (max (m.log2 + 1 + e - 53) (-1074)) := by
  have htarget : Format.binary64.targetExponent (totalExponent m e) =
      max (m.log2 + 1 + e - 53) (-1074) := rfl
  have hmantissa : (ExtendedMantissa.ofMantissaAndAccuracy m a).mantissa = m := by
    unfold ExtendedMantissa.ofMantissaAndAccuracy
    split <;> rfl
  simp only [shiftToTargetExponent, shiftToExponent, htarget, mantissa_shiftRight, hmantissa]
  refine ⟨?_, by omega⟩
  generalize hshift : (max (↑m.log2 + 1 + e - 53) (-1074) - e).toNat = n
  rw [Nat.div_lt_iff_lt_mul (Nat.two_pow_pos n), ← Nat.pow_add]
  exact Nat.lt_of_lt_of_le Nat.lt_log2_self (Nat.pow_le_pow_right (by decide) (by omega))

/-- What is rounded can be packed if it is well below the largest float. -/
theorem packable_round {m : Nat} {e : Int} (h : m.log2 + 1 + e ≤ 1023) (he : e ≤ 970) (s : Sign)
    (a : Accuracy) : Packable (roundWithAccuracy Format.binary64 s m e a) := by
  obtain ⟨hlt, hexponent⟩ := shiftToTargetExponent_spec m e a
  unfold roundWithAccuracy
  generalize shiftToTargetExponent Format.binary64 m e a = first at hlt hexponent ⊢
  obtain ⟨em, e₁⟩ := first
  have hround : em.roundedMantissa.log2 ≤ 53 :=
    log2_le_of_le (Nat.le_trans (roundedMantissa_le em) hlt)
  obtain ⟨hlt', hexponent'⟩ := shiftToTargetExponent_spec em.roundedMantissa e₁ .exact
  dsimp only at hexponent ⊢
  split
  · exact .zero s
  · exact .finite _ (log2_le_of_lt hlt') (by omega)

/-! ### Hundredths -/

theorem log2_quotient_le {m n k : Nat} (hm : m.log2 ≤ 52) (hn : 2 ^ 52 ≤ n) :
    ((m <<< k) / n).log2 ≤ k := by
  refine log2_le_of_lt ((Nat.div_lt_iff_lt_mul (Nat.lt_of_lt_of_le (by decide) hn)).2 ?_)
  have hm : m < 2 ^ 53 :=
    Nat.lt_of_lt_of_le Nat.lt_log2_self (Nat.pow_le_pow_right (by decide) (by omega))
  calc m <<< k = m * 2 ^ k := Nat.shiftLeft_eq m k
    _ < 2 ^ 53 * 2 ^ k := Nat.mul_lt_mul_of_pos_right hm (Nat.two_pow_pos k)
    _ = 2 ^ (k + 1) * 2 ^ 52 := by rw [← Nat.pow_add, ← Nat.pow_add]; congr 1; omega
    _ ≤ 2 ^ (k + 1) * n := Nat.mul_le_mul_left _ hn

theorem Packable.hundredth {f : UnpackedFloat} (h : Packable f) :
    Packable (f.div Format.binary64 (100 : Float).toModel.unpack) := by
  have hhundred :
      (100 : Float).toModel.unpack = .finite .positive (100 * 2 ^ 46) (-46) (by decide) :=
    rfl
  have hlog : (100 * 2 ^ 46).log2 = 52 := by decide
  rw [hhundred]
  cases h with
  | zero s => exact .zero _
  | @finite s m e hm hlogm he =>
    rw [UnpackedFloat.div, divCore]
    have htarget : Format.binary64.targetExponent (totalExponent m e -
        totalExponent (100 * 2 ^ 46) (-46)) = max (m.log2 + 1 + e - (52 + 1 + -46) - 53) (-1074) := by
      rw [totalExponent, totalExponent, hlog]
      rfl
    dsimp only
    rw [htarget]
    generalize ht : min (e - -46) (max (m.log2 + 1 + e - (52 + 1 + -46) - 53) (-1074)) = t
    have hquotient := log2_quotient_le (k := (e - -46 - t).toNat) hlogm
      (show 2 ^ 52 ≤ 100 * 2 ^ 46 by decide)
    exact packable_round (by omega) (by omega) _ _

theorem isFinite_hundredth {x : Float} (h : x.isFinite = true) : (x / 100).isFinite = true :=
  isFinite_pack (packable_unpack h).hundredth

end Spreadsheet
