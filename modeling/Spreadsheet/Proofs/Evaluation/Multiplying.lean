import Spreadsheet.Proofs.Comparing.Naturals

/-!
Products of floats. They do not depend on the order of the factors, and one is neutral among them:
the digits of a float have the exponent of their number, so that digits that are written with more
zeros behind them are rounded to the same float.
-/

namespace Spreadsheet

open Float.Model Float.Model.UnpackedFloat

/-- The digits of a float have the exponent of their number. -/
theorem canonical_unpack {b : BitVec Format.binary64.numBits} {s : Sign} {m : Nat} {e : Int}
    {hm : 0 < m} (h : UnpackedFloat.unpack Format.binary64 b = .finite s m e hm) :
    m.log2 ≤ 52 ∧ max (m.log2 + 1 + e - 53) (-1074) = e := by
  unfold UnpackedFloat.unpack at h
  dsimp only at h
  rw [exponentBias_binary64] at h
  split at h
  · split at h <;> cases h
  · split at h
    · next hzero =>
      have hexponent : (unpackExponent b).toNat = 0 := congrArg BitVec.toNat hzero
      split at h
      · cases h
      · cases h
        have hlog : (unpackMantissa b).toNat.log2 ≤ 51 := log2_le_of_lt (unpackMantissa b).isLt
        omega
    · next hne =>
      have hexponent : 0 < (unpackExponent b).toNat :=
        Nat.pos_of_ne_zero fun h => hne (BitVec.eq_of_toNat_eq h)
      cases h
      have hlog : (1#1 ++ unpackMantissa b).toNat.log2 = 52 := by
        have hdigits := toNat_implicit (unpackMantissa b)
        have hlt := (unpackMantissa b).isLt
        rw [Nat.log2_eq_iff (by omega)]
        omega
      rw [hlog]
      omega

/-- Nothing is rounded away of digits with zeros behind them. -/
theorem roundedMantissa_scaled (m t : Nat) :
    (ExtendedMantissa.ofMantissaAndAccuracy (m * 2 ^ t) .exact >>> t).roundedMantissa = m := by
  obtain ⟨rest, h⟩ := shifted (m * 2 ^ t) t
  have hmantissa : (ExtendedMantissa.ofMantissaAndAccuracy (m * 2 ^ t) .exact >>> t).mantissa = m :=
    (mantissa_shiftRight _ t).trans (Nat.mul_div_cancel m (Nat.two_pow_pos t))
  have hsplit := h.split
  have hround := h.roundBit
  generalize ExtendedMantissa.ofMantissaAndAccuracy (m * 2 ^ t) .exact >>> t = em
    at hmantissa hsplit hround
  obtain ⟨q, roundBit, stickyBit⟩ := em
  cases hmantissa
  cases roundBit with
  | true =>
    have hhalf := hround.1 rfl
    have hpos := Nat.two_pow_pos t
    omega
  | false => cases stickyBit <;> rfl

/-- Digits that are written with zeros behind them are rounded to what they are without these. -/
theorem round_scaled {m : Nat} {e : Int} (hm : 0 < m)
    (he : max (m.log2 + 1 + e - 53) (-1074) = e) (s : Sign) (t : Nat) :
    roundWithAccuracy Format.binary64 s (m * 2 ^ t) (e - t) .exact = .finite s m e hm := by
  have htarget : max (((m * 2 ^ t).log2 : Int) + 1 + (e - t) - 53) (-1074) = e := by
    rw [log2_mul_two_pow hm]
    omega
  have hshift : (e - (e - t)).toNat = t := by omega
  rw [roundWithAccuracy_eq_settled _ _ htarget (by omega), hshift, roundedMantissa_scaled]
  exact settled_fixed hm he s

theorem sign_mul_comm (s s' : Sign) : s * s' = s' * s := by cases s <;> cases s' <;> rfl

theorem unpacked_mul_comm (f g : UnpackedFloat) :
    f.mul Format.binary64 g = g.mul Format.binary64 f := by
  cases f with
  | finite s m e hm =>
    cases g with
    | finite s' m' e' hm' =>
      rw [UnpackedFloat.mul, UnpackedFloat.mul, sign_mul_comm, Nat.mul_comm, Int.add_comm]
    | _ => simp only [UnpackedFloat.mul, sign_mul_comm]
  | _ => cases g <;> simp only [UnpackedFloat.mul, sign_mul_comm]

theorem float_mul_comm (x y : Float) : x * y = y * x := by
  change Float.ofModel (.pack (UnpackedFloat.mul Format.binary64 _ _)) =
    Float.ofModel (.pack (UnpackedFloat.mul Format.binary64 _ _))
  rw [unpacked_mul_comm]

theorem float_one_mul (x : Float) : 1.0 * x = x := by
  have hone : (1.0 : Float).toModel.unpack = .finite .positive (2 ^ 52) (-52) (by decide) := rfl
  have hsign (s : Sign) : Sign.positive * s = s := by cases s <;> rfl
  have hmul : UnpackedFloat.mul Format.binary64 (1.0 : Float).toModel.unpack x.toModel.unpack =
      x.toModel.unpack := by
    rw [hone]
    cases hx : x.toModel.unpack with
    | finite s m e hm =>
      obtain ⟨-, he⟩ := canonical_unpack hx
      have hround := round_scaled hm he s 52
      rw [UnpackedFloat.mul, hsign, Nat.mul_comm, Int.add_comm]
      exact hround
    | notANumber => rfl
    | _ => simp only [UnpackedFloat.mul, hsign]
  change Float.ofModel (.pack (UnpackedFloat.mul Format.binary64 _ _)) = x
  rw [hmul]
  exact (eq_of_unpack rfl).symm

end Spreadsheet
