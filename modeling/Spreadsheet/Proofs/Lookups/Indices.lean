import Spreadsheet.Proofs.Evaluation.Multiplying
import Spreadsheet.Proofs.Lookups.Arguments

/-!
Numbers as indices. A natural number that floats can tell from its neighbours is an index as it is,
and a number that is negative with its fraction cut off is none.
-/

namespace Spreadsheet

open Float.Model Float.Model.UnpackedFloat

theorem le_iff_compare (x y : Float) :
    x ≤ y ↔ UnpackedFloat.compare x.toModel.unpack y.toModel.unpack = some .lt ∨
      UnpackedFloat.compare x.toModel.unpack y.toModel.unpack = some .eq := by
  change decide (x.toModel ≤ y.toModel) = true ↔ _
  rw [decide_eq_true_iff]
  change Option.any Ordering.isLE _ = true ↔ _
  cases UnpackedFloat.compare x.toModel.unpack y.toModel.unpack with
  | none => simp
  | some o => cases o <;> simp

namespace Number

theorem truncate_ofNat {n : Nat} (h : n < 2 ^ 53) : truncate (Float.ofNat n) = Float.ofNat n := by
  rcases Nat.eq_zero_or_pos n with rfl | hn
  · rfl
  · have hlog : n.log2 ≤ 52 := log2_le_of_lt h
    have hexponent : (-((n.log2 : Int) - 52)).toNat = 52 - n.log2 := by omega
    rw [truncate, toWhole, ofNat_unpack_of_lt hn h]
    dsimp only
    split
    · rfl
    · rw [hexponent]
      change Float.ofNat (n * 2 ^ (52 - n.log2) / 2 ^ (52 - n.log2)) = _
      rw [Nat.mul_div_cancel _ (Nat.two_pow_pos _)]

theorem not_ofNat_lt_zero {n : Nat} (h : n < 2 ^ 53) : ¬ Float.ofNat n < 0 := by
  rcases Nat.eq_zero_or_pos n with rfl | hn
  · decide
  · have hzero : (0 : Float).toModel.unpack = .zero .positive := rfl
    rw [lt_iff_compare, ofNat_unpack_of_lt hn h, hzero]
    nofun

theorem neg_ofNat_lt_zero {n : Nat} (hn : 0 < n) (h : n < 2 ^ 53) : -Float.ofNat n < 0 := by
  have hlog : n.log2 ≤ 52 := log2_le_of_lt h
  have hpos : 0 < n * 2 ^ (52 - n.log2) := Nat.mul_pos hn (Nat.two_pow_pos _)
  have hdigits : (n * 2 ^ (52 - n.log2)).log2 = 52 := by
    rw [log2_mul_two_pow hn]
    omega
  obtain ⟨hlow, hhigh⟩ := (Nat.log2_eq_iff (Nat.ne_of_gt hpos)).1 hdigits
  have hunpack : (-Float.ofNat n).toModel.unpack = UnpackedFloat.unpack Format.binary64
      (UnpackedFloat.pack Format.binary64 (Float.ofNat n).toModel.unpack.neg) := rfl
  rw [lt_iff_compare, hunpack, ofNat_unpack_of_lt hn h, UnpackedFloat.neg,
    unpack_pack hlow hhigh (by omega), if_pos (by omega)]
  rfl

/-- The whole part of a number that is at most -1 is at least 1 without its sign. -/
theorem truncate_lt_zero {x : Float} (h : x ≤ -1) : truncate x < 0 := by
  have hone : (-1 : Float).toModel.unpack = .finite .negative (2 ^ 52) (-52) (by decide) := rfl
  rw [le_iff_compare, hone] at h
  cases hx : x.toModel.unpack with
  | notANumber => simp [hx, UnpackedFloat.compare] at h
  | zero s => simp [hx, UnpackedFloat.compare] at h
  | infinity s =>
    have hsame : truncate x = x := by rw [truncate, toWhole, hx]
    cases s with
    | positive => simp [hx, UnpackedFloat.compare] at h
    | negative =>
      rw [hsame, lt_iff_compare, hx]
      rfl
  | finite s m e hm =>
    cases s with
    | positive => simp [hx, UnpackedFloat.compare] at h
    | negative =>
      obtain ⟨hlog, hcanonical⟩ := canonical_unpack hx
      have hbound : -52 ≤ e := by
        rw [hx, UnpackedFloat.compare] at h
        rcases Int.lt_trichotomy e (-52) with hlt | rfl | hgt
        · simp [Int.compare_eq_lt.2 hlt] at h
        · exact Int.le_refl _
        · exact Int.le_of_lt hgt
      have hdigits : m.log2 = 52 := by omega
      obtain ⟨hlow, hhigh⟩ := (Nat.log2_eq_iff (Nat.ne_of_gt hm)).1 hdigits
      rw [truncate, toWhole, hx]
      dsimp only
      split
      · rw [lt_iff_compare, hx]
        rfl
      · apply neg_ofNat_lt_zero
        · apply Nat.div_pos _ (Nat.two_pow_pos _)
          exact Nat.le_trans (Nat.pow_le_pow_right (by decide) (by omega)) hlow
        · exact Nat.lt_of_le_of_lt (Nat.div_le_self _ _) hhigh

end Number

namespace Lookup

theorem indexOf_number (x : Float) : indexOf (.number x) =
    if Number.truncate x < 0 then .error .value else .ok (Number.toNat64 (Number.truncate x)) := by
  change (if Number.truncate x < 0 then _ else _) = _
  split <;> rfl

theorem indexOf_ofNat {n : Nat} (h : n < 2 ^ 53) : indexOf (.number (Float.ofNat n)) = .ok n := by
  rw [indexOf_number, Number.truncate_ofNat h, if_neg (Number.not_ofNat_lt_zero h), Number.toNat64,
    toUInt64_ofNat h]

theorem indexOf_negative {x : Float} (h : x ≤ -1) : indexOf (.number x) = .error .value := by
  rw [indexOf_number, if_pos (Number.truncate_lt_zero h)]

end Lookup

end Spreadsheet
