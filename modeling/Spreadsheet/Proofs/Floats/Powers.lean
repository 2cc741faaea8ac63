import Spreadsheet.Proofs.Floats.Neighbours
import Spreadsheet.Proofs.Floats.WholeParts

/-!
Powers of ten by repeated squaring. Up to the 22nd they are exact, and all that are finite are at
least one. No float lies between one of the larger ones and the number that it is for.
-/

namespace Spreadsheet

open Float.Model Float.Model.UnpackedFloat

variable {x y acc base : Float} {n p : Nat}

theorem isFinite_packed {f : UnpackedFloat} (hf : f = .notANumber ∨ ∃ s, f = .infinity s) :
    (Float.ofModel (.pack f)).isFinite = false := by
  obtain rfl | ⟨s, rfl⟩ := hf
  · rfl
  · cases s <;> rfl

theorem mul_of_not_finite {f g : UnpackedFloat} (h : f.isFinite = false ∨ g.isFinite = false) :
    f.mul Format.binary64 g = .notANumber ∨ ∃ s, f.mul Format.binary64 g = .infinity s := by
  cases f with
  | notANumber => exact .inl rfl
  | infinity s =>
    cases g with
    | notANumber | zero => exact .inl rfl
    | infinity | finite => exact .inr ⟨_, rfl⟩
  | zero s =>
    cases g with
    | notANumber | infinity => exact .inl rfl
    | _ => exact absurd h (by simp [UnpackedFloat.isFinite])
  | finite s =>
    cases g with
    | notANumber => exact .inl rfl
    | infinity => exact .inr ⟨_, rfl⟩
    | _ => exact absurd h (by simp [UnpackedFloat.isFinite])

/-- A product is finite only if its factors are. -/
theorem isFinite_of_mul (h : (x * y).isFinite = true) :
    x.isFinite = true ∧ y.isFinite = true := by
  by_contra hfactors
  rw [not_and_or, Bool.not_eq_true, Bool.not_eq_true] at hfactors
  have hproduct : (x * y).isFinite = false := isFinite_packed (mul_of_not_finite hfactors)
  rw [hproduct] at h
  cases h

/-- The float is at least one if it is finite. -/
def LargeIfFinite (x : Float) : Prop := x.isFinite = true → ∃ v, 1 ≤ v ∧ Represents x v

theorem LargeIfFinite.mul (hx : LargeIfFinite x) (hy : LargeIfFinite y) :
    LargeIfFinite (x * y) := by
  intro hfinite
  obtain ⟨hx', hy'⟩ := isFinite_of_mul hfinite
  obtain ⟨v, hv, hxv⟩ := hx hx'
  obtain ⟨w, hw, hyw⟩ := hy hy'
  obtain ⟨z, hz, hxyz⟩ := (hxv.mul hyw).exists_of_isFinite hfinite
  exact ⟨z, (Rounds.of_fewDigits .one).mono hz (one_le_mul_of_one_le_of_one_le hv hw), hxyz⟩

theorem largeIfFinite_ofNat (hn : 0 < n) (hle : n ≤ 2 ^ 53) : LargeIfFinite (Float.ofNat n) :=
  fun _ => ⟨n, by exact_mod_cast hn, represents_ofNat hle⟩

namespace Number

/-- All factors are as large as the powers of the base that they stand for. -/
theorem largeIfFinite_squaringProduct (hacc : LargeIfFinite acc) (hbase : LargeIfFinite base)
    (n : Nat) : LargeIfFinite (squaringProduct acc base n) := by
  induction n using Nat.strong_induction_on generalizing acc base with
  | h n ih =>
    have hnext : LargeIfFinite (if n % 2 = 1 then acc * base else acc) := by
      split
      · exact hacc.mul hbase
      · exact hacc
    rw [squaringProduct]
    split
    · exact hnext
    · exact ih (n / 2) (by omega) hnext (hbase.mul hbase)

theorem largeIfFinite_powerOfTen (n : Nat) : LargeIfFinite (powerOfTen n) :=
  largeIfFinite_squaringProduct (largeIfFinite_ofNat Nat.one_pos (by decide))
    (largeIfFinite_ofNat (n := 10) (by decide) (by decide)) n

/-- The powers with which scaled decimals are converted are finite. -/
theorem one_le_powerOfTen (hp : p ≤ 28) : ∃ v, 1 ≤ v ∧ Represents (powerOfTen p) v := by
  have hfinite : ∀ p : Fin 29, (powerOfTen p).isFinite = true := by decide +kernel
  exact largeIfFinite_powerOfTen p (hfinite ⟨p, by omega⟩)

theorem represents_powerOfTen (hp : p ≤ 22) : Represents (powerOfTen p) (10 ^ p : Nat) := by
  have hsame : ∀ p : Fin 23, powerOfTen p = Float.exactlyRepresentablePowersOfTen[p] := by
    decide +kernel
  have hindex : p < Float.exactlyRepresentablePowersOfTen.size := Nat.lt_succ_of_le hp
  have hpower : powerOfTen p = Float.exactlyRepresentablePowersOfTen[p] := hsame ⟨p, hindex⟩
  obtain ⟨m, k, hm, -, hvalue, hunpack⟩ := exists_unpack_powerOfTen hindex
  obtain ⟨v, -, hv⟩ := one_le_powerOfTen (hp.trans (by decide))
  rw [← hpower] at hunpack
  have hc : Canonical m ((k : Int) - 52) := canonical_of_isFinite hv.isFinite hunpack
  have hten : ((10 ^ p : Nat) : ℚ) = unit .positive * (m * 2 ^ ((k : Int) - 52)) := by
    have hcast : (m : ℚ) * 2 ^ k = (10 ^ p : Nat) * 2 ^ 52 := by exact_mod_cast hvalue
    rw [unit_positive_mul, zpow_sub₀ two_ne_zero, zpow_natCast, ← mul_div_assoc, hcast]
    norm_num
  rw [Represents, hunpack, hten]
  exact .finite .positive hc

/-! ### Powers by their digits -/

/-- The product of two floats, if it has all digits and is not too large. -/
def product? (f g : UnpackedFloat) : Option UnpackedFloat :=
  match f.mul Format.binary64 g with
  | .finite s m e hm =>
    if m.log2 = 52 ∧ -1074 ≤ e ∧ e ≤ 971 then some (.finite s m e hm) else none
  | _ => none

/-- Repeated squaring on digits, which spares packing them after each step. -/
def squaringProduct? : Nat → UnpackedFloat → UnpackedFloat → Nat → Option UnpackedFloat
  | 0, _, _, _ => none
  | fuel + 1, acc, base, n =>
    (if n % 2 = 1 then product? acc base else some acc).bind fun acc =>
      if n / 2 = 0 then some acc
      else (product? base base).bind fun base => squaringProduct? fuel acc base (n / 2)

theorem unpack_mul {f : UnpackedFloat}
    (h : product? x.toModel.unpack y.toModel.unpack = some f) : (x * y).toModel.unpack = f := by
  change UnpackedFloat.unpack Format.binary64 (UnpackedFloat.pack Format.binary64
    (UnpackedFloat.mul Format.binary64 x.toModel.unpack y.toModel.unpack)) = f
  rw [product?] at h
  split at h
  · next s m e hm hproduct =>
    split at h
    · next hdigits =>
      cases h
      have htarget : targetOf m e = e := by
        rw [targetOf]
        omega
      rw [hproduct, unpack_pack_canonical hm hdigits.1.le htarget, if_pos hdigits.2.2]
    · cases h
  · cases h

theorem unpack_squaringProduct {f : UnpackedFloat} {fuel : Nat}
    (h : squaringProduct? fuel acc.toModel.unpack base.toModel.unpack n = some f) :
    (squaringProduct acc base n).toModel.unpack = f := by
  induction fuel generalizing acc base n with
  | zero => cases h
  | succ fuel ih =>
    rw [squaringProduct?] at h
    obtain ⟨g, hg, h⟩ := Option.bind_eq_some_iff.1 h
    have hacc : (if n % 2 = 1 then acc * base else acc).toModel.unpack = g := by
      split at hg
      · next hodd =>
        rw [if_pos hodd]
        exact unpack_mul hg
      · next heven =>
        rw [if_neg heven]
        exact Option.some.inj hg
    rw [squaringProduct]
    split at h
    · next hlast =>
      rw [if_pos hlast, hacc]
      exact Option.some.inj h
    · next hmore =>
      obtain ⟨b, hb, h⟩ := Option.bind_eq_some_iff.1 h
      rw [if_neg hmore]
      apply ih
      rwa [hacc, unpack_mul hb]

/-- The float has all digits, and with one more unit of the last one it is at least `n`. -/
def EndsAt (n : Nat) : UnpackedFloat → Prop
  | .finite .positive m e _ => m.log2 = 52 ∧ 0 ≤ e ∧ n ≤ (m + 1) * 2 ^ e.toNat
  | _ => False

instance (n : Nat) : DecidablePred (EndsAt n)
  | .finite .positive m e _ =>
    inferInstanceAs (Decidable (m.log2 = 52 ∧ 0 ≤ e ∧ n ≤ (m + 1) * 2 ^ e.toNat))
  | .finite .negative _ _ _ | .zero _ | .infinity _ | .notANumber =>
    inferInstanceAs (Decidable False)

theorem squaringProduct?_endsAt : ∀ k < 309, 29 ≤ k →
    (squaringProduct? 9 (.finite .positive (2 ^ 52) (-52) (by decide))
      (.finite .positive (10 * 2 ^ 49) (-49) (by decide)) k).any (EndsAt (10 ^ k)) = true := by
  decide +kernel

/-- No float lies between what is computed for a large power of ten and the power itself, if that is
greater. -/
theorem exists_powerOfTen {k : Nat} (hk : 29 ≤ k) (hk' : k ≤ 308) :
    ∃ p, 1 ≤ p ∧ Represents (powerOfTen k) p ∧ ∀ v, FewDigits v → p < v → 10 ^ k ≤ v := by
  have hends := squaringProduct?_endsAt k (Nat.lt_succ_of_le hk') hk
  rw [Option.any_eq_true] at hends
  obtain ⟨f, hf, hends⟩ := hends
  have hunpack : (powerOfTen k).toModel.unpack = f := unpack_squaringProduct hf
  have hends := of_decide_eq_true hends
  match f, hends with
  | .finite .positive m e hm, ⟨hlog, he, hn⟩ =>
    have hfinite : (powerOfTen k).isFinite = true := by
      change (powerOfTen k).toModel.unpack.isFinite = true
      rw [hunpack]
      rfl
    obtain ⟨p, hone, hp⟩ := largeIfFinite_powerOfTen k hfinite
    have hvalue : Represents (powerOfTen k) (m * 2 ^ e) := by
      rw [Represents, hunpack, ← unit_positive_mul (m * 2 ^ e)]
      exact .finite .positive (canonical_of_isFinite hfinite hunpack)
    rw [hp.unique hvalue] at hone
    refine ⟨_, hone, hvalue, fun v hv hlt => ?_⟩
    have hnext := hv.next_le (hlog ▸ Nat.log2_self_le hm.ne') hlt
    obtain ⟨i, rfl⟩ := Int.eq_ofNat_of_zero_le he
    rw [zpow_natCast] at hnext
    rw [Int.toNat_natCast] at hn
    have hn' : (10 ^ k : ℚ) ≤ (m + 1 : Nat) * 2 ^ i := by exact_mod_cast hn
    exact hn'.trans hnext

end Number

end Spreadsheet
