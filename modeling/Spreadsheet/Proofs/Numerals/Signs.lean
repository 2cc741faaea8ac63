import Spreadsheet.Proofs.Numerals.Wholes

/-!
A change of sign goes through packing and through a division, so that the quotient of a number with
its sign changed is the quotient with its sign changed. The number that a numeral stands for may be
infinite and is never NaN.
-/

namespace Spreadsheet

open Float.Model Float.Model.UnpackedFloat

/-! ### Packing -/

theorem ofBitVec_toBitVec (s : Sign) : Sign.ofBitVec s.toBitVec = s := by
  cases s <;> rfl

/-- All that is packed but NaN has the components of a number, and one with the other sign but for
the sign has the same ones. -/
theorem exists_packComponents {u : UnpackedFloat} (hu : u ≠ .notANumber) :
    ∃ s e m, (e = -1#11 → m = 0#52) ∧
      UnpackedFloat.pack Format.binary64 u = packComponents Format.binary64 s e m ∧
      UnpackedFloat.pack Format.binary64 u.neg = packComponents Format.binary64 (-s) e m := by
  cases u with
  | notANumber => exact absurd rfl hu
  | infinity s => exact ⟨s, -1#11, 0#52, fun _ => rfl, rfl, rfl⟩
  | zero s => exact ⟨s, 0#11, 0#52, fun _ => rfl, rfl, rfl⟩
  | finite s m e hm =>
    rw [UnpackedFloat.neg, UnpackedFloat.pack, UnpackedFloat.pack, exponentBias_binary64]
    dsimp only
    by_cases hfits : 2 ^ 11 ≤ (e + (1023 : Nat) + (52 : Nat)).toNat + 1
    · rw [if_pos hfits, if_pos hfits]
      exact ⟨s, -1#11, 0#52, fun _ => rfl, rfl, rfl⟩
    · rw [if_neg hfits, if_neg hfits]
      split
      · refine ⟨s, _, _, fun h => ?_, rfl, rfl⟩
        have h := congrArg BitVec.toNat h
        rw [BitVec.toNat_ofNat, Nat.mod_eq_of_lt (by omega)] at h
        change _ = 2047 at h
        omega
      · exact ⟨s, 0#11, _, fun h => absurd h (by decide), rfl, rfl⟩

theorem unpack_packComponents_neg (s : Sign) (e : BitVec 11) (m : BitVec 52) :
    UnpackedFloat.unpack Format.binary64 (packComponents Format.binary64 (-s) e m) =
      (UnpackedFloat.unpack Format.binary64 (packComponents Format.binary64 s e m)).neg := by
  simp only [UnpackedFloat.unpack, unpackSign_packComponents, unpackExponent_packComponents,
    unpackMantissa_packComponents, ofBitVec_toBitVec]
  split
  · split <;> rfl
  · split
    · split <;> rfl
    · rfl

/-- What is packed with the other sign unpacks with the other sign. -/
theorem unpack_pack_neg (u : UnpackedFloat) :
    UnpackedFloat.unpack Format.binary64 (UnpackedFloat.pack Format.binary64 u.neg) =
      (UnpackedFloat.unpack Format.binary64 (UnpackedFloat.pack Format.binary64 u)).neg := by
  by_cases hu : u = .notANumber
  · subst hu
    rfl
  · obtain ⟨s, e, m, -, hpack, hneg⟩ := exists_packComponents hu
    rw [hpack, hneg, unpack_packComponents_neg]

theorem unpack_pack_ne_notANumber {u : UnpackedFloat} (hu : u ≠ .notANumber) :
    (Float.Model.pack u).unpack ≠ .notANumber := by
  obtain ⟨s, e, m, hm, hpack, -⟩ := exists_packComponents hu
  change UnpackedFloat.unpack Format.binary64 (UnpackedFloat.pack Format.binary64 u) ≠ _
  rw [hpack]
  simp only [UnpackedFloat.unpack, unpackExponent_packComponents, unpackMantissa_packComponents]
  split
  · next he =>
    rw [if_pos (hm he)]
    nofun
  · split
    · split <;> nofun
    · nofun

/-! ### Quotients -/

theorem neg_unpack (x : Float) : (-x).toModel.unpack = x.toModel.unpack.neg := by
  obtain ⟨⟨bits, hvalid⟩⟩ := x
  change UnpackedFloat.unpack Format.binary64 (UnpackedFloat.pack Format.binary64
    (UnpackedFloat.unpack Format.binary64 bits.toBitVec).neg) = _
  rw [unpack_pack_neg, pack_unpack hvalid]
  rfl

theorem float_neg_neg (x : Float) : -(-x) = x := by
  have hsame : (-(-x)).toModel.unpack = x.toModel.unpack := by
    rw [neg_unpack, neg_unpack]
    cases x.toModel.unpack with
    | notANumber => rfl
    | infinity s | zero s | finite s => cases s <;> rfl
  exact (eq_of_unpack hsame).trans (eq_of_unpack rfl).symm

theorem roundWithAccuracy_neg (s : Sign) (m : Nat) (e : Int) (a : Accuracy) :
    roundWithAccuracy Format.binary64 (-s) m e a =
      (roundWithAccuracy Format.binary64 s m e a).neg := by
  simp only [roundWithAccuracy]
  split <;> rfl

/-- An operation that keeps the sign of its first operand outside keeps it outside when its results
are packed. -/
theorem ofModel_pack_neg {op : UnpackedFloat → UnpackedFloat → UnpackedFloat}
    (hop : ∀ u v, op u.neg v = (op u v).neg) (x y : Float) :
    Float.ofModel (.pack (op (-x).toModel.unpack y.toModel.unpack)) =
      -Float.ofModel (.pack (op x.toModel.unpack y.toModel.unpack)) := by
  have hsame : (Float.ofModel (.pack (op (-x).toModel.unpack y.toModel.unpack))).toModel.unpack =
      (-Float.ofModel (.pack (op x.toModel.unpack y.toModel.unpack))).toModel.unpack := by
    rw [neg_unpack, neg_unpack, hop]
    exact unpack_pack_neg _
  exact (eq_of_unpack hsame).trans (eq_of_unpack rfl).symm

theorem div_neg (u v : UnpackedFloat) :
    UnpackedFloat.div Format.binary64 u.neg v = (UnpackedFloat.div Format.binary64 u v).neg := by
  have hsign (s t : Sign) : -s / t = -(s / t) := by cases s <;> cases t <;> rfl
  cases u with
  | notANumber => rfl
  | infinity s => cases v <;> simp only [UnpackedFloat.neg, UnpackedFloat.div, hsign]
  | zero s => cases v <;> simp only [UnpackedFloat.neg, UnpackedFloat.div, hsign]
  | finite s m e hm =>
    cases v with
    | finite t n f hn =>
      simp only [UnpackedFloat.neg, UnpackedFloat.div, hsign]
      exact roundWithAccuracy_neg _ _ _ _
    | _ => simp only [UnpackedFloat.neg, UnpackedFloat.div, hsign]

/-- The sign stays outside of a quotient. -/
theorem neg_div (x y : Float) : -x / y = -(x / y) :=
  ofModel_pack_neg div_neg x y

/-! ### NaN -/

theorem isNaN_eq_false_iff {x : Float} : x.isNaN = false ↔ x.toModel.unpack ≠ .notANumber := by
  rw [← Bool.not_eq_true, ← unpack_eq_notANumber]

theorem isNaN_neg {x : Float} (h : x.isNaN = false) : (-x).isNaN = false := by
  rw [isNaN_eq_false_iff] at h ⊢
  rw [neg_unpack]
  cases hx : x.toModel.unpack with
  | notANumber => exact absurd hx h
  | _ => nofun

theorem roundWithAccuracy_ne_notANumber (s : Sign) (m : Nat) (e : Int) (a : Accuracy) :
    roundWithAccuracy Format.binary64 s m e a ≠ .notANumber := by
  rw [roundWithAccuracy]
  dsimp only
  split
  · intro h
    cases h
  · intro h
    cases h

/-- A number by one that is finite and not 0. -/
theorem isNaN_div {x y : Float} (hx : x.isNaN = false) (hy : y.toModel.unpack = .finite s m e hm) :
    (x / y).isNaN = false := by
  rw [isNaN_eq_false_iff] at hx ⊢
  apply unpack_pack_ne_notANumber
  rw [hy]
  cases h : x.toModel.unpack with
  | notANumber => exact absurd h hx
  | finite => exact roundWithAccuracy_ne_notANumber _ _ _ _
  | _ => nofun

theorem isNaN_mul {x y : Float} (hx : x.isNaN = false) (hy : y.toModel.unpack = .finite s m e hm) :
    (x * y).isNaN = false := by
  rw [isNaN_eq_false_iff] at hx ⊢
  apply unpack_pack_ne_notANumber
  rw [hy]
  cases h : x.toModel.unpack with
  | notANumber => exact absurd h hx
  | finite => exact roundWithAccuracy_ne_notANumber _ _ _ _
  | _ => nofun

/-- The powers of ten up to the 22nd have at most 53 binary digits. -/
theorem packed_powerOfTen : ∀ e : Fin Float.exactlyRepresentablePowersOfTen.size,
    ∃ hm : 0 < 10 ^ e.val * 2 ^ 52 / 2 ^ (10 ^ e.val).log2,
      2 ^ 52 ≤ 10 ^ e.val * 2 ^ 52 / 2 ^ (10 ^ e.val).log2 ∧
      10 ^ e.val * 2 ^ 52 / 2 ^ (10 ^ e.val).log2 < 2 ^ 53 ∧ (10 ^ e.val).log2 ≤ 1000 ∧
      10 ^ e.val * 2 ^ 52 / 2 ^ (10 ^ e.val).log2 * 2 ^ (10 ^ e.val).log2 = 10 ^ e.val * 2 ^ 52 ∧
      Float.exactlyRepresentablePowersOfTen[e] = .ofModel (.pack (.finite .positive
        (10 ^ e.val * 2 ^ 52 / 2 ^ (10 ^ e.val).log2) ((10 ^ e.val).log2 - 52) hm)) := by
  decide +kernel

theorem exists_unpack_powerOfTen {e : Nat}
    (he : e < Float.exactlyRepresentablePowersOfTen.size) :
    ∃ (m : Nat) (k : Nat) (hm : 0 < m), 2 ^ 52 ≤ m ∧ m * 2 ^ k = 10 ^ e * 2 ^ 52 ∧
      Float.exactlyRepresentablePowersOfTen[e].toModel.unpack =
        .finite .positive m (k - 52) hm := by
  obtain ⟨hm, hlow, hhigh, hlog, hvalue, hpacked⟩ := packed_powerOfTen ⟨e, he⟩
  refine ⟨_, _, hm, hlow, hvalue, ?_⟩
  refine (congrArg (fun x => x.toModel.unpack) hpacked).trans ?_
  exact (unpack_pack hlow hhigh (by omega) hm _).trans (if_pos (by omega))

theorem isNaN_ofScientific (m : Nat) (s : Bool) (e : Nat) :
    (Float.ofScientific m s e).isNaN = false := by
  rw [Float.ofScientific]
  split
  · next h =>
    obtain ⟨_, _, _, -, -, hpower⟩ := exists_unpack_powerOfTen (Nat.lt_succ_of_le h.2)
    have hm : m.toUInt64.toFloat.isNaN = false := by
      rcases Nat.eq_zero_or_pos m with rfl | hm
      · rfl
      · rw [isNaN_eq_false_iff, toFloat_unpack hm h.1]
        exact fun h => by cases h
    dsimp only
    split
    · exact isNaN_div hm hpower
    · exact isNaN_mul hm hpower
  · rw [isNaN_eq_false_iff]
    apply unpack_pack_ne_notANumber
    unfold UnpackedFloat.ofScientific
    split_ifs
    all_goals first | exact roundWithAccuracy_ne_notANumber _ _ _ _ | exact fun h => by cases h

namespace Number

theorem Numeral.isNaN_toFloat (n : Numeral) : n.toFloat.isNaN = false := by
  simp only [toFloat]
  split
  · rfl
  · split
    · rfl
    · exact isNaN_ofScientific _ _ _

end Number

end Spreadsheet
