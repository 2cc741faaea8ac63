import Spreadsheet.Number.Integral
import Spreadsheet.Proofs.Evaluation.Floats

/-!
Sums to which a zero is added. A float is what it is packed from, so that a zero changes no other
number, and a sum only if it is the negative zero.
-/

namespace Spreadsheet

open Float.Model Float.Model.UnpackedFloat

/-! ### Packing what was unpacked -/

theorem toBitVec_ofBitVec (s : BitVec 1) : (Sign.ofBitVec s).toBitVec = s := by
  rcases BitVec.eq_zero_or_eq_one s with rfl | rfl <;> rfl

theorem packComponents_unpack (b : BitVec Format.binary64.numBits) :
    packComponents Format.binary64 (Sign.ofBitVec (unpackSign b)) (unpackExponent b)
      (unpackMantissa b) = b := by
  rw [packComponents, toBitVec_ofBitVec, unpackSign, unpackExponent, unpackMantissa]
  ext i hi
  simp only [BitVec.extractLsb]
  grind

/-- The components as the branch of unpacking knows them. -/
theorem packComponents_of_eq {b : BitVec Format.binary64.numBits} (he : unpackExponent b = e)
    (hm : unpackMantissa b = m) :
    packComponents Format.binary64 (Sign.ofBitVec (unpackSign b)) e m = b := by
  rw [← he, ← hm]
  exact packComponents_unpack b

theorem exponentBias_binary64 : Format.binary64.exponentBias = 1023 := by decide

/-- A mantissa that fits beside the implicit bit belongs to a number below the normal ones. -/
theorem pack_subnormal (s : Sign) {m : BitVec 52} (hm : 0 < m.toNat) :
    UnpackedFloat.pack Format.binary64 (.finite s m.toNat (-1074) hm) =
      packComponents Format.binary64 s 0 m := by
  have hlog : ¬ m.toNat.log2 + 1 = Format.binary64.mantissaBits := by
    have hlt := (Nat.log2_lt (Nat.ne_of_gt hm)).2 m.isLt
    change ¬ m.toNat.log2 + 1 = 53
    omega
  rw [UnpackedFloat.pack, exponentBias_binary64]
  dsimp only
  rw [if_neg (by decide), if_neg hlog, BitVec.ofNat_toNat, BitVec.setWidth_eq]
  rfl

theorem toNat_implicit (m : BitVec 52) : (1#1 ++ m).toNat = 2 ^ 52 + m.toNat := by
  rw [BitVec.toNat_append, ← Nat.shiftLeft_add_eq_or_of_lt m.isLt]
  rfl

theorem pack_normal (s : Sign) {e : BitVec 11} {m : BitVec 52} (hne : e ≠ -1#11)
    (hm : 0 < (1#1 ++ m).toNat) :
    UnpackedFloat.pack Format.binary64 (.finite s (1#1 ++ m).toNat (e.toNat - 1075) hm) =
      packComponents Format.binary64 s e m := by
  have hmantissa := toNat_implicit m
  have hlt := m.isLt
  have hlog : (1#1 ++ m).toNat.log2 + 1 = Format.binary64.mantissaBits := by
    have hle := (Nat.le_log2 (Nat.ne_of_gt hm)).2 (Nat.le.intro hmantissa.symm)
    have hlt' := (Nat.log2_lt (Nat.ne_of_gt hm)).2 (show (1#1 ++ m).toNat < 2 ^ 53 by omega)
    change _ = 53
    omega
  have hexponent : ((e.toNat : Int) - 1075 + (1023 : Nat) + (52 : Nat)).toNat = e.toNat := by omega
  have hfits : ¬ 2 ^ 11 ≤ e.toNat + 1 := by
    have hmax : e.toNat ≠ 2047 := fun h => hne (BitVec.eq_of_toNat_eq h)
    have helt := e.isLt
    omega
  have hlow : BitVec.ofNat 52 (1#1 ++ m).toNat = m := by
    apply BitVec.eq_of_toNat_eq
    rw [BitVec.toNat_ofNat]
    omega
  rw [UnpackedFloat.pack, exponentBias_binary64]
  dsimp only
  rw [hexponent, if_neg hfits, if_pos hlog, hlow, BitVec.ofNat_toNat, BitVec.setWidth_eq]

theorem pack_unpack {b : BitVec Format.binary64.numBits} (h : Format.binary64.Valid b) :
    UnpackedFloat.pack Format.binary64 (UnpackedFloat.unpack Format.binary64 b) = b := by
  rw [UnpackedFloat.unpack]
  dsimp only
  split
  · next hexponent =>
    split
    · next hmantissa => exact packComponents_of_eq hexponent hmantissa
    · next hmantissa => exact (h.eq_packedNaN hexponent hmantissa).symm
  · next hinfinite =>
    split
    · next hexponent =>
      split
      · next hmantissa => exact packComponents_of_eq hexponent hmantissa
      · next hmantissa =>
        have hzero : ((unpackExponent b).toNat : Int) -
            (Format.binary64.exponentBias + (52 : Nat)) + 1 = -1074 := by
          rw [hexponent]
          rfl
        simp only [hzero]
        exact (pack_subnormal _ _).trans (packComponents_of_eq hexponent rfl)
    · exact (pack_normal _ hinfinite _).trans (packComponents_unpack b)

theorem eq_of_unpack {x : Float} {u : UnpackedFloat} (h : x.toModel.unpack = u) :
    x = .ofModel (.pack u) := by
  rw [← h]
  obtain ⟨⟨bits, hvalid⟩⟩ := x
  have hbits := pack_unpack hvalid
  simp only [Float.Model.pack, Float.Model.unpack, hbits]

/-! ### Adding zeros -/

theorem eq_zero_of_unpack {x : Float} (h : x.toModel.unpack = .zero s) : x = 0 ∨ x = -0.0 := by
  cases s with
  | positive => exact .inl (eq_of_unpack h)
  | negative => exact .inr (eq_of_unpack h)

theorem add_of_unpack {x z : Float} (hz : z.toModel.unpack = .zero s)
    (hx : ∀ s', x.toModel.unpack ≠ .zero s') : z + x = x ∧ x + z = x := by
  change Float.ofModel (.pack (UnpackedFloat.add Format.binary64 _ _)) = x ∧
    Float.ofModel (.pack (UnpackedFloat.add Format.binary64 _ _)) = x
  rw [hz]
  cases h : x.toModel.unpack with
  | zero s' => exact absurd h (hx s')
  | _ => exact ⟨(eq_of_unpack h).symm, (eq_of_unpack h).symm⟩

/-- A zero changes no number but a zero. -/
theorem add_eq_of_unpack {z : Float} (hz : z.toModel.unpack = .zero s) (x : Float) :
    (z + x = x ∧ x + z = x) ∨ x = 0 ∨ x = -0.0 := by
  by_cases hx : ∃ s', x.toModel.unpack = .zero s'
  · obtain ⟨s', hx⟩ := hx
    exact .inr (eq_zero_of_unpack hx)
  · exact .inl (add_of_unpack hz fun s' h => hx ⟨s', h⟩)

theorem negative_zero_add (x : Float) : -0.0 + x = x := by
  have hz : (-0.0 : Float).toModel.unpack = .zero .negative := rfl
  rcases add_eq_of_unpack hz x with ⟨h, -⟩ | rfl | rfl
  · exact h
  · decide
  · decide

theorem zero_add_or (x : Float) : 0 + x = x ∨ x = -0.0 := by
  have hz : (0 : Float).toModel.unpack = .zero .positive := rfl
  rcases add_eq_of_unpack hz x with ⟨h, -⟩ | rfl | rfl
  · exact .inl h
  · exact .inl (by decide)
  · exact .inr rfl

theorem add_zero_or (x : Float) : x + 0 = x ∨ x = -0.0 := by
  have hz : (0 : Float).toModel.unpack = .zero .positive := rfl
  rcases add_eq_of_unpack hz x with ⟨-, h⟩ | rfl | rfl
  · exact .inl h
  · exact .inl (by decide)
  · exact .inr rfl

/-- Numbers added to the one zero and to the other make one sum, or again the two zeros. -/
theorem foldl_add_zeros (xs : List Float) :
    xs.foldl (· + ·) 0 = xs.foldl (· + ·) (-0.0) ∨
      xs.foldl (· + ·) 0 = 0 ∧ xs.foldl (· + ·) (-0.0) = -0.0 := by
  induction xs with
  | nil => exact .inr ⟨rfl, rfl⟩
  | cons x xs ih =>
    rw [List.foldl_cons, List.foldl_cons, negative_zero_add]
    rcases zero_add_or x with h | rfl
    · rw [h]
      exact .inl rfl
    · exact ih

/-- A zero changes no sum but the negative zero. -/
theorem sum_insert_zero (xs ys : List Float) :
    Number.sum (xs ++ 0 :: ys) = Number.sum (xs ++ ys) ∨
      Number.sum (xs ++ 0 :: ys) = 0 ∧ Number.sum (xs ++ ys) = -0.0 := by
  rw [Number.sum, Number.sum, List.foldl_append, List.foldl_append, List.foldl_cons]
  rcases add_zero_or (xs.foldl (· + ·) (-0.0)) with h | h
  · rw [h]
    exact .inl rfl
  · rw [h]
    exact foldl_add_zeros ys

end Spreadsheet
