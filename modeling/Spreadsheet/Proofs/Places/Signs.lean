import Spreadsheet.Number.Scaled
import Spreadsheet.Proofs.Numerals.Signs

/-!
The sign stays outside of products and of whole parts, and rounding in decimal keeps it, too. So a
number is rounded like the one with the other sign, whatever its size and the place.
-/

namespace Spreadsheet

open Float.Model Float.Model.UnpackedFloat

variable {x y : Float}

theorem mul_neg_left (u v : UnpackedFloat) :
    UnpackedFloat.mul Format.binary64 u.neg v = (UnpackedFloat.mul Format.binary64 u v).neg := by
  have hsign (s t : Sign) : -s * t = -(s * t) := by cases s <;> cases t <;> rfl
  cases u with
  | notANumber => rfl
  | infinity s => cases v <;> simp only [UnpackedFloat.neg, UnpackedFloat.mul, hsign]
  | zero s => cases v <;> simp only [UnpackedFloat.neg, UnpackedFloat.mul, hsign]
  | finite s m e hm =>
    cases v with
    | finite t n f hn =>
      simp only [UnpackedFloat.neg, UnpackedFloat.mul, hsign]
      exact roundWithAccuracy_neg _ _ _ _
    | _ => simp only [UnpackedFloat.neg, UnpackedFloat.mul, hsign]

/-- The sign stays outside of a product. -/
theorem neg_mul_float (x y : Float) : -x * y = -(x * y) :=
  ofModel_pack_neg mul_neg_left x y

namespace Number

theorem signed_neg (s : Sign) (x : Float) : signed (-s) x = -signed s x := by
  cases s with
  | positive => rfl
  | negative => exact (float_neg_neg x).symm

/-- A rule that does not look at the sign keeps it. -/
theorem toWhole_neg (rule : Nat → Nat → Nat) (x : Float) :
    toWhole (fun _ => rule) (-x) = -toWhole (fun _ => rule) x := by
  rw [toWhole, toWhole, neg_unpack]
  cases x.toModel.unpack with
  | finite s m e hm =>
    dsimp only [UnpackedFloat.neg]
    split
    · rfl
    · exact signed_neg s _
  | _ => rfl

theorem roundHuge_neg (strategy : Scaled.Strategy) (k : Nat) (x : Float) :
    roundHuge strategy k (-x) = -roundHuge strategy k x := by
  cases strategy with
  | _ =>
    simp only [roundHuge, neg_div, round, truncate, expand, toWhole_neg, neg_mul_float]

/-! ### Scaled decimals -/

namespace Scaled

variable {d : Scaled} {strategy : Strategy} {k places : Nat}

/-- The decimal with the other sign. -/
def flip (d : Scaled) : Scaled := { d with sign := -d.sign }

@[simp] theorem flip_mantissa (d : Scaled) : d.flip.mantissa = d.mantissa := rfl

@[simp] theorem flip_scale (d : Scaled) : d.flip.scale = d.scale := rfl

theorem roundTo_flip (strategy : Strategy) (places : Nat) (d : Scaled) :
    d.flip.roundTo strategy places = (d.roundTo strategy places).flip := by
  by_cases h : d.scale ≤ places
  · rw [roundTo, roundTo, flip_scale, if_pos h, if_pos h]
  · rw [roundTo, roundTo, flip_scale, if_neg h, if_neg h]
    rfl

theorem shiftRight_flip (d : Scaled) (k : Nat) :
    d.flip.shiftRight k = (d.shiftRight k).flip := by
  by_cases h : d.scale + k ≤ maxScale
  · rw [shiftRight, shiftRight, flip_scale, if_pos h, if_pos h]
    rfl
  · rw [shiftRight, shiftRight, flip_scale, if_neg h, if_neg h]
    rfl

theorem shiftLeft?_flip (d : Scaled) (k : Nat) :
    d.flip.shiftLeft? k = (d.shiftLeft? k).map flip := by
  by_cases h : d.mantissa * Nat.pow 10 k < mantissaBound
  · rw [shiftLeft?, shiftLeft?, flip_mantissa, if_pos h, if_pos h]
    rfl
  · rw [shiftLeft?, shiftLeft?, flip_mantissa, if_neg h, if_neg h]
    rfl

/-- The second float is the first one with the other sign, or both are 0. -/
def Opposite (x y : Float) : Prop := y = -x ∨ x = 0 ∧ y = 0

theorem toFloat_flip (d : Scaled) : Opposite d.toFloat d.flip.toFloat := by
  by_cases hscale : d.scale = 0
  · rw [toFloat, toFloat, flip_scale, flip_mantissa, if_pos hscale, if_pos hscale]
    by_cases hzero : d.mantissa = 0
    · rw [if_pos hzero, if_pos hzero]
      exact .inr ⟨rfl, rfl⟩
    · rw [if_neg hzero, if_neg hzero]
      exact .inl (signed_neg _ _)
  · rw [toFloat, toFloat, flip_scale, flip_mantissa, if_neg hscale, if_neg hscale]
    by_cases hwhole : d.mantissa % Nat.pow 10 d.scale = 0
    · rw [if_pos hwhole, if_pos hwhole]
      exact .inl (signed_neg _ _)
    · rw [if_neg hwhole, if_neg hwhole]
      exact .inl (signed_neg _ _)

/-- The mantissa and the scale of a number with these digits. -/
def fitted? (m : Nat) (e : Int) : Option (Nat × Nat) :=
  if e < 0 then (divideTwos (-e).toNat ⟨m, e⟩).fit? else (multiplyTwos e.toNat ⟨m, e⟩).bind (·.fit?)

theorem ofFloat?_finite {s : Sign} {m : Nat} {e : Int} {hm : 0 < m}
    (hx : x.toModel.unpack = .finite s m e hm) :
    ofFloat? x = (fitted? m e).map fun p => ⟨s, p.1, p.2⟩ := by
  rw [ofFloat?, hx, fitted?]
  dsimp only
  split
  · change ((divideTwos (-e).toNat ⟨m, e⟩).fit?.bind fun p => some (Scaled.mk s p.1 p.2)) = _
    cases (divideTwos (-e).toNat ⟨m, e⟩).fit? <;> rfl
  · cases multiplyTwos e.toNat ⟨m, e⟩ with
    | none => rfl
    | some y =>
      change (y.fit?.bind fun p => some (Scaled.mk s p.1 p.2)) =
        y.fit?.map fun p => Scaled.mk s p.1 p.2
      cases y.fit? <;> rfl

/-- But for zero, the sign is taken over. -/
theorem ofFloat?_neg (x : Float) :
    ofFloat? (-x) = (ofFloat? x).map flip ∨ ∃ s, x.toModel.unpack = .zero s := by
  have hneg := neg_unpack x
  cases hx : x.toModel.unpack with
  | notANumber | infinity =>
    rw [hx] at hneg
    rw [ofFloat?, ofFloat?, hneg, hx]
    exact .inl rfl
  | zero s => exact .inr ⟨s, rfl⟩
  | finite s m e hm =>
    rw [hx] at hneg
    rw [ofFloat?_finite hneg, ofFloat?_finite hx, Option.map_map]
    exact .inl rfl

theorem quotient_zero (strategy : Strategy) (hk : 0 < k) : strategy.quotient 0 k = 0 := by
  cases strategy with
  | nearest =>
    rw [Strategy.quotient, quotientNearest, Nat.div_eq_of_lt (by omega)]
  | towardZero => exact Nat.zero_div k
  | awayFromZero =>
    rw [Strategy.quotient, quotientUp, Nat.div_eq_of_lt (by omega)]

end Scaled

open Scaled (Opposite Strategy ofFloat? flip)

theorem neg_bne_zero (x : Float) : (-x != 0) = (x != 0) := by
  change (!((-x).toModel.unpack.compare (0 : Float).toModel.unpack == some .eq)) =
    !(x.toModel.unpack.compare (0 : Float).toModel.unpack == some .eq)
  rw [neg_unpack]
  cases x.toModel.unpack with
  | notANumber => rfl
  | infinity s | zero s | finite s => cases s <;> rfl

/-- Zero is rounded to zero. -/
theorem roundDecimal_zero {s : Sign} (hx : x.toModel.unpack = .zero s) (strategy : Strategy)
    (digits : Float) : roundDecimal strategy x digits = some 0 := by
  have hscaled : ofFloat? x = some ⟨.positive, 0, 0⟩ := by rw [ofFloat?, hx]
  rw [roundDecimal, hscaled]
  cases clampDigits digits with
  | ofNat n => rfl
  | negSucc k =>
    have hzero : (x != 0) = false := by
      change (!(x.toModel.unpack.compare (0 : Float).toModel.unpack == some .eq)) = false
      rw [hx]
      rfl
    dsimp only
    split
    · rw [hzero, Bool.and_false]
      rfl
    · next hk =>
      have hscale : 0 + (k + 1) ≤ Scaled.maxScale := by omega
      have hpow : 0 < Nat.pow 10 (0 + (k + 1) - 0) := Nat.pow_pos (by decide)
      rw [Scaled.shiftRight, if_pos hscale, Scaled.roundTo, if_neg (by dsimp only; omega)]
      dsimp only
      rw [Scaled.quotient_zero strategy hpow, Scaled.shiftLeft?]
      dsimp only
      rw [Nat.zero_mul]
      rfl

/-- The number with the other sign is rounded to the one with the other sign, by any strategy and at
any place. -/
theorem roundDecimal_neg (strategy : Strategy) (x digits : Float) :
    Option.Rel Opposite (roundDecimal strategy x digits) (roundDecimal strategy (-x) digits) := by
  obtain hneg | ⟨s, hx⟩ := Scaled.ofFloat?_neg x
  · rw [roundDecimal, roundDecimal, hneg, neg_bne_zero]
    cases ofFloat? x with
    | none =>
      cases clampDigits digits with
      | ofNat n => exact .some (.inl rfl)
      | negSucc k => exact .some (.inl (roundHuge_neg strategy (k + 1) x))
    | some d =>
      cases clampDigits digits with
      | ofNat n =>
        dsimp only [Option.map]
        rw [Scaled.roundTo_flip]
        exact .some (Scaled.toFloat_flip _)
      | negSucc k =>
        dsimp only [Option.map]
        split
        · split
          · exact .none
          · exact .some (.inr ⟨rfl, rfl⟩)
        · rw [Scaled.shiftRight_flip, Scaled.roundTo_flip, Scaled.shiftLeft?_flip]
          cases ((d.shiftRight (k + 1)).roundTo strategy 0).shiftLeft? (k + 1) with
          | none => exact .none
          | some d => exact .some (Scaled.toFloat_flip d)
  · have hx' : (-x).toModel.unpack = .zero (-s) := by
      rw [neg_unpack, hx]
      rfl
    rw [roundDecimal_zero hx, roundDecimal_zero hx']
    exact .some (.inr ⟨rfl, rfl⟩)

end Number

end Spreadsheet
