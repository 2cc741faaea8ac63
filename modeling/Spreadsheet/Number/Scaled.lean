import Spreadsheet.Number.Integral

/-!
Scaled decimals: a mantissa of 96 bits with up to 28 decimal places. Numbers are rounded to a given
number of places in this form, so that they round as they read in decimal.
-/

namespace Spreadsheet.Number

open Float.Model.UnpackedFloat (Sign)

/-- The decimal `± mantissa / 10 ^ scale`. -/
structure Scaled where
  sign : Sign
  mantissa : Nat
  scale : Nat

namespace Scaled

def mantissaBound : Nat := Nat.pow 2 96

def maxScale : Nat := 28

/-- A mantissa with a decimal exponent, on the way to a scaled decimal. -/
structure Exponential where
  mantissa : Nat
  exponent : Int

/-- Multiplies by `5 ^ k / 10 ^ k` exactly in value, moving factors of two out of the mantissa. Low
bits are dropped where the mantissa has no room. -/
def divideTwos : Nat → Exponential → Exponential
  | 0, x => x
  | k + 1, x =>
    if x.mantissa % 2 = 0 then divideTwos k ⟨x.mantissa / 2, x.exponent + 1⟩
    else if x.mantissa * 5 < mantissaBound then divideTwos k ⟨x.mantissa * 5, x.exponent⟩
    else divideTwos k ⟨x.mantissa / 2, x.exponent + 1⟩

/-- Multiplies by `10 ^ k / 5 ^ k`, moving factors of ten out of the exponent while the mantissa has
room and dropping factors of five after that. Fails where the exponent is sure to stay too large. -/
def multiplyTwos : Nat → Exponential → Option Exponential
  | 0, x => some x
  | k + 1, x =>
    if x.mantissa < Nat.pow 2 95 then multiplyTwos k ⟨x.mantissa * 2, x.exponent - 1⟩
    else if 2 * x.exponent > k + 1 then none
    else multiplyTwos k ⟨x.mantissa / 5, x.exponent⟩

/-- Multiplies the mantissa by `10 ^ k` if there is room. -/
def multiplyTens : Nat → Nat → Option Nat
  | 0, m => some m
  | k + 1, m => if m * 10 < mantissaBound then multiplyTens k (m * 10) else none

/-- Drops the last digit, rounding halves up. -/
def dropDigit (m : Nat) : Nat := m / 10 + if m % 10 < 5 then 0 else 1

/-- Drops `k` digits one by one; a mantissa that runs out of digits is zero with no places. -/
def dropDigits : Nat → Nat → Nat × Nat
  | 0, m => (m, maxScale)
  | k + 1, m => if m / 10 = 0 then (0, 0) else dropDigits k (dropDigit m)

/-- Drops places while the mantissa has more bits than a number holds exactly in decimal. -/
def dropExcess : Nat → Nat → Nat × Nat
  | 0, m => (m, 0)
  | scale + 1, m => if Nat.pow 2 52 ≤ m then dropExcess scale (dropDigit m) else (m, scale + 1)

/-- Drops zeros at the end of the fraction. -/
def dropZeros : Nat → Nat → Nat × Nat
  | 0, m => (m, 0)
  | scale + 1, m => if m % 10 = 0 then dropZeros scale (m / 10) else (m, scale + 1)

/-- The mantissa and scale of an exponential. -/
def Exponential.fit? (x : Exponential) : Option (Nat × Nat) :=
  if 0 < x.exponent then (multiplyTens x.exponent.toNat x.mantissa).map fun m => (m, 0)
  else
    let scale := (-x.exponent).toNat
    let (m, scale) :=
      if maxScale < scale then dropDigits (scale - maxScale) x.mantissa else (x.mantissa, scale)
    let (m, scale) := dropExcess scale m
    dropZeros scale m

/-- The scaled decimal of a number; none where the number is too large or not finite. -/
def ofFloat? (x : Float) : Option Scaled :=
  match x.toModel.unpack with
  | .zero _ => some ⟨.positive, 0, 0⟩
  | .finite sign m e _ => do
    let x ← if e < 0 then some (divideTwos (-e).toNat ⟨m, e⟩) else multiplyTwos e.toNat ⟨m, e⟩
    let (mantissa, scale) ← x.fit?
    some ⟨sign, mantissa, scale⟩
  | _ => none

/-- How a decimal is cut at a place. -/
inductive Strategy
  | nearest
  | towardZero
  | awayFromZero
deriving DecidableEq

/-- The quotient of a mantissa by `unit`, rounded as the strategy says; halves go away from zero. -/
def Strategy.quotient : Strategy → Nat → Nat → Nat
  | .nearest, m, unit => quotientNearest m unit
  | .towardZero, m, unit => m / unit
  | .awayFromZero, m, unit => quotientUp m unit

/-- Rounds to `places` decimal places; a decimal with no more places is left as it is. -/
def roundTo (strategy : Strategy) (places : Nat) (d : Scaled) : Scaled :=
  if d.scale ≤ places then d
  else
    { d with
      mantissa := strategy.quotient d.mantissa (Nat.pow 10 (d.scale - places))
      scale := places }

/-- Divides by `10 ^ k`, rounding at the last place there is; halves go to the even neighbour. -/
def shiftRight (d : Scaled) (k : Nat) : Scaled :=
  let scale := d.scale + k
  if scale ≤ maxScale then { d with scale }
  else
    let unit := Nat.pow 10 (scale - maxScale)
    let low := d.mantissa / unit
    let rest := 2 * (d.mantissa % unit)
    let up := unit < rest || (rest == unit && low % 2 == 1)
    { d with mantissa := if up then low + 1 else low, scale := maxScale }

/-- Multiplies a whole decimal by `10 ^ k` if there is room. -/
def shiftLeft? (d : Scaled) (k : Nat) : Option Scaled :=
  let mantissa := d.mantissa * Nat.pow 10 k
  if mantissa < mantissaBound then some { d with mantissa } else none

/-- The number of a scaled decimal. The whole part and the fraction are converted apart, and their
sum is rounded to the places of the decimal. -/
def toFloat (d : Scaled) : Float :=
  if d.scale = 0 then
    if d.mantissa = 0 then 0 else signed d.sign (Float.ofNat d.mantissa)
  else
    let unit := Nat.pow 10 d.scale
    let whole := Float.ofNat (d.mantissa / unit)
    if d.mantissa % unit = 0 then signed d.sign whole
    else
      let fraction := Float.ofNat (d.mantissa % unit) / Float.ofNat unit
      let power := powerOfTen d.scale
      signed d.sign (round ((whole + fraction) * power) / power)

end Scaled

/-- Rounds a number beyond the range of scaled decimals at a place left of the point. -/
def roundHuge (strategy : Scaled.Strategy) (k : Nat) (x : Float) : Float :=
  let unit := powerOfTen k
  let quotient := x / unit
  let rounded :=
    match strategy with
    | .nearest => round quotient
    | .towardZero => truncate quotient
    | .awayFromZero => expand quotient
  rounded * unit

/-- The number of digits of a rounding: a whole number from -400 to 400. -/
def clampDigits (digits : Float) : Int :=
  let n := min (toNat64 digits.abs) 400
  if digits < 0 then -n else n

/-- Rounds a number to a number of decimal places, which is negative left of the point. No number
results where the rounded decimal has no room. -/
def roundDecimal (strategy : Scaled.Strategy) (x : Float) (digits : Float) : Option Float :=
  match Scaled.ofFloat? x, clampDigits digits with
  | none, .ofNat _ => some x
  | none, .negSucc k => some (roundHuge strategy (k + 1) x)
  | some d, .ofNat n => some (d.roundTo strategy (min n Scaled.maxScale)).toFloat
  | some d, .negSucc k =>
    if Scaled.maxScale < k + 1 then
      if strategy = .awayFromZero && x != 0 then none else some 0
    else (((d.shiftRight (k + 1)).roundTo strategy 0).shiftLeft? (k + 1)).map Scaled.toFloat

end Spreadsheet.Number
