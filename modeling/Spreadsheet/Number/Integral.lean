/-!
Exact operations on numbers: rounding to whole numbers, conversion to natural numbers, and powers by
repeated squaring. Each works on the sign, significand and exponent of the number.
-/

namespace Spreadsheet.Number

open Float.Model.UnpackedFloat (Sign)

def signed (sign : Sign) (x : Float) : Float :=
  match sign with
  | .positive => x
  | .negative => -x

/-- Rounds the magnitude of a number to a whole number. The rule sees the sign and the magnitude as
a quotient whose denominator is a power of two. Infinities and NaN are left as they are. -/
def toWhole (rule : Sign → Nat → Nat → Nat) (x : Float) : Float :=
  match x.toModel.unpack with
  | .finite sign m e _ =>
    if 0 ≤ e then x else signed sign (Float.ofNat (rule sign m (Nat.pow 2 (-e).toNat)))
  | _ => x

/-- The least whole number that is not below the quotient. -/
def quotientUp (n d : Nat) : Nat := (n + d - 1) / d

/-- The whole number nearest to the quotient, the larger of two. -/
def quotientNearest (n d : Nat) : Nat := (2 * n + d) / (2 * d)

/-- Rounds toward zero. -/
def truncate : Float → Float := toWhole fun _ n d => n / d

/-- Rounds away from zero. -/
def expand : Float → Float := toWhole fun _ n d => quotientUp n d

/-- Rounds to nearest, halves away from zero. -/
def round : Float → Float := toWhole fun _ n d => quotientNearest n d

/-- Rounds down. -/
def floor : Float → Float := toWhole fun
  | .positive, n, d => n / d
  | .negative, n, d => quotientUp n d

/-- Whether a number is finite and has no fraction. -/
def isWhole (x : Float) : Bool :=
  match x.toModel.unpack with
  | .zero _ => true
  | .finite _ m e _ => 0 ≤ e || m % Nat.pow 2 (-e).toNat == 0
  | _ => false

/-- Truncates to a natural number of 64 bits. Values outside are clamped and NaN is 0. -/
def toNat64 (x : Float) : Nat := x.toUInt64.toNat

/-- Truncates to an integer whose magnitude has 64 bits. -/
def toInteger (x : Float) : Int := if x < 0 then -(toNat64 x.abs : Int) else toNat64 x

/-- Whether a number lies between two bounds, which NaN never does. -/
def within (low high x : Float) : Bool := low ≤ x && x ≤ high

/-- Multiplies `acc` by the powers `base`, `base ^ 2`, `base ^ 4`, … that the bits of `n` select. -/
def squaringProduct (acc base : Float) (n : Nat) : Float :=
  let acc := if n % 2 = 1 then acc * base else acc
  if n / 2 = 0 then acc else squaringProduct acc (base * base) (n / 2)
termination_by n

/-- A power of ten by repeated squaring, which is exact up to `10 ^ 22`. -/
def powerOfTen (n : Nat) : Float := squaringProduct 1 10 n

def pi : Float := 3.14159265358979323846

/-- The larger of two numbers; NaN gives way. -/
def larger (a b : Float) : Float :=
  if a.isNaN then b else if b.isNaN then a else if a < b then b else a

/-- The smaller of two numbers; NaN gives way. -/
def smaller (a b : Float) : Float :=
  if a.isNaN then b else if b.isNaN then a else if b < a then b else a

/-- Adds the numbers from left to right. The sum of none is negative zero, which changes nothing
that is added to it. -/
def sum (xs : List Float) : Float := xs.foldl (· + ·) (-0.0)

def product (xs : List Float) : Float := xs.foldl (· * ·) 1.0

end Spreadsheet.Number
