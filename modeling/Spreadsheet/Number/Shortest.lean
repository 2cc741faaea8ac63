/-!
Decimal digits of a number: the fewest that read back as the number, and a given number of them.
Both work on the exact value of the number as a quotient of natural numbers.
-/

namespace Spreadsheet.Number

/-- The number `digits * 10 ^ exponent`. -/
structure Decimal where
  digits : Nat
  exponent : Int

/-- Ten to the power `n` as a quotient. -/
def tenPower (n : Int) : Nat × Nat := (Nat.pow 10 n.toNat, Nat.pow 10 (-n).toNat)

/-- The number of decimal digits of a natural number, one for zero. -/
def digitCount (n : Nat) : Nat := (Nat.toDigits 10 n).length

/-- The exponent of the leading decimal digit of a positive quotient. -/
def leadingExponent (num den : Nat) : Int :=
  if den ≤ num then digitCount (num / den) - 1
  else -(digitCount ((den + num - 1) / num - 1) : Int)

/-- A positive number `m * 2 ^ e` with the ends of the interval of values that round to it, all over
the same denominator. -/
structure Rounding where
  value : Nat
  low : Nat
  high : Nat
  den : Nat
  /-- The ends themselves round to the number. -/
  closed : Bool

/-- The gap below a power of two is half the gap above it, except at the least exponent. -/
def Rounding.of (m : Nat) (e : Int) : Rounding :=
  let scale := Nat.pow 2 (e - 2).toNat
  let narrow := m == Nat.pow 2 52 && -1074 < e
  { value := 4 * m * scale
    low := (4 * m - if narrow then 1 else 2) * scale
    high := (4 * m + 2) * scale
    den := Nat.pow 2 (2 - e).toNat
    closed := m % 2 == 0 }

/-- Whether a decimal lies in the interval. -/
def Rounding.holds (r : Rounding) (d : Decimal) : Bool :=
  let (up, down) := tenPower d.exponent
  let point := d.digits * up * r.den
  if r.closed then r.low * down ≤ point && point ≤ r.high * down
  else r.low * down < point && point < r.high * down

/-- Which of two neighbours at the same distance is taken: the larger one, or the one with the even
last digit. -/
inductive Tie
  | larger
  | even
deriving DecidableEq, Repr

/-- Whether the smaller neighbour is taken, given its digits. -/
def Tie.takesSmaller (tie : Tie) (digits : Nat) : Bool := tie == .even && digits % 2 == 0

/-- The decimal of `n` digits in the interval that is nearest to the value. -/
def Rounding.nearest? (tie : Tie) (r : Rounding) (n : Nat) : Option Decimal :=
  let exponent := leadingExponent r.value r.den + 1 - n
  let (up, down) := tenPower exponent
  let below : Decimal := ⟨r.value * down / (r.den * up), exponent⟩
  let above : Decimal := ⟨below.digits + 1, exponent⟩
  match r.holds below, r.holds above with
  | true, true =>
    let twice := 2 * r.value * down
    let sum := (below.digits + above.digits) * up * r.den
    if twice < sum ∨ (twice = sum ∧ tie.takesSmaller below.digits) then below else above
  | true, false => below
  | false, true => above
  | false, false => none

/-- The shortest decimal that rounds to the positive number `m * 2 ^ e`. Seventeen digits always
suffice. -/
def shortest (tie : Tie) (m : Nat) (e : Int) : Decimal :=
  ((List.range 17).findSome? fun i => (Rounding.of m e).nearest? tie (i + 1)).getD ⟨m, e⟩

/-- A positive quotient to `n` significant digits, halves to the even neighbour. -/
def significant (n num den : Nat) : Decimal :=
  let exponent := leadingExponent num den + 1 - n
  let (up, down) := tenPower exponent
  let low := num * down / (den * up)
  let rest := num * down % (den * up)
  let roundUp := den * up < 2 * rest || (2 * rest == den * up && low % 2 == 1)
  let digits := if roundUp then low + 1 else low
  if digits == Nat.pow 10 n then ⟨Nat.pow 10 (n - 1), exponent + 1⟩ else ⟨digits, exponent⟩

end Spreadsheet.Number
