import Spreadsheet.Number.Integral

/-!
Factorials and binomial coefficients.
-/

namespace Spreadsheet.Number

/-- `n!`, rounded after each factor. -/
def factorial : Nat → Float
  | 0 => 1
  | n + 1 => factorial n * Float.ofNat (n + 1)

/-- `n!!`, the product of every other number from `n` down, rounded after each factor. -/
def doubleFactorial : Nat → Float
  | 0 | 1 => 1
  | n + 2 => doubleFactorial n * Float.ofNat (n + 2)

/-- The largest factorial that is finite. -/
def maxFactorial : Nat := 170

/-- The largest double factorial that is finite. -/
def maxDoubleFactorial : Nat := 300

def factorial? (n : Nat) : Option Float := if n ≤ maxFactorial then some (factorial n) else none

def doubleFactorial? (n : Nat) : Option Float :=
  if n ≤ maxDoubleFactorial then some (doubleFactorial n) else none

/-- Multiplies `acc` by `(base + j) / j` for `k` numbers `j` from `i` on. A product that is no
longer finite stays as it is. -/
def binomialFrom (base : Float) : (k : Nat) → (i acc : Float) → Float
  | 0, _, acc => acc
  | k + 1, i, acc =>
    if acc.isFinite then binomialFrom base k (i + 1) (acc * (base + i) / i) else acc

/-- The number of ways to choose `k` of `n` things. -/
def binomial (n k : Float) : Float :=
  let k := smaller k (n - k)
  round (binomialFrom (n - k) (toNat64 k) 1 1)

end Spreadsheet.Number
