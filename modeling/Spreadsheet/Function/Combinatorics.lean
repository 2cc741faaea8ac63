import Spreadsheet.Function.Basic
import Spreadsheet.Number.Combinatorics

/-!
Functions that count: factorials and combinations.
-/

namespace Spreadsheet.Combinatorics

open Number (truncate binomial)

def fact (args : List Argument) : Result Float := do
  let x ← numberAt args 0
  if !Number.within 0 (Float.ofNat Number.maxFactorial) x then throw .num
  orError .num (Number.factorial? (Number.toNat64 x))

/-- The double factorial; it is 1 for numbers between -1 and 0. -/
def factDouble (args : List Argument) : Result Float := do
  let x ← numberAt args 0
  if x < -1 then throw .num
  if x < 0 then return 1
  if Float.ofNat Number.maxDoubleFactorial < x then throw .num
  orError .num (Number.doubleFactorial? (Number.toNat64 x))

/-- Combinations without repetition. -/
def combin (args : List Argument) : Result Float := do
  let n := truncate (← numberAt args 0)
  let k := truncate (← numberAt args 1)
  if n < 0 || k < 0 || n < k then throw .num
  return binomial n k

/-- Combinations with repetition. -/
def combinA (args : List Argument) : Result Float := do
  let n := truncate (← numberAt args 0)
  let k := truncate (← numberAt args 1)
  if (n == 0 || n == 1) && k == 0 then return 1
  if n < 0 || k < 0 then throw .num
  let total := n + k - 1
  let chosen := n - 1
  if chosen < 0 || total < chosen then throw .num
  return binomial total chosen

def functions : List Function := [
  .ofNumbers "COMBIN" .math 2 (some 2) combin,
  .ofNumbers "COMBINA" .math 2 (some 2) combinA,
  .ofNumbers "FACT" .math 1 (some 1) fact,
  .ofNumbers "FACTDOUBLE" .math 1 (some 1) factDouble]

end Spreadsheet.Combinatorics
