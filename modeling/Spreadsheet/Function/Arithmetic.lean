import Spreadsheet.Function.Basic
import Spreadsheet.Number.Integral

/-!
Functions of arithmetic: sums and products, powers and logarithms, division.
-/

namespace Spreadsheet.Arithmetic

def abs (args : List Argument) : Result Float := do return (← numberAt args 0).abs

/-- 1, -1 or 0. -/
def sign (args : List Argument) : Result Float := do
  let x ← numberAt args 0
  return if 0 < x then 1 else if x < 0 then -1 else 0

/-- Rounds down. -/
def int (args : List Argument) : Result Float := do return Number.floor (← numberAt args 0)

/-- The remainder, which has the sign of the divisor. -/
def mod (args : List Argument) : Result Float := do
  let x ← numberAt args 0
  let d ← numberAt args 1
  if d == 0 then throw .div0
  return x - d * Number.floor (x / d)

def power (args : List Argument) : Result Float := do
  let x ← numberAt args 0
  let n ← numberAt args 1
  if x == 0 && n < 0 then throw .div0
  return x.pow n

def sqrt (args : List Argument) : Result Float := do
  let x ← numberAt args 0
  if x < 0 then throw .num
  return x.sqrt

def exp (args : List Argument) : Result Float := do return (← numberAt args 0).exp

/-- A logarithm, for numbers above zero. -/
def logarithm (f : Float → Float) (args : List Argument) : Result Float := do
  let x ← numberAt args 0
  if x ≤ 0 then throw .num
  return f x

/-- The logarithm to a base, 10 if none is given. -/
def log (args : List Argument) : Result Float := do
  let x ← numberAt args 0
  let base ← numberAtOr args 1 10
  if x ≤ 0 || base ≤ 0 then throw .num
  if base == 1 then throw .div0
  return x.log / base.log

def sum (args : List Argument) : Result Float := do return Number.sum (← aggregatedNumbers args)

/-- The product, 0 if there are no numbers. -/
def product (args : List Argument) : Result Float := do
  let xs ← aggregatedNumbers args
  return if xs.isEmpty then 0 else Number.product xs

/-! ### Divisors and multiples -/

/-- The largest operand of a common divisor or multiple. -/
def maxOperand : Float := 9007199254740990

/-- A whole operand, its fraction cut off; blanks and empty text read as `blank`. -/
def wholeOperand (blank : Nat) (v : Value) : Result Nat := do
  let whole (x : Float) : Result Nat :=
    if Number.within 0 maxOperand x then .ok (Number.toNat64 x) else .error .num
  match v with
  | .number x => whole x
  | .empty => .ok blank
  | .text s => if s.isEmpty then .ok blank else whole (← orError .value (Number.read? s))
  | .error e => .error e
  | _ => .error .value

/-- All whole operands, arrays expanded. An empty slot reads as `blank`. -/
def wholeOperands (blank : Nat) (args : List Argument) : Result (List Nat) := do
  let groups ← args.mapM fun a =>
    if a.omitted then .ok [blank] else a.value.elements.mapM (wholeOperand blank)
  return groups.flatten

def gcd (args : List Argument) : Result Float := do
  return Float.ofNat ((← wholeOperands 0 args).foldl Nat.gcd 0)

/-- Takes one more operand into a common multiple. -/
def lcmStep (acc : Float) (n : Nat) : Float :=
  let m := Number.toNat64 acc
  Float.ofNat (m / m.gcd n) * Float.ofNat n

def lcm (args : List Argument) : Result Float := do
  let operands ← wholeOperands 1 args
  return if operands.contains 0 then 0 else operands.foldl lcmStep 1

def functions : List Function := [
  .ofNumbers "ABS" .math 1 (some 1) abs,
  .ofNumbers "EXP" .math 1 (some 1) exp,
  .ofNumbers "GCD" .math 1 none gcd,
  .ofNumbers "INT" .math 1 (some 1) int,
  .ofNumbers "LCM" .math 1 none lcm,
  .ofNumbers "LN" .math 1 (some 1) (logarithm Float.log),
  .ofNumbers "LOG" .math 1 (some 2) log,
  .ofNumbers "LOG10" .math 1 (some 1) (logarithm Float.log10),
  .ofNumbers "MOD" .math 2 (some 2) mod,
  .ofNumbers "PI" .math 0 (some 0) fun _ => .ok Number.pi,
  .ofNumbers "POWER" .math 2 (some 2) power,
  .ofNumbers "PRODUCT" .math 1 none product,
  .ofNumbers "SIGN" .math 1 (some 1) sign,
  .ofNumbers "SQRT" .math 1 (some 1) sqrt,
  .ofNumbers "SUM" .math 1 none sum]

end Spreadsheet.Arithmetic
