import Spreadsheet.Function.Basic
import Spreadsheet.Number.Multiple
import Spreadsheet.Number.Scaled

/-!
Functions that round: to multiples of a number, and to decimal places.
-/

namespace Spreadsheet.Rounding

open Number (ceilingTo floorTo Scaled)

def ceiling (args : List Argument) : Result Float := do
  orError .num (ceilingTo (← numberAt args 0) (← numberAt args 1))

def floor (args : List Argument) : Result Float := do
  orError .num (floorTo (← numberAt args 0) (← numberAt args 1))

/-- The number, significance and mode of the rounding functions with a mode. The significance is 1
beside a positive number and -1 beside another, unless it is given. -/
def withMode (args : List Argument) : Result (Float × Float × Float) := do
  let x ← numberAt args 0
  if Number.largestRounded ≤ x then throw .num
  let significance ← numberAtOr args 1 (if 0 < x then 1 else -1)
  let mode ← numberAtOr args 2 0
  return (x, significance, mode)

/-- Beside a negative number a mode other than 0 moves the result by the significance. -/
def ceilingMath (args : List Argument) : Result Float := do
  let (x, significance, mode) ← withMode args
  let result ← orError .num (ceilingTo x significance)
  return if 0 ≤ x then result else result - (if mode != 0 then significance else 0)

def floorMath (args : List Argument) : Result Float := do
  let (x, significance, mode) ← withMode args
  if mode == 0 || 0 ≤ x then orError .num (floorTo x significance.abs)
  else return (← orError .num (floorTo x significance)) + significance

/-- Rounds to a multiple of the magnitude of the significance, 1 if none is given. -/
def precise (multiple : Float → Float → Option Float) (args : List Argument) : Result Float := do
  let x ← numberAt args 0
  let significance ← numberAtOr args 1 1
  orError .num (multiple x significance.abs)

/-- Rounds away from zero to an even number. -/
def even (args : List Argument) : Result Float := do
  orError .num (ceilingTo (← numberAt args 0) (-2))

/-- Rounds to a number of decimal places. -/
def places (strategy : Scaled.Strategy) (args : List Argument) : Result Float := do
  orError .num (Number.roundDecimal strategy (← numberAt args 0) (← numberAt args 1))

def functions : List Function := [
  .ofNumbers "CEILING" .math 2 (some 2) ceiling,
  .ofNumbers "CEILING.MATH" .math 1 (some 3) ceilingMath,
  .ofNumbers "CEILING.PRECISE" .math 1 (some 2) (precise ceilingTo),
  .ofNumbers "ISO.CEILING" .math 1 (some 2) (precise ceilingTo),
  .ofNumbers "EVEN" .math 1 (some 1) even,
  .ofNumbers "FLOOR" .math 2 (some 2) floor,
  .ofNumbers "FLOOR.MATH" .math 1 (some 3) floorMath,
  .ofNumbers "FLOOR.PRECISE" .math 1 (some 2) (precise floorTo),
  .ofNumbers "ROUND" .math 2 (some 2) (places .nearest),
  .ofNumbers "ROUNDDOWN" .math 2 (some 2) (places .towardZero),
  .ofNumbers "ROUNDUP" .math 2 (some 2) (places .awayFromZero)]

end Spreadsheet.Rounding
