import Spreadsheet.Function.Basic
import Spreadsheet.Number.Integral

/-!
Trigonometric functions; angles are in radians.
-/

namespace Spreadsheet.Trigonometry

def unary (f : Float → Float) (args : List Argument) : Result Float := do
  return f (← numberAt args 0)

/-- The inverse of a function with values from -1 to 1. -/
def inverse (f : Float → Float) (args : List Argument) : Result Float := do
  let x ← numberAt args 0
  if !Number.within (-1) 1 x then throw .num
  return f x

/-- The angle of a point; the horizontal coordinate comes first. -/
def atan2 (args : List Argument) : Result Float := do
  let x ← numberAt args 0
  let y ← numberAt args 1
  if x == 0 && y == 0 then throw .div0
  return y.atan2 x

def functions : List Function := [
  .ofNumbers "SIN" .trig 1 (some 1) (unary Float.sin),
  .ofNumbers "COS" .trig 1 (some 1) (unary Float.cos),
  .ofNumbers "TAN" .trig 1 (some 1) (unary Float.tan),
  .ofNumbers "ASIN" .trig 1 (some 1) (inverse Float.asin),
  .ofNumbers "ACOS" .trig 1 (some 1) (inverse Float.acos),
  .ofNumbers "ATAN" .trig 1 (some 1) (unary Float.atan),
  .ofNumbers "ATAN2" .trig 2 (some 2) atan2,
  .ofNumbers "SINH" .trig 1 (some 1) (unary Float.sinh),
  .ofNumbers "COSH" .trig 1 (some 1) (unary Float.cosh),
  .ofNumbers "TANH" .trig 1 (some 1) (unary Float.tanh),
  .ofNumbers "DEGREES" .math 1 (some 1) (unary (· * (180 / Number.pi))),
  .ofNumbers "RADIANS" .math 1 (some 1) (unary (· * (Number.pi / 180)))]

end Spreadsheet.Trigonometry
