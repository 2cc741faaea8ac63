import Spreadsheet.Number.Integral

/-!
Rounding to a multiple of a number, the significance. The sign of the significance decides which way
negative numbers go.
-/

namespace Spreadsheet.Number

/-- Numbers from here on are not rounded. -/
def largestRounded : Float := 9.99e307

/-- How often the significance fits into a number, whatever their signs. -/
def timesIn (x significance : Float) : Float := floor (x.abs / significance.abs)

/-- The multiple at or above a number. A negative number goes away from zero if the significance is
negative too. -/
def ceilingTo (x significance : Float) : Option Float :=
  if largestRounded ≤ x then none
  else if significance == 0 then some 0
  else if isWhole (x / significance) then some x
  else if x < 0 then
    if significance < 0 then some (-significance.abs * (timesIn x significance + 1))
    else some (-significance.abs * timesIn x significance)
  else some ((timesIn x significance + 1) * significance.abs)

/-- The multiple at or below a number. A negative number goes toward zero if the significance is
negative too; a positive number has no multiple of a negative significance. -/
def floorTo (x significance : Float) : Option Float :=
  if largestRounded ≤ x then none
  else if significance == 0 then some 0
  else if 0 < x && significance < 0 then none
  else if isWhole (x / significance) then some x
  else if x < 0 then
    if significance < 0 then some (-significance.abs * timesIn x significance)
    else some (-significance.abs * (timesIn x significance + 1))
  else some (timesIn x significance * significance.abs)

end Spreadsheet.Number
