import Spreadsheet.Number.Integral

/-!
The error function and its complement, by rational approximations on the ranges up to 0.84375, 1.25,
1/0.35 and beyond.
-/

namespace Spreadsheet.Number

/-- The polynomial with the given coefficients, the constant one first. -/
def polynomial (coefficients : List Float) (x : Float) : Float :=
  match coefficients with
  | [] => 0
  | [c] => c
  | c :: rest => c + x * polynomial rest x

/-- The first 32 bits of the binary form without the sign, by which the ranges are told apart. -/
def magnitudeWord (x : Float) : Nat := (x.abs.toBits >>> 32).toNat

/-- The number with the low half of its binary form cleared. -/
def clearLow (x : Float) : Float := Float.ofBits (x.toBits >>> 32 <<< 32)

/-- The quotient by which `erf x` exceeds `x`, as a multiple of `x`, below 0.84375. -/
def erfSmall (x : Float) : Float :=
  let z := x * x
  let r := polynomial [1.28379167095512558561e-01, -3.25042107247001499370e-01,
    -2.84817495755985104766e-02, -5.77027029648944159157e-03, -2.37630166566501626084e-05] z
  let s := polynomial [1.0, 3.97917223959155352819e-01, 6.50222499887672944485e-02,
    5.08130628187576562776e-03, 1.32494738004321644526e-04, -3.96022827877536812320e-06] z
  r / s

/-- `erfc |x|` between 0.84375 and 1.25. -/
def erfcNearOne (x : Float) : Float :=
  let s := x.abs - 1
  let p := polynomial [-2.36211856075265944077e-03, 4.14856118683748331666e-01,
    -3.72207876035701323847e-01, 3.18346619901161753674e-01, -1.10894694282396677476e-01,
    3.54783043256182359371e-02, -2.16637559486879084300e-03] s
  let q := polynomial [1.0, 1.06420880400844228286e-01, 5.40397917702171048937e-01,
    7.18286544141962662868e-02, 1.26171219808761642112e-01, 1.36370839120290507362e-02,
    1.19844998467991074170e-02] s
  1 - 8.45062911510467529297e-01 - p / q

/-- `erfc |x|` from 0.84375 on. -/
def erfcTail (x : Float) : Float :=
  let word := magnitudeWord x
  if word < 0x3ff40000 then erfcNearOne x
  else
    let x := x.abs
    let s := 1 / (x * x)
    let quotient :=
      if word < 0x4006db6d then
        polynomial [-9.86494403484714822705e-03, -6.93858572707181764372e-01,
          -1.05586262253232909814e+01, -6.23753324503260060396e+01, -1.62396669462573470355e+02,
          -1.84605092906711035994e+02, -8.12874355063065934246e+01, -9.81432934416914548592e+00] s
        / polynomial [1.0, 1.96512716674392571292e+01, 1.37657754143519042600e+02,
          4.34565877475229228821e+02, 6.45387271733267880336e+02, 4.29008140027567833386e+02,
          1.08635005541779435134e+02, 6.57024977031928170135e+00, -6.04244152148580987438e-02] s
      else
        polynomial [-9.86494292470009928597e-03, -7.99283237680523006574e-01,
          -1.77579549177547519889e+01, -1.60636384855821916062e+02, -6.37566443368389627722e+02,
          -1.02509513161107724954e+03, -4.83519191608651397019e+02] s
        / polynomial [1.0, 3.03380607434824582924e+01, 3.25792512996573918826e+02,
          1.53672958608443695994e+03, 3.19985821950859553908e+03, 2.55305040643316442583e+03,
          4.74528541206955367215e+02, -2.24409524465858183362e+01] s
    let z := clearLow x
    (-z * z - 0.5625).exp * ((z - x) * (z + x) + quotient).exp / x

/-- The least positive number of full precision. -/
def tiny : Float := Float.ofBits 0x0010000000000000

def isNegative (x : Float) : Bool := x.toBits >>> 63 == 1

def erf (x : Float) : Float :=
  let word := magnitudeWord x
  if 0x7ff00000 ≤ word then (if isNegative x then -1 else 1) + 1 / x
  else if word < 0x3e300000 then 0.125 * (8 * x + 1.02703333676410069053e+00 * x)
  else if word < 0x3feb0000 then x + x * erfSmall x
  else
    let y := if word < 0x40180000 then 1 - erfcTail x else 1 - tiny
    if isNegative x then -y else y

def erfc (x : Float) : Float :=
  let word := magnitudeWord x
  if 0x7ff00000 ≤ word then (if isNegative x then 2 else 0) + 1 / x
  else if word < 0x3c700000 then 1 - x
  else if word < 0x3feb0000 then
    let y := erfSmall x
    if isNegative x || word < 0x3fd00000 then 1 - (x + x * y) else 0.5 - (x - 0.5 + x * y)
  else if word < 0x403c0000 then if isNegative x then 2 - erfcTail x else erfcTail x
  else if isNegative x then 2 - tiny else tiny * tiny

end Spreadsheet.Number
