import Spreadsheet.Function.Basic
import Spreadsheet.Number.Complement
import Spreadsheet.Number.Integral
import Spreadsheet.Number.Roman

/-!
Functions between numbers and numerals: Roman ones, those of any radix, and the binary, octal and
hexadecimal ones in two's complement.
-/

namespace Spreadsheet.Numeral

open Number (Radix truncate within toNat64)

/-- The number of a Roman numeral in any letter case. -/
def arabic (args : List Argument) : Result Float := do
  let text ← textAt args 0
  let n ← orError .value (Number.ofRoman? (Unicode.upper text.toList))
  return Float.ofNat n.toNat

def maxLength : Float := 255

/-- Cuts off the fraction of an argument and asks that it lie between two bounds. -/
def wholeBetween (low high : Float) (x : Float) : Result Float :=
  if within low high (truncate x) then .ok (truncate x) else .error .num

/-- The numeral of a number in a radix, with at least so many digits. -/
def base (args : List Argument) : Result Value := do
  let x ← wholeBetween 0 9007199254740992 (← numberAt args 0)
  let radix ← wholeBetween 2 36 (← numberAt args 1)
  let length ← wholeBetween 0 maxLength (← numberAtOr args 2 0)
  return .text <| String.ofList <|
    Number.padZeros (toNat64 length) (Number.toRadix (toNat64 radix) (toNat64 x))

/-- The number of a numeral in a radix, rounded after each digit. -/
def decimal (args : List Argument) : Result Float := do
  let digits := Unicode.trim (← textAt args 0).toList
  let radix ← wholeBetween 2 36 (← numberAt args 1)
  if digits.isEmpty then throw .num
  digits.foldlM (fun acc c => do
    let d ← orError .num (Number.digitIn? (toNat64 radix) c)
    return acc * radix + Float.ofNat d) 0

/-! ### Two's complement -/

/-- The digits of an argument; a number gives its decimal digits. -/
def digitsOf (v : Value) : Result String :=
  match v.scalar with
  | .boolean _ => .error .value
  | w => w.toText

/-- The signed number of the digits in the first argument. -/
def decode (radix : Radix) (args : List Argument) : Result Int := do
  orError .num (radix.decode? (← digitsOf (← valueAt args 0)).toList)

/-- The number of places in the second argument, if given. -/
def placesOf (args : List Argument) : Result (Option Float) :=
  match givenAt? args 1 with
  | some v => some <$> v.toNumber
  | none => .ok none

/-- The digits of a number, padded to `places` unless it is negative. -/
def encode (radix : Radix) (n : Int) (places : Option Float) : Result Value := do
  if !radix.holds n then throw .num
  let digits := radix.encode n
  let width ← match places with
    | some p =>
      if n < 0 then .ok 0
      else if within 0 10 (truncate p) && Float.ofNat digits.length ≤ truncate p then
        .ok (toNat64 p)
      else .error .num
    | none => .ok 0
  return .text (String.ofList (Number.padZeros width digits))

def toDecimal (radix : Radix) (args : List Argument) : Result Float := do
  return Float.ofInt (← decode radix args)

def convert (source target : Radix) (args : List Argument) : Result Value := do
  let n ← decode source args
  encode target n (← placesOf args)

def ofDecimal (radix : Radix) (args : List Argument) : Result Value := do
  let x := truncate (← numberAt args 0)
  let bound := Float.ofNat (radix.modulus / 2)
  if x < -bound || bound ≤ x then throw .num
  encode radix (Number.toInteger x) (← placesOf args)

def functions : List Function := [
  .ofNumbers "ARABIC" .math 1 (some 1) arabic,
  .ofValues "BASE" .math 2 (some 3) base,
  .ofNumbers "DECIMAL" .math 2 (some 2) decimal,
  .ofNumbers "BIN2DEC" .engineering 1 (some 1) (toDecimal .binary),
  .ofValues "BIN2HEX" .engineering 1 (some 2) (convert .binary .hexadecimal),
  .ofValues "BIN2OCT" .engineering 1 (some 2) (convert .binary .octal),
  .ofValues "DEC2BIN" .engineering 1 (some 2) (ofDecimal .binary),
  .ofValues "DEC2HEX" .engineering 1 (some 2) (ofDecimal .hexadecimal),
  .ofValues "DEC2OCT" .engineering 1 (some 2) (ofDecimal .octal),
  .ofValues "HEX2BIN" .engineering 1 (some 2) (convert .hexadecimal .binary),
  .ofNumbers "HEX2DEC" .engineering 1 (some 1) (toDecimal .hexadecimal),
  .ofValues "HEX2OCT" .engineering 1 (some 2) (convert .hexadecimal .octal),
  .ofValues "OCT2BIN" .engineering 1 (some 2) (convert .octal .binary),
  .ofNumbers "OCT2DEC" .engineering 1 (some 1) (toDecimal .octal),
  .ofValues "OCT2HEX" .engineering 1 (some 2) (convert .octal .hexadecimal)]

end Spreadsheet.Numeral
