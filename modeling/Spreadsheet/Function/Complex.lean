import Spreadsheet.Function.Basic
import Spreadsheet.Number.ComplexText

/-!
Functions of complex numbers, which are texts in a sheet.
-/

namespace Spreadsheet.ComplexNumber

open Number (WrittenComplex)

def fault : Number.ComplexFault → ErrorValue
  | .noNumber => .value
  | .badParts => .num

def readText (s : String) : Result WrittenComplex := (WrittenComplex.read s).mapError fault

/-- A complex number from a value other than an array; `onBoolean` is the error for booleans. -/
def ofElement (onBoolean : ErrorValue) : Value → Result WrittenComplex
  | .number x => .ok (.ofReal x)
  | .empty => .ok (.ofReal 0)
  | .text s => readText s
  | .boolean _ => .error onBoolean
  | .error e => .error e
  | .array _ | .reference _ => .error .value

def complexAt (args : List Argument) (i : Nat) : Result WrittenComplex := do
  ofElement .num (← valueAt args i).scalar

/-- Zero is a number, and other finite complex numbers are text. -/
def toValue (z : Number.Complex) (unit : Char) : Result Value :=
  if z.re.isFinite && z.im.isFinite then
    .ok (if z.re == 0 && z.im == 0 then .number 0 else .text (z.write unit))
  else .error .num

def strictAt (args : List Argument) (i : Nat) : Result Float := do
  (← valueAt args i).toNumberStrict

def complex (args : List Argument) : Result Value := do
  let re ← strictAt args 0
  let im ← strictAt args 1
  let unit ← match givenAt? args 2 with
    | none => .ok 'i'
    | some v =>
      match ← v.toText with
      | "i" => .ok 'i'
      | "j" => .ok 'j'
      | _ => .error .value
  toValue ⟨re, im⟩ unit

def unary (f : Number.Complex → Number.Complex) (args : List Argument) : Result Value := do
  let z ← complexAt args 0
  toValue (f z.value) z.unit

def part (f : Number.Complex → Float) (args : List Argument) : Result Float := do
  return f (← complexAt args 0).value

def isZero (z : Number.Complex) : Bool := z.re == 0 && z.im == 0

def argument (args : List Argument) : Result Float := do
  let z := (← complexAt args 0).value
  if isZero z then throw .div0
  return z.argument

def power (args : List Argument) : Result Value := do
  let z ← complexAt args 0
  let n ← strictAt args 1
  toValue (z.value.power n) z.unit

/-- The quotient is written with `j` if either operand is. -/
def quotient (args : List Argument) : Result Value := do
  let a ← complexAt args 0
  let b ← complexAt args 1
  if isZero b.value then throw .num
  toValue (a.value / b.value) (if a.unit? == some 'j' || b.unit? == some 'j' then 'j' else 'i')

/-- The unit that all numbers with a unit share, `i` if there are none. -/
def commonUnit (mismatch : ErrorValue) (zs : List WrittenComplex) : Result Char :=
  match zs.filterMap WrittenComplex.unit? with
  | [] => .ok 'i'
  | unit :: rest => if rest.all (· == unit) then .ok unit else .error mismatch

def difference (args : List Argument) : Result Value := do
  let a ← complexAt args 0
  let b ← complexAt args 1
  let unit ← commonUnit .num [a, b]
  toValue (a.value - b.value) unit

/-- Joins all complex numbers in the arguments, arrays expanded, from left to right. -/
def accumulate (start : Number.Complex) (f : Number.Complex → Number.Complex → Number.Complex)
    (args : List Argument) : Result Value := do
  let zs ← (expandedValues args).mapM fun (v, _) => ofElement .value v
  let unit ← commonUnit .value zs
  toValue ((zs.map WrittenComplex.value).foldl f start) unit

def ln10 : Float := 2.302585092994045684

def ln2 : Float := 0.693147180559945309

def functions : List Function := [
  .ofValues "COMPLEX" .engineering 2 (some 3) complex,
  .ofNumbers "IMABS" .engineering 1 (some 1) (part (·.norm)),
  .ofNumbers "IMAGINARY" .engineering 1 (some 1) (part (·.im)),
  .ofNumbers "IMARGUMENT" .engineering 1 (some 1) argument,
  .ofValues "IMCONJUGATE" .engineering 1 (some 1) (unary .conjugate),
  .ofValues "IMCOS" .engineering 1 (some 1) (unary .cos),
  .ofValues "IMCOSH" .engineering 1 (some 1) (unary .cosh),
  .ofValues "IMCOT" .engineering 1 (some 1) (unary fun z => z.cos / z.sin),
  .ofValues "IMCSC" .engineering 1 (some 1) (unary fun z => z.sin.inverse),
  .ofValues "IMCSCH" .engineering 1 (some 1) (unary fun z => z.sinh.inverse),
  .ofValues "IMDIV" .engineering 2 (some 2) quotient,
  .ofValues "IMEXP" .engineering 1 (some 1) (unary .exp),
  .ofValues "IMLN" .engineering 1 (some 1) (unary .log),
  .ofValues "IMLOG10" .engineering 1 (some 1) (unary fun z => z.log.scaleDown ln10),
  .ofValues "IMLOG2" .engineering 1 (some 1) (unary fun z => z.log.scaleDown ln2),
  .ofValues "IMPOWER" .engineering 2 (some 2) power,
  .ofValues "IMPRODUCT" .engineering 1 none (accumulate ⟨1, 0⟩ (· * ·)),
  .ofNumbers "IMREAL" .engineering 1 (some 1) (part (·.re)),
  .ofValues "IMSEC" .engineering 1 (some 1) (unary fun z => z.cos.inverse),
  .ofValues "IMSECH" .engineering 1 (some 1) (unary fun z => z.cosh.inverse),
  .ofValues "IMSIN" .engineering 1 (some 1) (unary .sin),
  .ofValues "IMSINH" .engineering 1 (some 1) (unary .sinh),
  .ofValues "IMSQRT" .engineering 1 (some 1) (unary .sqrt),
  .ofValues "IMSUB" .engineering 2 (some 2) difference,
  .ofValues "IMSUM" .engineering 1 none (accumulate ⟨0, 0⟩ (· + ·)),
  .ofValues "IMTAN" .engineering 1 (some 1) (unary .tan)]

end Spreadsheet.ComplexNumber
