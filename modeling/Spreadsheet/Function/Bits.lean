import Spreadsheet.Function.Basic
import Spreadsheet.Number.Integral

/-!
Functions of the bits of whole numbers below `2 ^ 48`.
-/

namespace Spreadsheet.Bits

def maxOperand : Float := 281474976710655

def operand (v : Value) : Result Nat := do
  let x ← v.toNumber
  if Number.isWhole x && Number.within 0 maxOperand x then return Number.toNat64 x else throw .num

def bitwise (f : Nat → Nat → Nat) (args : List Argument) : Result Float := do
  let m ← operand (← valueAt args 0)
  let n ← operand (← valueAt args 1)
  return Float.ofNat (f m n)

def maxShift : Float := 53

/-- Moves bits to the left, or to the right by a negative shift. -/
def shifted (v : Value) (shift : Float) : Result Float := do
  if maxShift < (Number.truncate shift).abs then throw .num
  let x := Float.ofNat (← operand v)
  if shift.isNaN then throw .num
  let power := Float.ofNat (Nat.pow 2 (Number.toNat64 shift.abs))
  let result := if 0 ≤ Number.truncate shift then x * power else Number.truncate (x / power)
  if maxOperand < result then throw .num
  return result

def shiftLeft (args : List Argument) : Result Float := do
  shifted (← valueAt args 0) (← numberAt args 1)

def shiftRight (args : List Argument) : Result Float := do
  shifted (← valueAt args 0) (-(← numberAt args 1))

def functions : List Function := [
  .ofNumbers "BITAND" .engineering 2 (some 2) (bitwise Nat.land),
  .ofNumbers "BITOR" .engineering 2 (some 2) (bitwise Nat.lor),
  .ofNumbers "BITXOR" .engineering 2 (some 2) (bitwise Nat.xor),
  .ofNumbers "BITLSHIFT" .engineering 2 (some 2) shiftLeft,
  .ofNumbers "BITRSHIFT" .engineering 2 (some 2) shiftRight]

end Spreadsheet.Bits
