import Spreadsheet.Number.Radix
import Spreadsheet.Unicode.Property

/-!
Signed numbers as ten digits in two's complement: `1111111111` is -1 in binary.
-/

namespace Spreadsheet.Number

inductive Radix
  | binary
  | octal
  | hexadecimal
deriving DecidableEq, Repr

namespace Radix

def base : Radix → Nat
  | binary => 2
  | octal => 8
  | hexadecimal => 16

/-- Ten digits hold the numbers below this. -/
def modulus (r : Radix) : Nat := Nat.pow r.base 10

/-- The signed numbers of ten digits. -/
def holds (r : Radix) (n : Int) : Bool := -(r.modulus / 2 : Int) ≤ n && n < r.modulus / 2

/-- Reads up to ten digits, with white space around them; blank text is zero. -/
def decode? (r : Radix) (text : List Char) : Option Int :=
  let digits := Unicode.trim text
  if 10 < digits.length then none
  else (ofRadix? r.base digits).map fun n => if n < r.modulus / 2 then (n : Int) else n - r.modulus

/-- The digits of a signed number; a negative one has ten. -/
def encode (r : Radix) (n : Int) : List Char := toRadix r.base (n % r.modulus).toNat

end Radix

/-- Puts zeros before digits that are fewer than `width`. -/
def padZeros (width : Nat) (digits : List Char) : List Char :=
  List.replicate (width - digits.length) '0' ++ digits

end Spreadsheet.Number
