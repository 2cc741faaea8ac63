/-!
Digits in a radix from 2 to 36.
-/

namespace Spreadsheet.Number

/-- The digit with a value below 36, letters in upper case. -/
def digitChar (d : Nat) : Char :=
  if d < 10 then Char.ofNat ('0'.toNat + d) else Char.ofNat ('A'.toNat + (d - 10))

/-- The value of a digit or ASCII letter of either case. -/
def digitValue? (c : Char) : Option Nat :=
  if c.isDigit then some (c.toNat - '0'.toNat)
  else if c.isAlpha then some (c.toLower.toNat - 'a'.toNat + 10)
  else none

/-- The value of a digit of the radix. -/
def digitIn? (radix : Nat) (c : Char) : Option Nat := (digitValue? c).filter (· < radix)

/-- The digits of `n` in the radix, without leading zeros; `0` for zero. -/
def toRadix (radix n : Nat) : List Char :=
  if _h : n < radix ∨ radix < 2 then [digitChar n]
  else toRadix radix (n / radix) ++ [digitChar (n % radix)]
termination_by n
decreasing_by exact Nat.div_lt_self (by omega) (by omega)

/-- The number that digits of the radix denote. -/
def ofRadix? (radix : Nat) (cs : List Char) : Option Nat :=
  cs.foldlM (fun n c => (digitIn? radix c).map (radix * n + ·)) 0

end Spreadsheet.Number
