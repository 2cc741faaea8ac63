/-!
Sets of characters given by the code points at which membership changes, and the white space set.
-/

namespace Spreadsheet.Unicode

/-- Whether a code point belongs to the set whose membership changes at each listed code point.
The list is increasing and the set does not hold 0. -/
def member : List Nat → Nat → Bool
  | [], _ => false
  | boundary :: rest, n => if boundary ≤ n then !member rest n else false

def whiteSpaceBoundaries : List Nat := [
  9, 14, 32, 33, 133, 134, 160, 161, 5760, 5761, 8192, 8203, 8232, 8234, 8239, 8240, 8287, 8288,
  12288, 12289]

/-- The property White_Space. -/
def isWhiteSpace (c : Char) : Bool := member whiteSpaceBoundaries c.toNat

/-- Removes white space from both ends. -/
def trim (cs : List Char) : List Char :=
  ((cs.dropWhile isWhiteSpace).reverse.dropWhile isWhiteSpace).reverse

end Spreadsheet.Unicode
