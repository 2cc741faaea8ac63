import Spreadsheet.Number.Complex
import Spreadsheet.Number.Text

/-!
Complex numbers as text such as `3+4i`. The imaginary unit is `i` or `j`, and it comes last.
-/

namespace Spreadsheet.Number

/-- A complex number with the unit that it was written with. -/
structure WrittenComplex where
  value : Complex
  unit? : Option Char

/-- Why a text is no complex number. -/
inductive ComplexFault
  /-- It has no part that looks complex. -/
  | noNumber
  /-- It has a unit or a sign, but its parts are no numbers. -/
  | badParts
deriving DecidableEq, Repr

namespace WrittenComplex

def ofReal (x : Float) : WrittenComplex := ⟨.ofReal x, none⟩

/-- The unit, `i` if none was written. -/
def unit (z : WrittenComplex) : Char := z.unit?.getD 'i'

def isUnit (c : Char) : Bool := c == 'i' || c == 'j'

def isSign (c : Char) : Bool := c == '+' || c == '-'

/-- Splits a reversed text before the last sign that neither stands first nor belongs to an
exponent. `after` is what stands behind. -/
def splitReversed : List Char → (after : List Char) → Option (List Char × List Char)
  | c :: d :: rest, after =>
    if isSign c && !(d == 'e' || d == 'E') then some ((d :: rest).reverse, c :: after)
    else splitReversed (d :: rest) (c :: after)
  | _, _ => none

/-- The number that a lone sign or a sign at the end stands for. -/
def ofSign (c : Char) : Float := if c == '-' then -1 else 1

/-- Reads what stands before the unit. -/
def readParts? (cs : List Char) : Option Complex :=
  match cs.reverse with
  | [] => some ⟨0, 1⟩
  | c :: before =>
    if isSign c then
      if before.isEmpty then some ⟨0, ofSign c⟩
      else (readSigned? before.reverse).map fun re => ⟨re, ofSign c⟩
    else
      match readSigned? cs with
      | some im => some ⟨0, im⟩
      | none => do
        let (re, im) ← splitReversed cs.reverse []
        return ⟨← readSigned? re, ← readSigned? im⟩

/-- Reads a complex number, with white space around it; blank text is zero. -/
def read (s : String) : Except ComplexFault WrittenComplex :=
  let cs := Unicode.trim s.toList
  match cs.reverse with
  | [] => .ok (ofReal 0)
  | c :: before =>
    if isUnit c then
      if before.any isUnit then .error .badParts
      else
        match readParts? before.reverse with
        | some z => .ok ⟨z, some c⟩
        | none => .error .badParts
    else
      match readSigned? cs with
      | some x => .ok (ofReal x)
      | none => .error (if cs.any isSign then .badParts else .noNumber)

end WrittenComplex

namespace Complex

/-- The text of a factor of the unit; one is left out. -/
def coefficient (x : Float) : String := if x == 1 then "" else if x == -1 then "-" else format x

/-- The text of a complex number other than zero. A part that is zero is left out. -/
def write (z : Complex) (unit : Char) : String :=
  if z.im == 0 then format z.re
  else
    let imaginary := (coefficient z.im).push unit
    if z.re == 0 then imaginary
    else format z.re ++ (if 0 < z.im then "+" else "") ++ imaginary

end Complex

end Spreadsheet.Number
