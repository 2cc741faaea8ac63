import Spreadsheet.Range
import Spreadsheet.Unicode.Letter

/-!
References to cells and ranges, with an optional sheet, and unions of references.
-/

namespace Spreadsheet

structure CellRef where
  sheet : Option String
  address : Address
deriving DecidableEq

structure RangeRef where
  sheet : Option String
  range : Range
deriving DecidableEq

inductive Reference
  | cell (ref : CellRef)
  | range (ref : RangeRef)
  | union (parts : List Reference)

/-- A sheet name that needs no quotes: letters, numerals and underscores, no ASCII digit first. -/
def isPlainSheet (name : List Char) : Bool :=
  match name with
  | [] => false
  | c :: _ => !c.isDigit && name.all fun c => Unicode.isAlphanumeric c || c == '_'

/-- A sheet name before a reference, in quotes unless it is plain. -/
def writeSheet : Option String → List Char
  | none => []
  | some name =>
    if isPlainSheet name.toList then name.toList ++ ['!']
    else
      let inner := name.toList.flatMap fun c => if c == '\x27' then ['\x27', '\x27'] else [c]
      '\x27' :: inner ++ ['\x27', '!']

def CellRef.write (r : CellRef) : List Char := writeSheet r.sheet ++ r.address.write

/-- Whole columns and whole rows are written without the axis that they span. -/
def RangeRef.write (r : RangeRef) : List Char :=
  let a := r.range.topLeft
  let b := r.range.bottomRight
  writeSheet r.sheet ++
    if a.row = 1 ∧ b.row = maxRow then
      Address.dollar a.colAbs ++ columnLetters a.col ++ ':' ::
        Address.dollar b.colAbs ++ columnLetters b.col
    else if a.col = 1 ∧ b.col = maxCol then
      Address.dollar a.rowAbs ++ Nat.toDigits 10 a.row ++ ':' ::
        Address.dollar b.rowAbs ++ Nat.toDigits 10 b.row
    else a.write ++ ':' :: b.write

namespace Reference

mutual

def write : Reference → List Char
  | .cell r => r.write
  | .range r => r.write
  | .union parts => '(' :: writeParts parts ++ [')']

def writeParts : List Reference → List Char
  | [] => []
  | [part] => part.write
  | part :: rest => part.write ++ ',' :: writeParts rest

end

def toText (r : Reference) : String := String.ofList r.write

/-- The sheet named by the reference; a union gives that of its first part. -/
def sheet? : Reference → Option String
  | .cell r => r.sheet
  | .range r => r.sheet
  | .union [] => none
  | .union (part :: _) => part.sheet?

/-- The area of a cell or range. -/
def area? : Reference → Option Range
  | .cell r => some (.single r.address)
  | .range r => some r.range
  | .union _ => none

end Reference

end Spreadsheet
