import Spreadsheet.Address

/-!
Rectangular ranges of cells. A range is kept by its top left and bottom right corners, so that it
holds at least one cell.
-/

namespace Spreadsheet

structure Range where
  topLeft : Address
  bottomRight : Address
  row_le : topLeft.row ≤ bottomRight.row
  col_le : topLeft.col ≤ bottomRight.col
deriving DecidableEq

namespace Range

/-- The range between two opposite corners. Each coordinate keeps its own `$` flag. -/
def ofCorners (a b : Address) : Range :=
  let rowsInOrder := a.row ≤ b.row
  let colsInOrder := a.col ≤ b.col
  { topLeft :=
      { row := min a.row b.row
        col := min a.col b.col
        rowAbs := if rowsInOrder then a.rowAbs else b.rowAbs
        colAbs := if colsInOrder then a.colAbs else b.colAbs }
    bottomRight :=
      { row := max a.row b.row
        col := max a.col b.col
        rowAbs := if rowsInOrder then b.rowAbs else a.rowAbs
        colAbs := if colsInOrder then b.colAbs else a.colAbs }
    row_le := Nat.le_trans (Nat.min_le_left _ _) (Nat.le_max_left _ _)
    col_le := Nat.le_trans (Nat.min_le_left _ _) (Nat.le_max_left _ _) }

def single (a : Address) : Range := ⟨a, a, Nat.le_refl _, Nat.le_refl _⟩

/-- The range without `$` flags between two opposite corners. -/
def ofIndices (row col row' col' : Nat) : Range :=
  ofCorners (.relative row col) (.relative row' col')

/-- Whole columns. -/
def columns (first last : Nat) : Range := ofIndices 1 first maxRow last

/-- Whole rows. -/
def rows (first last : Nat) : Range := ofIndices first 1 last maxCol

/-- Reads a range from its corners around a colon, or from one address. -/
def parse (s : String) : Except AddressError Range :=
  let (left, right) := (Unicode.trim s.toList).span (· != ':')
  match right with
  | _ :: right => do
    let a ← Address.parse (String.ofList left)
    let b ← Address.parse (String.ofList right)
    return ofCorners a b
  | [] => single <$> Address.parse (String.ofList left)

def contains (r : Range) (a : Address) : Bool :=
  r.topLeft.row ≤ a.row && a.row ≤ r.bottomRight.row &&
    (r.topLeft.col ≤ a.col && a.col ≤ r.bottomRight.col)

def rowCount (r : Range) : Nat := r.bottomRight.row - r.topLeft.row + 1

def colCount (r : Range) : Nat := r.bottomRight.col - r.topLeft.col + 1

def cellCount (r : Range) : Nat := r.rowCount * r.colCount

def isSingleCell (r : Range) : Bool := r.topLeft.sameCell r.bottomRight

def overlaps (r s : Range) : Bool :=
  r.topLeft.row ≤ s.bottomRight.row && s.topLeft.row ≤ r.bottomRight.row &&
    (r.topLeft.col ≤ s.bottomRight.col && s.topLeft.col ≤ r.bottomRight.col)

/-- The shared cells. -/
def intersect? (r s : Range) : Option Range :=
  if r.overlaps s then
    some (ofIndices (max r.topLeft.row s.topLeft.row) (max r.topLeft.col s.topLeft.col)
      (min r.bottomRight.row s.bottomRight.row) (min r.bottomRight.col s.bottomRight.col))
  else none

/-- The smallest range that covers both. -/
def bounds (r s : Range) : Range :=
  ofIndices (min r.topLeft.row s.topLeft.row) (min r.topLeft.col s.topLeft.col)
    (max r.bottomRight.row s.bottomRight.row) (max r.bottomRight.col s.bottomRight.col)

def write (r : Range) : List Char :=
  if r.topLeft = r.bottomRight then r.topLeft.write
  else r.topLeft.write ++ ':' :: r.bottomRight.write

def toText (r : Range) : String := String.ofList r.write

end Range

end Spreadsheet
