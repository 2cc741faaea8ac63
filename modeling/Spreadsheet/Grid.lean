import Spreadsheet.Json.Basic
import Spreadsheet.Query

/-!
Grids of cells by sheet, read from JSON. References without a sheet read the sheet with the empty
name. Cells outside the data are blank.
-/

namespace Spreadsheet

structure Grid where
  sheets : List (String × List (List Value))

/-- Why a JSON value is no grid. Rows are numbered from 1. -/
inductive GridFault
  | notAnObject
  | sheetNotRows (sheet : String)
  | rowNotArray (row : Nat) (sheet : String)
  | cellNotScalar (row : Nat) (sheet : String) (cell : Json)

/-- What is wrong, from the whole to the part at fault. -/
def GridFault.messages : GridFault → List String
  | .notAnObject => ["expected an object mapping sheet names to rows"]
  | .sheetNotRows sheet => [s!"sheet '{sheet}' is not an array of rows"]
  | .rowNotArray row sheet => [s!"row {row} of sheet '{sheet}' is not an array"]
  | .cellNotScalar row sheet cell =>
    [s!"row {row} of sheet '{sheet}'", s!"cells must be scalars, got {cell.toText}"]

namespace Grid

/-- The cell that a JSON value writes down; text that spells an error is the error. -/
def cellOf? : Json → Option Value
  | .null => some .empty
  | .boolean b => some (.boolean b)
  | .number n => some (.number n.toFloat)
  | .text s =>
    match ErrorValue.ofText? s with
    | some e => some (.error e)
    | none => some (.text s)
  | .array _ | .object _ => none

def rowOf (sheet : String) (row : Nat) : Json → Except GridFault (List Value)
  | .array cells => cells.mapM fun cell =>
    match cellOf? cell with
    | some v => .ok v
    | none => .error (.cellNotScalar row sheet cell)
  | _ => .error (.rowNotArray row sheet)

def rowsOf (sheet : String) : Json → Except GridFault (List (List Value))
  | .array rows => rows.zipIdx.mapM fun (row, i) => rowOf sheet (i + 1) row
  | _ => .error (.sheetNotRows sheet)

def ofJson : Json → Except GridFault Grid
  | .object fields => do
    return ⟨← fields.mapM fun (sheet, rows) => do return (sheet, ← rowsOf sheet rows)⟩
  | _ => .error .notAnObject

/-- The rows of a sheet; the sheet without a name may be missing. -/
def rows (g : Grid) (sheet : Option String) : Except String (List (List Value)) :=
  let name := sheet.getD ""
  match g.sheets.lookup name with
  | some rows => .ok rows
  | none => if name.isEmpty then .ok [] else .error s!"unknown sheet '{name}'"

/-- The value at a row and column, from 1. -/
def valueAt (rows : List (List Value)) : (row col : Nat) → Value
  | i + 1, j + 1 => ((rows[i]?.getD [])[j]?).getD .empty
  | _, _ => .empty

/-- The values of an area, row by row. -/
def valuesIn (rows : List (List Value)) (row col height width : Nat) : List (List Value) :=
  (List.range' row height).map fun i => (List.range' col width).map fun j => valueAt rows i j

/-- The last row or column of a range along one axis: one that goes to the edge of the sheet stops
where the data end. -/
def clip (first last edge data : Nat) : Nat := if last = edge then max data first else last

def readCell (g : Grid) (r : CellRef) : Except String Value := do
  return valueAt (← g.rows r.sheet) r.address.row r.address.col

def readRange (g : Grid) (r : RangeRef) : Except String (List (List Value)) := do
  let rows ← g.rows r.sheet
  let a := r.range.topLeft
  let b := r.range.bottomRight
  let lastRow := clip a.row b.row maxRow rows.length
  let lastCol := clip a.col b.col maxCol (width rows)
  return valuesIn rows a.row a.col (lastRow + 1 - a.row) (lastCol + 1 - a.col)

def source (g : Grid) : Source := ⟨g.readCell, g.readRange⟩

end Grid

end Spreadsheet
