import Spreadsheet.Criterion
import Spreadsheet.Function.Basic

/-!
Functions of the cells that meet a criterion. They read their operands themselves, so that blank
cells stay blank.
-/

namespace Spreadsheet.Conditional

def countIf (_ : Option Position) : List Operand → Query (Result Value)
  | [cells, criterion] => do
    let v ← cells.query
    if let .error e := v then return .error e
    let values := (← v.read).elements
    let c ← (← criterion.query).read
    if let .error e := c then return .error e
    return .ok (.number (Float.ofNat (values.countP (Criterion.ofValue c).holds)))
  | _ => .done (.error .value)

/-- The range of the size of `area` from the top left cell of a reference on, cut off at the edges
of the sheet. -/
def sameSize? (area : Range) (r : Reference) : Option RangeRef :=
  r.area?.map fun target =>
    let start := target.topLeft
    { sheet := r.sheet?
      range := .ofCorners start (.relative (min (start.row + (area.rowCount - 1)) maxRow)
        (min (start.col + (area.colCount - 1)) maxCol)) }

/-- The rows to be added beside the cells of `v`, whose rows are `rows`: those of the operand, which
is read in the size of `v` if both are references. -/
def summedRows (v : Value) (rows : List (List Value)) : Operand → Query (List (List Value))
  | .omitted => .done rows
  | .given q => do
    let w ← q
    let resized :=
      match v, w with
      | .reference r, .reference s => r.area?.bind fun area => sameSize? area s
      | _, _ => none
    match resized with
    | some ref => Query.readRange ref
    | none => return (← w.read).toRows

/-- The number to be added beside a cell: the one in the same place, if the cell meets the
criterion. -/
def contribution? (criterion : Criterion) (cell : Value) : Value → Option Float
  | .number x => if criterion.holds cell then some x else none
  | _ => none

/-- The numbers of `summed` in the places where `rows` meets the criterion. -/
def contributions (criterion : Criterion) (rows summed : List (List Value)) : List Float :=
  (rows.zip summed).flatMap fun (row, targets) =>
    (row.zip targets).filterMap fun (cell, target) => contribution? criterion cell target

def sumIf (_ : Option Position) : List Operand → Query (Result Value)
  | cells :: criterion :: rest => do
    let v ← cells.query
    let rows := (← v.read).toRows
    let c := Criterion.ofValue (← (← criterion.query).read)
    let summed ← summedRows v rows (rest.headD .omitted)
    return .ok (.number ((contributions c rows summed).foldl (· + ·) 0))
  | _ => .done (.error .value)

def functions : List Function := [
  .ofOperands "SUMIF" .math 2 (some 3) sumIf,
  .ofOperands "COUNTIF" .statistical 2 (some 2) countIf]

end Spreadsheet.Conditional
