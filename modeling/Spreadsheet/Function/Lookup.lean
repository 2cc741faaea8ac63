import Spreadsheet.Function.Basic
import Spreadsheet.Number.Integral
import Spreadsheet.Pattern
import Spreadsheet.Value.Order

/-!
Functions that look up places and elements, and that tell the place and size of references.
-/

namespace Spreadsheet.Lookup

/-! ### Places and sizes of references -/

/-- The value of the only operand, none if there is none or its slot is empty. -/
def single? : List Operand → Query (Option Value)
  | .given q :: _ => some <$> q
  | _ => .done none

/-- A row or column of the cell that a reference starts at, or of the cell of the formula. -/
def place (ofStart : Address → Nat) (ofCell : Position → Nat) (position : Option Position)
    (operands : List Operand) : Query (Result Value) := do
  let index : Result Nat := match ← single? operands with
    | none => orError .value (position.map ofCell)
    | some (.reference r) => orError .value (r.area?.map fun area => ofStart area.topLeft)
    | some (.error e) => .error e
    | some _ => .error .value
  return index.map fun n => .number (Float.ofNat n)

/-- The number of rows or columns of a reference or of a value. -/
def extent (ofArea : Range → Nat) (ofRows : List (List Value) → Nat) (_ : Option Position)
    (operands : List Operand) : Query (Result Value) := do
  let size : Result Nat := match ← single? operands with
    | none => .error .value
    | some (.reference r) => orError .ref (r.area?.map ofArea)
    | some (.error e) => .error e
    | some (.array rows) => .ok (ofRows rows)
    | some _ => .ok 1
  return size.map fun n => .number (Float.ofNat n)

/-! ### Elements of arrays -/

/-- An index from an argument, its fraction cut off. -/
def indexOf (v : Value) : Result Nat := do
  let x := Number.truncate (← v.toNumber)
  if x < 0 then throw .value
  return Number.toNat64 x

/-- The column with an index from 0. -/
def column (rows : List (List Value)) (j : Nat) : List (List Value) :=
  rows.filterMap fun row => row[j]?.map fun v => [v]

/-- The element of an array at a row and a column, from 1. A zero stands for all rows or columns. -/
def element (rows : List (List Value)) : (row col : Nat) → Value
  | 0, 0 => .array rows
  | 0, j + 1 => .array (column rows j)
  | i + 1, 0 => .array [rows[i]?.getD []]
  | i + 1, j + 1 => ((rows[i]?.getD [])[j]?).getD .empty

/-- With a single index, the other is that of the only row or column; failing those it is zero. -/
def index (args : List Argument) : Result Value := do
  let rows := (← valueAt args 0).toRows
  let height := rows.length
  let width := (rows.headD []).length
  let first ← match givenAt? args 1 with
    | some v => indexOf v
    | none => .ok 0
  let (row, col) ← match givenAt? args 2 with
    | some v => do pure (first, ← indexOf v)
    | none => .ok (if height = 1 then (1, first) else if width = 1 then (first, 1) else (first, 0))
  if height < row || width < col then throw .ref
  return element rows row col

/-! ### Matching -/

/-- The values of a single row or column. -/
def line? : List (List Value) → Option (List Value)
  | [row] => some row
  | rows => if rows.all (·.length == 1) then some rows.flatten else none

/-- Whether a value equals the one looked up; text is matched as a pattern. -/
def equals (lookup : Value) : Value → Bool :=
  match lookup with
  | .text s =>
    let p := Pattern.parse s.toList
    fun v => match v with | .text t => p.holds t.toList | _ => false
  | _ => fun v => v.sameKind lookup && v.order lookup == .eq

/-- The index of the last value of the kind looked up before one that lies beyond it. -/
def lastBefore (lookup : Value) (beyond : Ordering) (values : List Value) : Option Nat :=
  let candidates := values.zipIdx.filter fun (v, _) => v.sameKind lookup
  ((candidates.takeWhile fun (v, _) => v.order lookup != beyond).getLast?).map Prod.snd

/-- The position of a value. Type 0 wants an equal one, other types sorted values: a positive type
ascending, a negative one descending. -/
def position (args : List Argument) : Result Float := do
  let lookup := (← valueAt args 0).scalar
  let values ← orError .notAvailable (line? (← valueAt args 1).toRows)
  let type ← numberAtOr args 2 1
  let found :=
    if type == 0 then values.findIdx? (equals lookup)
    else lastBefore lookup (if 0 < type then .gt else .lt) values
  return Float.ofNat ((← orError .notAvailable found) + 1)

def functions : List Function := [
  .ofOperands "ROW" .reference 0 (some 1) (place Address.row Position.row),
  .ofOperands "ROWS" .reference 1 (some 1) (extent Range.rowCount List.length),
  .ofOperands "COLUMN" .reference 0 (some 1) (place Address.col Position.col),
  .ofOperands "COLUMNS" .reference 1 (some 1)
    (extent Range.colCount fun rows => (rows.headD []).length),
  .ofValues "INDEX" .reference 2 (some 3) index,
  .ofNumbers "MATCH" .reference 2 (some 3) position]

end Spreadsheet.Lookup
