import Spreadsheet.Function.Basic
import Spreadsheet.Number.Integral
import Spreadsheet.Number.Matrix

/-!
Functions of arrays of numbers.
-/

namespace Spreadsheet.Matrix

/-- The numbers of an array, which may hold nothing else and needs at least one. -/
def numericRows (v : Value) : Result (List (List Float)) := do
  let rows := v.toRows
  if (rows.headD []).isEmpty then throw .value
  rows.mapM fun row => row.mapM fun
    | .number x => .ok x
    | .error e => .error e
    | _ => .error .value

/-- The determinant of a square matrix. -/
def mdeterm (args : List Argument) : Result Float := do
  let rows ← numericRows (← valueAt args 0)
  if rows.any (·.length != rows.length) then throw .value
  return Number.determinant rows

/-- The sum of the products of a row with a column. -/
def scalarProduct (row column : List Float) : Float := Number.sum (List.zipWith (· * ·) row column)

/-- The product of two matrices; the first must be as wide as the second is high. -/
def mmult (args : List Argument) : Result Value := do
  let a ← numericRows (← valueAt args 0)
  let b ← numericRows (← valueAt args 1)
  if (a.headD []).length != b.length then throw .value
  let columns := Number.transpose b
  return .array (a.map fun row => columns.map fun column => .number (scalarProduct row column))

/-- What an element adds to a product; whatever is no number counts as zero. -/
def factor : Value → Result Float
  | .number x => .ok x
  | .error e => .error e
  | _ => .ok 0

/-- The elements that stand at one place in several lists, for each place. -/
def gather (n : Nat) (lists : List (List α)) : List (List α) :=
  lists.foldr (List.zipWith List.cons) (List.replicate n [])

/-- The sum of the products of elements at the same place in arrays of one size. -/
def sumProduct (args : List Argument) : Result Float := do
  let arrays := args.map fun a => a.value.toRows
  let first := arrays.headD []
  let width := (first.headD []).length
  if arrays.any fun rows => rows.length != first.length || rows.any (·.length != width) then
    throw .value
  let products ← (gather (first.length * width) (arrays.map List.flatten)).mapM fun elements => do
    return Number.product (← elements.mapM factor)
  return products.foldl (· + ·) 0

def transpose (args : List Argument) : Result Value := do
  return .array (Number.transpose (← valueAt args 0).toRows)

def functions : List Function := [
  .ofNumbers "MDETERM" .math 1 (some 1) mdeterm,
  .ofValues "MMULT" .math 2 (some 2) mmult,
  .ofNumbers "SUMPRODUCT" .math 1 none sumProduct,
  .ofValues "TRANSPOSE" .reference 1 (some 1) transpose]

end Spreadsheet.Matrix
