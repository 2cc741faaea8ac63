/-!
Matrices of numbers as lists of rows.
-/

namespace Spreadsheet.Number

/-- The columns of rows that are as long as the first. -/
def transpose (rows : List (List α)) : List (List α) :=
  (List.range (rows.headD []).length).map fun j => rows.filterMap fun row => row[j]?

/-- The index of the largest magnitude, the last of several; NaN is larger than all. -/
def pivotIndex (xs : List Float) : Nat :=
  let step (best : Nat × UInt64) (x : Float × Nat) : Nat × UInt64 :=
    if best.2 ≤ x.1.abs.toBits then (x.2, x.1.abs.toBits) else best
  (xs.zipIdx.foldl step (0, 0)).1

/-- Subtracts from a row the multiple of the pivot row that clears its first entry, and drops that
entry. -/
def clearFirst (pivot row : List Float) : List Float :=
  let factor := row.headD 0 / pivot.headD 0
  List.zipWith (fun x p => x - factor * p) row.tail pivot.tail

/-- Multiplies `acc` by the determinant of a square matrix with `n` rows, by elimination. The row
with the largest first entry is swapped to the top each time. -/
def eliminate : (n : Nat) → (acc : Float) → List (List Float) → Float
  | 0, acc, _ => acc
  | n + 1, acc, rows =>
    let p := pivotIndex (rows.map fun row => row.headD 0)
    let pivot := rows[p]?.getD []
    if pivot.headD 0 == 0 then 0
    else
      let others := (rows.set p (rows.headD [])).tail
      let acc := if p = 0 then acc else -acc
      eliminate n (acc * pivot.headD 0) (others.map (clearFirst pivot))

def determinant (rows : List (List Float)) : Float := eliminate rows.length 1 rows

end Spreadsheet.Number
