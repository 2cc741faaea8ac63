import Spreadsheet.Expr.Basic
import Spreadsheet.Value.Order

/-!
The operators of formulas on values. On arrays they work element by element, a single row or column
being repeated along the other operand.
-/

namespace Spreadsheet

/-- Whether a comparison holds of two things in the given order. -/
def Comparison.accepts : Comparison → Ordering → Bool
  | .equal, o => o == .eq
  | .notEqual, o => o != .eq
  | .less, o => o == .lt
  | .lessEqual, o => o != .gt
  | .greater, o => o == .gt
  | .greaterEqual, o => o != .lt

/-- A number that is finite; others are outside the numbers of a sheet. -/
def finite (x : Float) : Result Float := if x.isFinite then .ok x else .error .num

def ArithmeticOp.apply : ArithmeticOp → Float → Float → Result Float
  | .add, a, b => finite (a + b)
  | .subtract, a, b => finite (a - b)
  | .multiply, a, b => finite (a * b)
  | .divide, a, b => if b == 0 then .error .div0 else finite (a / b)
  | .power, a, b =>
    if a == 0 && b == 0 then .error .num
    else if a == 0 && b < 0 then .error .div0
    else finite (a.pow b)

namespace ValueOp

/-- An operator on two values that are no errors. -/
def compute : ValueOp → Value → Value → Result Value
  | arithmetic op, v, w => do
    let a ← v.toNumber
    let b ← w.toNumber
    return .number (← op.apply a b)
  | comparison op, v, w => return .boolean (op.accepts (v.order w))
  | concat, v, w => return .text ((← v.toText) ++ (← w.toText))

/-- An operator on two values that are no arrays. An error stays, the left before the right. -/
def onScalars (op : ValueOp) (v w : Value) : Value :=
  match v.error?, w.error? with
  | some e, _ => .error e
  | none, some e => .error e
  | none, none => .ofResult (op.compute v w)

/-- Stretches a list to a length: a single element is repeated, and others are followed
by `fill`. -/
def stretch (n : Nat) (fill : α) : List α → List α
  | [x] => List.replicate n x
  | xs => xs ++ List.replicate (n - xs.length) fill

/-- An operator on two rows that become `n` wide. What a row lacks counts as `#N/A`. -/
def onRows (op : ValueOp) (n : Nat) (l r : List Value) : List Value :=
  let widen := stretch n (.error .notAvailable)
  List.zipWith op.onScalars (widen l) (widen r)

/-- An operator on two values. Two arrays give one as high and wide as the larger. -/
def apply (op : ValueOp) : Value → Value → Value
  | .array l, .array r =>
    let height := max l.length r.length
    let width := max (width l) (width r)
    .array (List.zipWith (op.onRows width) (stretch height [] l) (stretch height [] r))
  | .array l, w => .array (l.map fun row => row.map fun v => op.onScalars v w)
  | v, .array r => .array (r.map fun row => row.map fun w => op.onScalars v w)
  | v, w => op.onScalars v w

end ValueOp

namespace Value

mutual

/-- Applies a function to a number, or to each element of an array. -/
def mapNumbers (f : Float → Float) : Value → Value
  | .array rows => .array (mapRows f rows)
  | v =>
    match v.toNumber with
    | .ok x => .number (f x)
    | .error e => .error e

def mapRows (f : Float → Float) : List (List Value) → List (List Value)
  | [] => []
  | row :: rest => mapRow f row :: mapRows f rest

def mapRow (f : Float → Float) : List Value → List Value
  | [] => []
  | v :: rest => v.mapNumbers f :: mapRow f rest

end

end Value

end Spreadsheet
