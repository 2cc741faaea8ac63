import Spreadsheet.Function.Basic
import Spreadsheet.Number.Integral

/-!
Statistical functions: means, counts and extremes.
-/

namespace Spreadsheet.Statistics

def average (args : List Argument) : Result Float := do
  let xs ← aggregatedNumbers args
  if xs.isEmpty then throw .div0
  return Number.sum xs / Float.ofNat xs.length

/-- What a value adds to a mean over all values: text is 0 unless it is written in the call. -/
def averaged : Value × Bool → Result (Option Float)
  | (.number x, _) => .ok (some x)
  | (.boolean b, _) => .ok (some (if b then 1 else 0))
  | (.text s, true) => some <$> orError .value (Number.read? s)
  | (.text _, false) => .ok (some 0)
  | (.error e, _) => .error e
  | _ => .ok none

def averageA (args : List Argument) : Result Float := do
  let xs := (← (expandedValues args).mapM averaged).filterMap id
  if xs.isEmpty then throw .div0
  return xs.foldl (· + ·) 0 / Float.ofNat xs.length

/-- Whether a value counts as a number: one in a sheet or an array must be one, and one that is
written in the call must read as one. -/
def countsAsNumber : Value × Bool → Bool
  | (.number _, _) | (.boolean _, true) => true
  | (.text s, true) => (Number.read? s).isSome
  | _ => false

def count (args : List Argument) : Result Float :=
  .ok (Float.ofNat ((expandedValues args).countP countsAsNumber))

/-- The values of an argument that is not blank. Empty text counts only if it is written in the call
or stands in an array. -/
def presentValues (a : Argument) : List Value :=
  if a.omitted then []
  else
    match a.value, a.literal with
    | .text "", false => []
    | v, _ => v.elements.filter (!·.isEmpty)

def countA (args : List Argument) : Result Float :=
  .ok (Float.ofNat (args.flatMap presentValues).length)

def isBlank : Value → Bool
  | .empty => true
  | .text s => s.isEmpty
  | _ => false

def countBlank (args : List Argument) : Result Float :=
  .ok (Float.ofNat ((expandedValues args).countP fun (v, _) => isBlank v))

/-- The extreme of the numbers that `pick` keeps of two, 0 if there are none. -/
def extreme (pick : Float → Float → Float) (args : List Argument) : Result Float := do
  match ← aggregatedNumbers args with
  | [] => return 0
  | x :: rest => return rest.foldl pick x

def functions : List Function := [
  .ofNumbers "AVERAGE" .statistical 1 none average,
  .ofNumbers "AVERAGEA" .statistical 1 none averageA,
  .ofNumbers "COUNT" .statistical 1 none count,
  .ofNumbers "COUNTA" .statistical 1 none countA,
  .ofNumbers "COUNTBLANK" .statistical 1 (some 1) countBlank,
  .ofNumbers "MAX" .statistical 1 none (extreme Number.larger),
  .ofNumbers "MIN" .statistical 1 none (extreme Number.smaller)]

end Spreadsheet.Statistics
