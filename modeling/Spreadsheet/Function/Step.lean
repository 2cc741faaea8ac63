import Spreadsheet.Function.Basic
import Spreadsheet.Number.ErrorFunction

/-!
Step functions and the error function. Their arguments may not be booleans.
-/

namespace Spreadsheet.Step

def strictAt (args : List Argument) (i : Nat) : Result Float := do
  (← valueAt args i).toNumberStrict

/-- The number at an index, 0 if none is given. -/
def strictOrZero (args : List Argument) (i : Nat) : Result Float :=
  match givenAt? args i with
  | some v => v.toNumberStrict
  | none => .ok 0

/-- 1 if a relation holds between two numbers, and else 0. -/
def indicator (holds : Float → Float → Bool) (args : List Argument) : Result Float := do
  let x ← strictAt args 0
  let y ← strictOrZero args 1
  return if holds x y then 1 else 0

/-- The error function up to a bound, or between two bounds. -/
def erf (args : List Argument) : Result Float := do
  let low ← strictAt args 0
  match givenAt? args 1 with
  | some v => return Number.erf (← v.toNumberStrict) - Number.erf low
  | none => return Number.erf low

def erfc (args : List Argument) : Result Float := do return Number.erfc (← strictAt args 0)

def functions : List Function := [
  .ofNumbers "DELTA" .engineering 1 (some 2) (indicator (· == ·)),
  .ofNumbers "GESTEP" .engineering 1 (some 2) (indicator fun x step => step ≤ x),
  .ofNumbers "ERF" .engineering 1 (some 2) erf,
  .ofNumbers "ERFC" .engineering 1 (some 1) erfc]

end Spreadsheet.Step
