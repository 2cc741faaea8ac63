import Spreadsheet.Function.Arithmetic
import Spreadsheet.Function.Bits
import Spreadsheet.Function.Combinatorics
import Spreadsheet.Function.Complex
import Spreadsheet.Function.Conditional
import Spreadsheet.Function.Information
import Spreadsheet.Function.Logic
import Spreadsheet.Function.Lookup
import Spreadsheet.Function.Matrix
import Spreadsheet.Function.Numeral
import Spreadsheet.Function.Rounding
import Spreadsheet.Function.Statistics
import Spreadsheet.Function.Step
import Spreadsheet.Function.Text
import Spreadsheet.Function.Trigonometry

/-!
The functions that formulas can call, found by name in any letter case.
-/

namespace Spreadsheet

/-- A function that wants a number and is known not to be implemented. -/
def unimplemented (name : String) (category : Category) (minArgs : Nat) (maxArgs : Option Nat) :
    Function :=
  .ofValues name category minArgs maxArgs fun args => do
    let _ ← numberAt args 0
    throw (.notImplemented name)

def builtins : List Function :=
  Arithmetic.functions ++ Rounding.functions ++ Combinatorics.functions ++ Matrix.functions ++
    Numeral.functions ++ Trigonometry.functions ++ Logic.functions ++ Text.functions ++
    Bits.functions ++ Step.functions ++ ComplexNumber.functions ++ Statistics.functions ++
    Conditional.functions ++ Lookup.functions ++ Information.functions ++
    [unimplemented "AGGREGATE" .math 3 none, unimplemented "BAHTTEXT" .text 1 (some 1)]

/-- Functions of different names. -/
abbrev Registry := List Function

namespace Registry

def find? (registry : Registry) (name : String) : Option Function :=
  let name := String.ofList (Unicode.upper name.toList)
  List.find? (fun f => f.name == name) registry

/-- Adds a function, in the place of one with the same name. -/
def register (registry : Registry) (f : Function) : Registry :=
  if registry.any (·.name == f.name) then registry.map fun g => if g.name == f.name then f else g
  else registry ++ [f]

/-- The names in order. -/
def names (registry : Registry) : List String := (registry.map Function.name).mergeSort (· ≤ ·)

end Registry

end Spreadsheet
