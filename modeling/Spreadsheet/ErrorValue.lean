import Spreadsheet.Unicode.Case

/-!
Spreadsheet errors such as `#DIV/0!`. They are data: functions yield them and formulas pass them on.
-/

namespace Spreadsheet

inductive ErrorValue
  /-- Two ranges have no cell in common. -/
  | null
  | div0
  /-- An argument or operand has the wrong type. -/
  | value
  | ref
  | name
  | num
  | notAvailable
  /-- A known function that has no implementation. -/
  | notImplemented (function : String)
deriving DecidableEq, Repr

namespace ErrorValue

def text : ErrorValue → String
  | .null => "#NULL!"
  | .div0 => "#DIV/0!"
  | .value => "#VALUE!"
  | .ref => "#REF!"
  | .name | .notImplemented _ => "#NAME?"
  | .num => "#NUM!"
  | .notAvailable => "#N/A"

/-- The errors that have a literal of their own. -/
def literals : List ErrorValue := [.null, .div0, .value, .ref, .name, .num, .notAvailable]

/-- The error that a text spells, in any letter case. -/
def ofText? (s : String) : Option ErrorValue := literals.find? fun e => Unicode.sameAscii e.text s

/-- The number that the function ERROR.TYPE reports. -/
def typeNumber : ErrorValue → Nat
  | .null => 1
  | .div0 => 2
  | .value => 3
  | .ref => 4
  | .name | .notImplemented _ => 5
  | .num => 6
  | .notAvailable => 7

/-- An explanation, empty where the error itself says all. -/
def detail : ErrorValue → String
  | .notImplemented function => s!"Function {function} is not implemented."
  | _ => ""

end ErrorValue

end Spreadsheet
