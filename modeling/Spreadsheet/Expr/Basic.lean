import Spreadsheet.ErrorValue
import Spreadsheet.Reference

/-!
Formulas as trees.
-/

namespace Spreadsheet

/-- The operators that combine numbers. -/
inductive ArithmeticOp
  | add
  | subtract
  | multiply
  | divide
  | power
deriving DecidableEq, Repr

/-- The six ways to compare. -/
inductive Comparison
  | equal
  | notEqual
  | less
  | lessEqual
  | greater
  | greaterEqual
deriving DecidableEq, Repr

/-- The operators on the values of their operands. -/
inductive ValueOp
  | arithmetic (op : ArithmeticOp)
  | comparison (op : Comparison)
  | concat
deriving DecidableEq, Repr

/-- The operators on references. -/
inductive ReferenceOp
  | range
  | intersect
deriving DecidableEq, Repr

inductive BinaryOp
  | value (op : ValueOp)
  | reference (op : ReferenceOp)
deriving DecidableEq, Repr

def ArithmeticOp.symbol : ArithmeticOp → String
  | .add => "+"
  | .subtract => "-"
  | .multiply => "*"
  | .divide => "/"
  | .power => "^"

def Comparison.symbol : Comparison → String
  | .equal => "="
  | .notEqual => "<>"
  | .less => "<"
  | .lessEqual => "<="
  | .greater => ">"
  | .greaterEqual => ">="

def BinaryOp.symbol : BinaryOp → String
  | .value (.arithmetic op) => op.symbol
  | .value (.comparison op) => op.symbol
  | .value .concat => "&"
  | .reference .range => ":"
  | .reference .intersect => " "

inductive SignOp
  | plus
  | negate
deriving DecidableEq, Repr

def SignOp.symbol : SignOp → String
  | .plus => "+"
  | .negate => "-"

/-- What a formula can write down without computing. -/
inductive Literal
  | number (x : Float)
  | text (s : String)
  | boolean (b : Bool)
  | error (e : ErrorValue)
deriving DecidableEq

inductive Expr
  | literal (value : Literal)
  | array (rows : List (List Literal))
  | cell (ref : CellRef)
  | range (ref : RangeRef)
  /-- Areas in parentheses, such as `(A1:B2,C3)`. -/
  | union (parts : List Expr)
  | name (name : String)
  | sign (op : SignOp) (operand : Expr)
  | binary (op : BinaryOp) (left right : Expr)
  | percent (operand : Expr)
  | call (function : String) (args : List Expr)
  /-- An empty slot among the arguments of a call, as in `F(1,,3)`. -/
  | omitted

namespace Expr

/-- Has the shape of something that may yield a reference. -/
def isReference : Expr → Bool
  | cell _ | range _ | union _ | name _ | call _ _ => true
  | binary (.reference _) _ _ => true
  | _ => false

mutual

/-- The references that a formula writes down, in order. Unions are taken apart, and names stand for
no reference. -/
def references : Expr → List Reference
  | cell ref => [.cell ref]
  | range ref => [.range ref]
  | union parts => referencesOf parts
  | sign _ operand | percent operand => operand.references
  | binary _ left right => left.references ++ right.references
  | call _ args => referencesOf args
  | literal _ | array _ | name _ | omitted => []

def referencesOf : List Expr → List Reference
  | [] => []
  | e :: rest => e.references ++ referencesOf rest

end

end Expr

end Spreadsheet
