import Spreadsheet.Pattern
import Spreadsheet.Value.Operators

/-!
Criteria of conditional functions: a comparison such as `>=55`, or a wildcard pattern such as `*es`
for the text of a cell.
-/

namespace Spreadsheet

inductive Criterion
  | comparison (op : Comparison) (operand : Value)
  | pattern (p : Pattern)

namespace Criterion

/-- Takes a comparison operator from the head. -/
def takeComparison : List Char → Option (Comparison × List Char)
  | '>' :: '=' :: rest => some (.greaterEqual, rest)
  | '<' :: '=' :: rest => some (.lessEqual, rest)
  | '<' :: '>' :: rest => some (.notEqual, rest)
  | '>' :: rest => some (.greater, rest)
  | '<' :: rest => some (.less, rest)
  | '=' :: rest => some (.equal, rest)
  | _ => none

/-- Text as the boolean or number that it reads as, or else as itself. -/
def operandOf (s : String) : Value :=
  if Unicode.sameAscii s "TRUE" then .boolean true
  else if Unicode.sameAscii s "FALSE" then .boolean false
  else
    match Number.read? s with
    | some x => .number x
    | none => .text s

/-- Equality with an operand in text form; text that is neither empty, a boolean nor a number is a
pattern. -/
def equalTo (cs : List Char) : Criterion :=
  match operandOf (String.ofList cs) with
  | .text s => if cs.isEmpty then comparison .equal (.text s) else pattern (Pattern.parse cs)
  | v => comparison .equal v

/-- The criterion that a value writes down; a blank is the empty text. -/
def ofValue (v : Value) : Criterion :=
  match v.scalar with
  | .text s =>
    match takeComparison s.toList with
    | some (.equal, rest) => equalTo rest
    | some (op, rest) => comparison op (operandOf (String.ofList rest))
    | none => equalTo s.toList
  | .empty => comparison .equal (.text "")
  | w => comparison .equal w

/-- Whether a comparison accepts a fact that can only be true or false. -/
def acceptsEquality (op : Comparison) (equal : Bool) : Bool :=
  match op with
  | .equal => equal
  | .notEqual => !equal
  | _ => false

/-- Whether the value of a cell meets the criterion. Blanks equal the empty text alone, and errors
only themselves. -/
def holds : Criterion → Value → Bool
  | pattern p, .text s => p.holds s.toList
  | pattern _, _ => false
  | comparison op operand, .empty =>
    acceptsEquality op (match operand with | .text s => s.isEmpty | _ => false)
  | comparison op (.error e), .error e' => acceptsEquality op (e' == e)
  | comparison op _, .error _ => op == .notEqual
  | comparison op (.error _), _ => op == .notEqual
  | comparison op operand, v => op.accepts (v.order operand)

end Criterion

end Spreadsheet
