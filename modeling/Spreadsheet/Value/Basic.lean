import Spreadsheet.ErrorValue
import Spreadsheet.Reference

/-!
Values of cells and formulas, with their coercions and their text.
-/

namespace Spreadsheet

inductive Value
  | number (x : Float)
  | text (s : String)
  | boolean (b : Bool)
  | error (e : ErrorValue)
  /-- Rows of values, from top to bottom. -/
  | array (rows : List (List Value))
  /-- A reference that has not been read. -/
  | reference (r : Reference)
  | empty

/-- The result of a function: a value or a spreadsheet error. -/
abbrev Result := Except ErrorValue

/-- The length of the longest row. -/
def width (rows : List (List α)) : Nat := rows.foldl (fun n row => max n row.length) 0

/-- The value, or an error where there is none. -/
def orError (e : ErrorValue) : Option α → Result α
  | some a => .ok a
  | none => .error e

def booleanText (b : Bool) : String := if b then "TRUE" else "FALSE"

namespace Value

/-- The value of a result, its error as data. -/
def ofResult : Result Value → Value
  | .ok v => v
  | .error e => error e

def error? : Value → Option ErrorValue
  | error e => some e
  | _ => none

def isError (v : Value) : Bool := v.error?.isSome

def isEmpty : Value → Bool
  | empty => true
  | _ => false

/-- The top left element of an array, of its own top left element if that is an array, and so on.
Other values stand for themselves. -/
def scalar : Value → Value
  | array ((v :: _) :: _) => v.scalar
  | array _ => empty
  | v => v

/-- As a number: booleans are 1 and 0, text is read and a blank is 0. -/
def toNumber (v : Value) : Result Float :=
  match v.scalar with
  | number x => .ok x
  | boolean b => .ok (if b then 1 else 0)
  | empty => .ok 0
  | text s =>
    match Number.read? s with
    | some x => .ok x
    | none => .error .value
  | error e => .error e
  | array _ | reference _ => .error .value

/-- As a number, with booleans refused. -/
def toNumberStrict (v : Value) : Result Float :=
  match v.scalar with
  | boolean _ => .error .value
  | w => w.toNumber

def toText (v : Value) : Result String :=
  match v.scalar with
  | number x => .ok (Number.format x)
  | text s => .ok s
  | boolean b => .ok (booleanText b)
  | empty => .ok ""
  | error e => .error e
  | array _ | reference _ => .error .value

/-- As a boolean: numbers other than 0 are true, and text spells `TRUE` or `FALSE`. -/
def toBoolean (v : Value) : Result Bool :=
  match v.scalar with
  | boolean b => .ok b
  | number x => .ok (x != 0)
  | empty => .ok false
  | text s =>
    if Unicode.sameAscii s "TRUE" then .ok true
    else if Unicode.sameAscii s "FALSE" then .ok false
    else .error .value
  | error e => .error e
  | array _ | reference _ => .error .value

/-- The rows of an array; another value is a row of its own. -/
def toRows : Value → List (List Value)
  | array rows => rows
  | v => [[v]]

def typeName : Value → String
  | number _ => "number"
  | text _ => "text"
  | boolean _ => "boolean"
  | error _ => "error"
  | array _ => "array"
  | reference _ => "reference"
  | empty => "empty"

/-- A text in quotes, with the quotes inside doubled. -/
def quoted (s : String) : List Char :=
  '"' :: s.toList.flatMap (fun c => if c = '"' then ['"', '"'] else [c]) ++ ['"']

mutual

def write : Value → List Char
  | number x => (Number.format x).toList
  | text s => s.toList
  | boolean b => (booleanText b).toList
  | error e => e.text.toList
  | array rows => '{' :: writeRows rows ++ ['}']
  | reference r => r.write
  | empty => []

/-- Rows of an array, with semicolons between them. -/
def writeRows : List (List Value) → List Char
  | [] => []
  | [row] => writeRow row
  | row :: rest => writeRow row ++ ';' :: writeRows rest

/-- Elements of a row, with commas between them and texts in quotes. -/
def writeRow : List Value → List Char
  | [] => []
  | [v] => writeElement v
  | v :: rest => writeElement v ++ ',' :: writeRow rest

def writeElement : Value → List Char
  | text s => quoted s
  | v => v.write

end

/-- The text that shows a value. -/
def display (v : Value) : String := String.ofList v.write

end Value

end Spreadsheet
