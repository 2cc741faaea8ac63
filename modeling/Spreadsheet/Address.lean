import Spreadsheet.Number.Text

/-!
Cell addresses such as `A1` and `$B$2`. Rows and columns count from 1, and a `$` makes an axis
absolute: it does not move when the formula that holds it is anchored elsewhere.
-/

namespace Spreadsheet

def maxRow : Nat := 1048576

def maxCol : Nat := 16384

structure Address where
  row : Nat
  col : Nat
  rowAbs : Bool
  colAbs : Bool
deriving DecidableEq, Repr

/-- Why a text is no address. -/
inductive AddressError
  | empty
  | noColumn (text : String)
  | noRow (text : String)
  | badRow (text : String)
  | rowZero (text : String)
  | noLetters
  | badLetter (c : Char)
  | rowOutOfBounds (row : Nat)
  | colOutOfBounds (col : Nat)
deriving DecidableEq, Repr

def AddressError.message : AddressError → String
  | .empty => "Invalid cell address: empty address"
  | .noColumn s => s!"Invalid cell address: no column letters in '{s}'"
  | .noRow s => s!"Invalid cell address: no row number in '{s}'"
  | .badRow s => s!"Invalid cell address: invalid row number in '{s}'"
  | .rowZero s => s!"Invalid cell address: row number must be >= 1 in '{s}'"
  | .noLetters => "Invalid cell address: empty column letters"
  | .badLetter c => s!"Invalid cell address: invalid column letter '{c}'"
  | .rowOutOfBounds row => s!"Row {row} out of bounds (max: {maxRow})"
  | .colOutOfBounds col => s!"Column {col} out of bounds (max: {maxCol})"

/-! ### Column letters -/

/-- The letters of a column: `A` to `Z`, then `AA` and so on. Column 0 has none. -/
def columnLetters (n : Nat) : List Char :=
  if n = 0 then [] else columnLetters ((n - 1) / 26) ++ [Char.ofNat ('A'.toNat + (n - 1) % 26)]
termination_by n

def letterValue (c : Char) : Nat := c.toUpper.toNat - 'A'.toNat + 1

def lettersValue (cs : List Char) : Nat := cs.foldl (fun n c => 26 * n + letterValue c) 0

/-- Stands for a number that has too many digits to be told. -/
def unreadable : Nat := 4294967295

/-- The column of a text of letters. More than three bytes are too many whatever they hold. -/
def columnNumber (s : String) : Except AddressError Nat :=
  if s.isEmpty then .error .noLetters
  else if 3 < s.utf8ByteSize then .error (.colOutOfBounds unreadable)
  else
    match s.toList.find? fun c => !c.isAlpha with
    | some c => .error (.badLetter c)
    | none =>
      let col := lettersValue s.toList
      if maxCol < col then .error (.colOutOfBounds col) else .ok col

/-! ### Addresses -/

namespace Address

/-- An address without `$`. -/
def relative (row col : Nat) : Address := ⟨row, col, false, false⟩

/-- Takes a `$` from the head; whether there was one, and the rest. -/
def takeDollar : List Char → Bool × List Char
  | '$' :: rest => (true, rest)
  | cs => (false, cs)

/-- The row that digits denote, for the address `text`. -/
def rowNumber (text : String) (digits : List Char) : Except AddressError Nat :=
  let row := Number.digitsValue digits
  if digits.isEmpty then .error (.noRow text)
  else if !digits.all Char.isDigit then .error (.badRow text)
  else if unreadable < row then .error (.rowOutOfBounds unreadable)
  else if row = 0 then .error (.rowZero text)
  else if maxRow < row then .error (.rowOutOfBounds row)
  else .ok row

/-- Reads an address; white space around it is ignored. -/
def parse (s : String) : Except AddressError Address := do
  let cs := Unicode.trim s.toList
  let text := String.ofList cs
  if cs.isEmpty then throw .empty
  let (colAbs, afterDollar) := takeDollar cs
  let (letters, afterLetters) := afterDollar.span Char.isAlpha
  if letters.isEmpty then throw (.noColumn text)
  let col ← columnNumber (String.ofList letters)
  let (rowAbs, digits) := takeDollar afterLetters
  let row ← rowNumber text digits
  return { row, col, rowAbs, colAbs }

/-- Moves the axes that are not absolute; none if that leaves the sheet. -/
def move? (a : Address) (rows cols : Int) : Option Address :=
  let row := if a.rowAbs then (a.row : Int) else a.row + rows
  let col := if a.colAbs then (a.col : Int) else a.col + cols
  if 1 ≤ row ∧ row ≤ maxRow ∧ 1 ≤ col ∧ col ≤ maxCol then
    some { a with row := row.toNat, col := col.toNat }
  else none

/-- The same cell, whatever the `$` flags. -/
def sameCell (a b : Address) : Bool := a.row == b.row && a.col == b.col

def dollar (absolute : Bool) : List Char := if absolute then ['$'] else []

def write (a : Address) : List Char :=
  dollar a.colAbs ++ columnLetters a.col ++ dollar a.rowAbs ++ Nat.toDigits 10 a.row

def toText (a : Address) : String := String.ofList a.write

end Address

end Spreadsheet
