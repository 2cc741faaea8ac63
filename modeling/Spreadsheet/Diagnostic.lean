import Spreadsheet.Expr.Parser

/-!
Syntax errors shown against the text of the formula.
-/

namespace Spreadsheet

structure Diagnostic where
  place : Place
  sourceLine : String
  message : String

/-- The lines of a text, at least one. -/
def lines : List Char → List (List Char)
  | [] => [[]]
  | c :: cs =>
    if c = '\n' then [] :: lines cs
    else
      match lines cs with
      | line :: rest => (c :: line) :: rest
      | [] => [[c]]

/-- The line at fault, without carriage returns at its end, and the message. -/
def Diagnostic.of (text : String) (e : SyntaxError) : Diagnostic :=
  let line := (lines text.toList)[e.place.line - 1]?.getD []
  { place := e.place
    sourceLine := String.ofList (line.reverse.dropWhile (· = '\r')).reverse
    message := e.message }

/-- The line at fault with a caret below the column, the place and the message. -/
def Diagnostic.render (d : Diagnostic) : String :=
  let indent := String.ofList (List.replicate (d.place.column - 1) ' ')
  s!"\n{d.sourceLine}\n{indent}^\nError at position {d.place.line}:{d.place.column}\n{d.message}"

end Spreadsheet
