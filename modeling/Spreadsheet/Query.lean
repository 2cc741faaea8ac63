import Spreadsheet.Value.Basic

/-!
Evaluation as data. A query is a computation that reads cells and ranges and notes the names of
unknown functions; which of these it does, and in what order, can be read off the query. Running one
against a source of cells is the only place where reading can fail, and the first failure ends it.
-/

namespace Spreadsheet

inductive Query (α : Type)
  | done (result : α)
  | cell (ref : CellRef) (next : Value → Query α)
  | range (ref : RangeRef) (next : List (List Value) → Query α)
  /-- Notes the name of an unknown function. -/
  | unknown (function : String) (next : Query α)

/-- Where the contents of cells come from. A failure is a message. -/
structure Source where
  cell : CellRef → Except String Value
  range : RangeRef → Except String (List (List Value))

/-- Rows with blanks added, so that they make a rectangle of at least one cell. -/
def padRows (rows : List (List Value)) : List (List Value) :=
  if rows.isEmpty then [[.empty]]
  else rows.map fun row => row ++ List.replicate (max 1 (width rows) - row.length) .empty

namespace Query

def bind (q : Query α) (f : α → Query β) : Query β :=
  match q with
  | done a => f a
  | cell ref next => cell ref fun v => (next v).bind f
  | range ref next => range ref fun rows => (next rows).bind f
  | unknown function next => unknown function (next.bind f)

instance : Monad Query where
  pure := done
  bind := bind

/-- The outcome of a query, with the unknown functions that it noted up to then, in order. -/
def run (source : Source) : Query α → Except String α × List String
  | done a => (.ok a, [])
  | cell ref next =>
    match source.cell ref with
    | .ok v => (next v).run source
    | .error message => (.error message, [])
  | range ref next =>
    match source.range ref with
    | .ok rows => (next (padRows rows)).run source
    | .error message => (.error message, [])
  | unknown function next =>
    let (outcome, names) := next.run source
    (outcome, function :: names)

def readCell (ref : CellRef) : Query Value := cell ref done

/-- The rows of a range, a rectangle of at least one cell. -/
def readRange (ref : RangeRef) : Query (List (List Value)) := range ref done

end Query

/-- The elements of an array row by row; another value is its own only element. -/
def Value.elements : Value → List Value
  | array rows => rows.flatten
  | v => [v]

mutual

/-- What a reference holds: the value of a cell, the rows of a range, and for a union one row with
the elements of each part. -/
def Reference.read : Reference → Query Value
  | .cell ref => Query.readCell ref
  | .range ref => .array <$> Query.readRange ref
  | .union parts => do return .array [← readParts parts]

def readParts : List Reference → Query (List Value)
  | [] => .done []
  | part :: rest => do
    let v ← part.read
    return v.elements ++ (← readParts rest)

end

/-- What a value stands for: a reference is read, other values are themselves. -/
def Value.read : Value → Query Value
  | reference r => r.read
  | v => .done v

end Spreadsheet
