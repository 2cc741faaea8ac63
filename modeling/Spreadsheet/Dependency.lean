import Spreadsheet.Expr.Basic
import Spreadsheet.Multimap

/-!
Which cells read which areas. The table records for each area the formula cells that read it, and
for each formula cell the areas that it reads; the two sides always tell the same edges.
-/

namespace Spreadsheet

/-- A cell of a sheet, its row and column folded into one number. -/
structure CellKey where
  sheet : Nat
  key : Nat
deriving DecidableEq, Repr

namespace CellKey

/-- More than the number of columns. -/
def rowStride : Nat := 100000

def fold (row col : Nat) : Nat := row * rowStride + col

def ofIndices (sheet row col : Nat) : CellKey := ⟨sheet, fold row col⟩

/-- The row, a word of 32 bits. -/
def row (c : CellKey) : Nat := c.key / rowStride % 4294967296

def col (c : CellKey) : Nat := c.key % rowStride

/-- By sheet, and then by row and column. -/
def less (c d : CellKey) : Bool := c.sheet < d.sheet || (c.sheet == d.sheet && c.key < d.key)

/-- Inserts a cell into a sorted list, unless it is there. -/
def insertSorted (c : CellKey) : List CellKey → List CellKey
  | [] => [c]
  | d :: rest =>
    if c.less d then c :: d :: rest else if c = d then d :: rest else d :: insertSorted c rest

/-- The cells in order, each once. -/
def sorted (cells : List CellKey) : List CellKey := cells.foldr insertSorted []

end CellKey

/-- An area of a sheet, by its folded corners. -/
structure Area where
  sheet : Nat
  first : Nat
  last : Nat
deriving DecidableEq, Repr

namespace Area

def ofRange (sheet : Nat) (r : Range) : Area :=
  { sheet
    first := CellKey.fold r.topLeft.row r.topLeft.col
    last := CellKey.fold r.bottomRight.row r.bottomRight.col }

def ofCell (c : CellKey) : Area := ⟨c.sheet, c.key, c.key⟩

def range (a : Area) : Range :=
  let first : CellKey := ⟨a.sheet, a.first⟩
  let last : CellKey := ⟨a.sheet, a.last⟩
  .ofIndices first.row first.col last.row last.col

/-- Whether two areas share a cell. -/
def meets (a b : Area) : Bool := a.sheet == b.sheet && a.range.overlaps b.range

end Area

/-- A reference names a sheet that the table does not have. -/
structure UnknownSheet where
  name : String
deriving DecidableEq, Repr

def UnknownSheet.message (e : UnknownSheet) : String := s!"Sheet not found: {e.name}"

structure DependencyTable where
  sheets : List String
  dependents : Multimap Area CellKey
  precedents : Multimap CellKey Area

namespace DependencyTable

/-- A table without edges. Sheets are numbered in their order. -/
def ofSheets (sheets : List String) : DependencyTable := ⟨sheets, [], []⟩

/-- The number of a sheet, by its name in any letter case. -/
def sheetIndex (t : DependencyTable) (name : String) : Except UnknownSheet Nat :=
  match t.sheets.findIdx? (Unicode.sameAscii · name) with
  | some i => .ok i
  | none => .error ⟨name⟩

/-- The number of a sheet that may be left out. -/
def sheetOr (t : DependencyTable) (default : Nat) : Option String → Except UnknownSheet Nat
  | some name => t.sheetIndex name
  | none => .ok default

mutual

/-- The areas of a reference; parts without a sheet are on the default sheet. -/
def areas (t : DependencyTable) (default : Nat) : Reference → Except UnknownSheet (List Area)
  | .cell r => do return [.ofRange (← t.sheetOr default r.sheet) (.single r.address)]
  | .range r => do return [.ofRange (← t.sheetOr default r.sheet) r.range]
  | .union parts => t.areasOf default parts

/-- The areas of several references. -/
def areasOf (t : DependencyTable) (default : Nat) : List Reference → Except UnknownSheet (List Area)
  | [] => .ok []
  | r :: rest => do
    let here ← t.areas default r
    return here ++ (← t.areasOf default rest)

end

/-- Records that a cell reads an area. -/
def link (t : DependencyTable) (area : Area) (cell : CellKey) : DependencyTable :=
  { t with
    dependents := t.dependents.insert area cell
    precedents := t.precedents.insert cell area }

def linkAll (t : DependencyTable) (areas : List Area) (cell : CellKey) : DependencyTable :=
  areas.foldl (fun t area => t.link area cell) t

/-- Records that a cell reads a reference, which is on the sheet of the cell if it names none. -/
def add (t : DependencyTable) (r : Reference) (cell : CellKey) :
    Except UnknownSheet DependencyTable := do
  return t.linkAll (← t.areas cell.sheet r) cell

/-- Records all references of the formula in a cell and counts them. -/
def register (t : DependencyTable) (e : Expr) (cell : CellKey) :
    Except UnknownSheet (Nat × DependencyTable) := do
  let areas ← t.areasOf cell.sheet e.references
  return (e.references.length, t.linkAll areas cell)

/-- The cells that read an area which shares a cell with one of those wanted. -/
def readers (t : DependencyTable) (wanted : List Area) : List CellKey :=
  CellKey.sorted <| t.dependents.flatMap fun (area, cells) =>
    if wanted.any (·.meets area) then cells else []

/-- The cells that read some part of a reference, in order. -/
def get (t : DependencyTable) (r : Reference) (default : Nat) :
    Except UnknownSheet (List CellKey) := do
  return t.readers (← t.areas default r)

/-- The cells that read a cell, in order. -/
def dependentsOf (t : DependencyTable) (cell : CellKey) : List CellKey := t.readers [.ofCell cell]

/-- Drops the edges from an area. -/
def dropArea (t : DependencyTable) (area : Area) : DependencyTable :=
  { t with
    dependents := t.dependents.eraseKey area
    precedents := (t.dependents.get area).foldl (fun m cell => m.erase cell area) t.precedents }

/-- Drops the edges from areas and counts them. -/
def dropAreas (t : DependencyTable) : List Area → Nat × DependencyTable
  | [] => (0, t)
  | area :: rest =>
    let (n, t') := (t.dropArea area).dropAreas rest
    ((t.dependents.get area).length + n, t')

/-- Drops the edges from exactly the areas of a reference and counts them. -/
def remove (t : DependencyTable) (r : Reference) (default : Nat) :
    Except UnknownSheet (Nat × DependencyTable) := do
  return t.dropAreas (← t.areas default r)

/-- Drops the edges to a cell and counts them. -/
def removeDependent (t : DependencyTable) (cell : CellKey) : Nat × DependencyTable :=
  let areas := t.precedents.get cell
  (areas.length,
    { t with
      dependents := areas.foldl (fun m area => m.erase area cell) t.dependents
      precedents := t.precedents.eraseKey cell })

/-- The number of edges. -/
def size (t : DependencyTable) : Nat := t.dependents.size

def isEmpty (t : DependencyTable) : Bool := t.dependents.isEmpty

def clear (t : DependencyTable) : DependencyTable := { t with dependents := [], precedents := [] }

end DependencyTable

end Spreadsheet
