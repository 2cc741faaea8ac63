import Spreadsheet.Address
import Spreadsheet.Unicode.Letter

/-!
Shared formulas. A block of cells can share the text of one formula, which is written for one cell
of the block; in another cell its relative references move along. The text is changed as it stands,
without being read as a formula.
-/

namespace Spreadsheet.SharedFormula

/-- Text in the form of an address, its row as written. -/
structure Spelling where
  colAbs : Bool
  letters : List Char
  rowAbs : Bool
  digits : List Char

namespace Spelling

/-- Takes text in the form of an address from the head. -/
def take? (cs : List Char) : Option (Spelling × List Char) :=
  let (colAbs, afterDollar) := Address.takeDollar cs
  let letters := afterDollar.takeWhile Char.isUpper
  let (rowAbs, afterDollar) := Address.takeDollar (afterDollar.dropWhile Char.isUpper)
  let digits := afterDollar.takeWhile Char.isDigit
  if letters.isEmpty || digits.isEmpty then none
  else some (⟨colAbs, letters, rowAbs, digits⟩, afterDollar.dropWhile Char.isDigit)

def write (s : Spelling) : List Char :=
  Address.dollar s.colAbs ++ s.letters ++ Address.dollar s.rowAbs ++ s.digits

/-- The address that the text spells, if it lies in the sheet. -/
def address? (s : Spelling) : Option Address :=
  let col := lettersValue s.letters
  let row := Number.digitsValue s.digits
  if s.letters.length ≤ 3 ∧ col ≤ maxCol ∧ 1 ≤ row ∧ row ≤ maxRow then
    some ⟨row, col, s.rowAbs, s.colAbs⟩
  else none

/-- What is taken from the head is what was there, less the rest. -/
theorem write_append_of_take? {cs rest : List Char} {s : Spelling} (h : take? cs = some (s, rest)) :
    s.write ++ rest = cs := by
  have dollar_append (l : List Char) :
      Address.dollar (Address.takeDollar l).1 ++ (Address.takeDollar l).2 = l := by
    unfold Address.takeDollar Address.dollar
    split <;> simp
  simp only [take?] at h
  split at h
  · cases h
  · cases h
    simp only [write, List.append_assoc, List.takeWhile_append_dropWhile, dollar_append]

theorem letters_ne_nil_of_take? {cs rest : List Char} {s : Spelling}
    (h : take? cs = some (s, rest)) : s.letters ≠ [] := by
  simp only [take?] at h
  split at h
  · cases h
  · cases h
    simp_all

theorem length_lt_of_take? {cs rest : List Char} {s : Spelling} (h : take? cs = some (s, rest)) :
    rest.length < cs.length := by
  have hlen := congrArg List.length (write_append_of_take? h)
  have hpos := List.length_pos_iff.2 (letters_ne_nil_of_take? h)
  simp only [write, List.length_append] at hlen
  omega

end Spelling

/-- A character that goes on with a name. -/
def continuesName (c : Char) : Bool := Unicode.isAlphanumeric c || c == '_' || c == '.'

/-- Whether text between two characters is part of a name, a function or the name of a sheet. -/
def isPartOfName (before after : Option Char) : Bool :=
  before.any continuesName || after.any fun c => continuesName c || c == '!' || c == '('

/-- The text of an address after it has moved; `#REF!` if it leaves the sheet. -/
def movedText (rows cols : Int) (a : Address) : List Char :=
  match a.move? rows cols with
  | some b => b.write
  | none => "#REF!".toList

/-- Moves the addresses in a text without quotes that follows the character `before`. -/
def moveAddresses (rows cols : Int) (before : Option Char) (cs : List Char) : List Char :=
  match _h : Spelling.take? cs with
  | some (s, rest) =>
    let text :=
      match s.address? with
      | some a =>
        if isPartOfName before rest.head? then s.write else movedText rows cols a
      | none => s.write
    text ++ moveAddresses rows cols s.digits.getLast? rest
  | none =>
    match cs with
    | [] => []
    | c :: rest => c :: moveAddresses rows cols (some c) rest
termination_by cs.length
decreasing_by
  · exact Spelling.length_lt_of_take? _h
  · simp_wf

/-- Takes a quoted text without its opening quote from the head, all of the text if nothing closes
it. A doubled quote does not close it. -/
def takeQuoted (quote : Char) : List Char → List Char × List Char
  | [] => ([], [])
  | [c] => ([c], [])
  | c :: d :: rest =>
    if c = quote then
      if d = quote then
        let (inside, rest) := takeQuoted quote rest
        (c :: d :: inside, rest)
      else ([c], d :: rest)
    else
      let (inside, rest) := takeQuoted quote (d :: rest)
      (c :: inside, rest)

theorem takeQuoted_append (quote : Char) (cs : List Char) :
    (takeQuoted quote cs).1 ++ (takeQuoted quote cs).2 = cs := by
  fun_induction takeQuoted quote cs <;> simp_all

def isQuote (c : Char) : Bool := c == '"' || c == '\x27'

/-- Moves the addresses in a text outside its quotes. -/
def moveOutsideQuotes (rows cols : Int) (cs : List Char) : List Char :=
  moveAddresses rows cols none (cs.takeWhile (!isQuote ·)) ++
    match _h : cs.dropWhile (!isQuote ·) with
    | [] => []
    | quote :: rest =>
      quote :: (takeQuoted quote rest).1 ++ moveOutsideQuotes rows cols (takeQuoted quote rest).2
termination_by cs.length
decreasing_by
  have hdrop := (List.dropWhile_suffix (l := cs) (!isQuote ·)).length_le
  have hquoted := congrArg List.length (takeQuoted_append quote rest)
  simp only [_h, List.length_cons, List.length_append] at hdrop hquoted
  omega

/-- The text of a shared formula in a cell that lies so many rows below and columns to the right of
the cell that it is written for. -/
def expand (formula : String) (rows cols : Int) : String :=
  if rows = 0 ∧ cols = 0 then formula
  else String.ofList (moveOutsideQuotes rows cols formula.toList)

end Spreadsheet.SharedFormula
