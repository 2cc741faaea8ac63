/-!
Roman numerals in their standard form: thousands as repeated M, then hundreds, tens and units, each
in the subtractive way. Whether a text is a numeral depends on the groups that it falls into, and
its value on the letters and pairs of letters that are read from left to right.
-/

namespace Spreadsheet.Number

/-- The letters for one, five and ten of a decimal place. -/
structure RomanPlace where
  one : Char
  five : Char
  ten : Char

namespace RomanPlace

def hundreds : RomanPlace := ⟨'C', 'D', 'M'⟩

def tens : RomanPlace := ⟨'X', 'L', 'C'⟩

def units : RomanPlace := ⟨'I', 'V', 'X'⟩

/-- The groups of letters that stand for a place: an optional five and up to three ones, or a one
before a ten or a five. -/
def groups (p : RomanPlace) : List (List Char) :=
  let ones := (List.range 4).map fun n => List.replicate n p.one
  ones.map (p.five :: ·) ++ ones ++ [[p.one, p.ten], [p.one, p.five]]

/-- What a text can leave after a group of the place. -/
def rests (p : RomanPlace) (cs : List Char) : List (List Char) :=
  (p.groups.filter (·.isPrefixOf cs)).map fun group => cs.drop group.length

end RomanPlace

/-- What a text can leave after any number of thousands. -/
def afterThousands (cs : List Char) : List (List Char) :=
  match cs with
  | 'M' :: rest => cs :: afterThousands rest
  | _ => [cs]

/-- Whether a text in capitals is a Roman numeral; the empty text is one. -/
def isRoman (cs : List Char) : Bool :=
  let afterHundreds := (afterThousands cs).flatMap RomanPlace.hundreds.rests
  let afterTens := afterHundreds.flatMap RomanPlace.tens.rests
  (afterTens.flatMap RomanPlace.units.rests).any List.isEmpty

/-- The sum of what the letters stand for. A one before a ten or a five of its place counts together
with it, and what is no Roman letter counts nothing. -/
def romanSum : List Char → Nat
  | 'C' :: 'M' :: rest => 900 + romanSum rest
  | 'C' :: 'D' :: rest => 400 + romanSum rest
  | 'X' :: 'C' :: rest => 90 + romanSum rest
  | 'X' :: 'L' :: rest => 40 + romanSum rest
  | 'I' :: 'X' :: rest => 9 + romanSum rest
  | 'I' :: 'V' :: rest => 4 + romanSum rest
  | 'M' :: rest => 1000 + romanSum rest
  | 'D' :: rest => 500 + romanSum rest
  | 'C' :: rest => 100 + romanSum rest
  | 'L' :: rest => 50 + romanSum rest
  | 'X' :: rest => 10 + romanSum rest
  | 'V' :: rest => 5 + romanSum rest
  | 'I' :: rest => 1 + romanSum rest
  | _ :: rest => romanSum rest
  | [] => 0

/-- The value of a Roman numeral in capitals, as a word of 32 bits. -/
def ofRoman? (cs : List Char) : Option UInt32 :=
  if isRoman cs then some (UInt32.ofNat (romanSum cs)) else none

end Spreadsheet.Number
