import Spreadsheet.Function.Basic
import Spreadsheet.Number.Integral
import Spreadsheet.Pattern

/-!
Functions of text. Lengths and positions count characters.
-/

namespace Spreadsheet.Text

open Number (truncate toNat64)

def charsAt (args : List Argument) (i : Nat) : Result (List Char) := do
  return (← textAt args i).toList

/-- A count or position at an index, its fraction cut off. Empty text reads as 0, and `default` is
for one that is not given. -/
def countAt (args : List Argument) (i : Nat) (default : Float) : Result Float :=
  match givenAt? args i with
  | none => .ok default
  | some (.text "") => .ok 0
  | some v => truncate <$> v.toNumber

/-- The number of characters before a position. Positions are words of 64 bits, and NaN is the one
before the first: it lies behind every text. -/
def charsBefore (position : Float) : Nat := (position.toUInt64 - 1).toNat

/-- A function from text to text. -/
def mapped (f : List Char → List Char) (args : List Argument) : Result Value := do
  return .text (String.ofList (f (← charsAt args 0)))

/-! ### Characters -/

/-- Full-width forms become the ASCII characters that they are forms of. -/
def halfWidth (c : Char) : Char :=
  if 0xff01 ≤ c.toNat && c.toNat ≤ 0xff5e then Char.ofNat (c.toNat - 0xfee0) else c

def isControl (c : Char) : Bool := c.toNat < 0x20

def char (args : List Argument) : Result Value := do
  let x := truncate (← numberAt args 0)
  if !Number.within 1 255 x then throw .value
  return .text (Char.ofNat (toNat64 x)).toString

/-- The character with a code point. -/
def unichar (args : List Argument) : Result Value := do
  let x := truncate (← numberAt args 0)
  if x < 1 then throw .value
  let n := toNat64 x
  if n.isValidChar then return .text (Char.ofNat n).toString else throw .value

/-- The code point of the first character. -/
def code (args : List Argument) : Result Float := do
  let c ← orError .value (← charsAt args 0).head?
  return Float.ofNat c.toNat

/-! ### Letter case -/

/-- Words begin with a capital and go on in small letters. -/
def properFrom (afterLetter : Bool) : List Char → List Char
  | [] => []
  | c :: rest =>
    (if afterLetter then Unicode.lowerChar c else Unicode.upperChar c) ++
      properFrom (Unicode.isAlphabetic c) rest

/-! ### Pieces -/

def left (args : List Argument) : Result Value := do
  let cs ← charsAt args 0
  let n ← countAt args 1 1
  if n < 0 then throw .value
  return .text (String.ofList (cs.take (toNat64 n)))

def right (args : List Argument) : Result Value := do
  let cs ← charsAt args 0
  let n ← countAt args 1 1
  if n < 0 then throw .value
  return .text (String.ofList (cs.drop (cs.length - toNat64 n)))

def mid (args : List Argument) : Result Value := do
  let cs ← charsAt args 0
  let start ← countAt args 1 1
  let n ← countAt args 2 0
  if start < 1 || n < 0 then throw .value
  return .text (String.ofList ((cs.drop (charsBefore start)).take (toNat64 n)))

def replace (args : List Argument) : Result Value := do
  let cs ← charsAt args 0
  let start ← countAt args 1 1
  let n ← countAt args 2 0
  let new ← charsAt args 3
  if start < 1 || n < 0 then throw .value
  let i := charsBefore start
  return .text (String.ofList (cs.take i ++ new ++ (cs.drop i).drop (toNat64 n)))

def len (args : List Argument) : Result Float := do
  return Float.ofNat (← charsAt args 0).length

def maxLength : Float := 32767

def rept (args : List Argument) : Result Value := do
  let cs ← charsAt args 0
  let times ← countAt args 1 0
  if times < 0 || maxLength < Float.ofNat cs.length * times then throw .value
  let copies := if cs.isEmpty then [] else List.replicate (toNat64 times) cs
  return .text (String.ofList copies.flatten)

/-! ### Finding -/

/-- The number of characters before the start position at an index; the position must lie in the
text, the first being in every text. -/
def startAt (args : List Argument) (i : Nat) (within : List Char) : Result Nat := do
  let start ← countAt args i 1
  if start < 1 || Float.ofNat (max within.length 1) < start then throw .value
  return charsBefore start

/-- The first place where a text stands in another. -/
def findPiece? (piece : List Char) : List Char → Option Nat
  | [] => if piece.isEmpty then some 0 else none
  | c :: cs =>
    if piece.isPrefixOf (c :: cs) then some 0 else (findPiece? piece cs).map (· + 1)

/-- The position that a search finds in the second argument from the start position on. -/
def position (search : List Char → List Char → Option Nat) (args : List Argument) :
    Result Float := do
  let piece ← charsAt args 0
  let within ← charsAt args 1
  let skipped := min (← startAt args 2 within) within.length
  let found ← orError .value (search piece (within.drop skipped))
  return Float.ofNat (skipped + found + 1)

def find : List Argument → Result Float := position findPiece?

/-- Finds a wildcard pattern in either letter case. -/
def search : List Argument → Result Float := position fun piece => (Pattern.parse piece).find?

/-! ### Joining and testing -/

/-- Joins all values, arrays expanded. -/
def concat (args : List Argument) : Result Value := do
  return .text (String.join (← (expandedValues args).mapM fun (v, _) => v.toText))

/-- Joins the arguments, an array giving its top left element. -/
def concatenate (args : List Argument) : Result Value := do
  return .text (String.join (← args.mapM fun a => a.value.toText))

def exact (args : List Argument) : Result Value := do
  return .boolean ((← textAt args 0) == (← textAt args 1))

/-- Text stays, and other values become empty. -/
def t (args : List Argument) : Result Value := do
  match (← valueAt args 0).scalar with
  | .text s => return .text s
  | .error e => throw e
  | _ => return .text ""

def functions : List Function := [
  .ofValues "ASC" .text 1 (some 1) (mapped (List.map halfWidth)),
  .ofValues "CHAR" .text 1 (some 1) char,
  .ofValues "CLEAN" .text 1 (some 1) (mapped (List.filter (!isControl ·))),
  .ofNumbers "CODE" .text 1 (some 1) code,
  .ofValues "CONCAT" .text 1 none concat,
  .ofValues "CONCATENATE" .text 1 none concatenate,
  .ofValues "EXACT" .text 2 (some 2) exact,
  .ofNumbers "FIND" .text 2 (some 3) find,
  .ofValues "LEFT" .text 1 (some 2) left,
  .ofNumbers "LEN" .text 1 (some 1) len,
  .ofValues "LOWER" .text 1 (some 1) (mapped Unicode.lower),
  .ofValues "MID" .text 3 (some 3) mid,
  .ofValues "PROPER" .text 1 (some 1) (mapped (properFrom false)),
  .ofValues "REPLACE" .text 4 (some 4) replace,
  .ofValues "REPT" .text 2 (some 2) rept,
  .ofValues "RIGHT" .text 1 (some 2) right,
  .ofNumbers "SEARCH" .text 2 (some 3) search,
  .ofValues "T" .text 1 (some 1) t,
  .ofValues "TRIM" .text 1 (some 1) (mapped Unicode.trim),
  .ofValues "UNICHAR" .text 1 (some 1) unichar,
  .ofNumbers "UNICODE" .text 1 (some 1) code,
  .ofValues "UPPER" .text 1 (some 1) (mapped Unicode.upper)]

end Spreadsheet.Text
