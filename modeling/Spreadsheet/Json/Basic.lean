import Spreadsheet.Number.Text

/-!
JSON values and their compact text. The fields of an object are in the order of their names.
-/

namespace Spreadsheet

inductive JsonNumber
  | integer (n : Int)
  | decimal (x : Float)

inductive Json
  | null
  | boolean (b : Bool)
  | number (n : JsonNumber)
  | text (s : String)
  | array (items : List Json)
  | object (fields : List (String × Json))
deriving Inhabited

def JsonNumber.toFloat : JsonNumber → Float
  | integer n => Float.ofInt n
  | decimal x => x

/-- Decimals have a fraction or an exponent: exponents outside `1e-5` to `1e16` are written out,
with their sign. Of two shortest texts that are equally near the one with the even last digit is
taken. -/
def JsonNumber.style : Number.Style where
  least := -5
  greatest := 15
  plus := ['+']
  whole := ['.', '0']
  zero negative := if negative then "-0.0".toList else "0.0".toList
  tie := .even

namespace Json

/-- Sets a field of an object. -/
def setField (name : String) (v : Json) : List (String × Json) → List (String × Json)
  | [] => [(name, v)]
  | (other, w) :: rest =>
    if name < other then (name, v) :: (other, w) :: rest
    else if name = other then (name, v) :: rest
    else (other, w) :: setField name v rest

/-- The object with the given fields, the last one of each name. -/
def ofFields (fields : List (String × Json)) : Json :=
  object (fields.foldl (fun acc (name, v) => setField name v acc) [])

def field? (j : Json) (name : String) : Option Json :=
  match j with
  | object fields => fields.lookup name
  | _ => none

/-! ### Text -/

def hexDigit (n : Nat) : Char := Nat.digitChar (n % 16)

/-- A character inside quotes. -/
def writeChar (c : Char) : List Char :=
  if c == '"' then ['\\', '"']
  else if c == '\\' then ['\\', '\\']
  else if c == '\n' then ['\\', 'n']
  else if c == '\r' then ['\\', 'r']
  else if c == '\t' then ['\\', 't']
  else if c == '\x08' then ['\\', 'b']
  else if c == '\x0c' then ['\\', 'f']
  else if c.toNat < 0x20 then ['\\', 'u', '0', '0', hexDigit (c.toNat / 16), hexDigit c.toNat]
  else [c]

def writeText (s : String) : List Char := '"' :: s.toList.flatMap writeChar ++ ['"']

def writeNumber : JsonNumber → List Char
  | .integer n => (toString n).toList
  | .decimal x => (JsonNumber.style.write x).toList

mutual

/-- The text of a value, without white space. -/
def write : Json → List Char
  | null => "null".toList
  | boolean true => "true".toList
  | boolean false => "false".toList
  | number n => writeNumber n
  | text s => writeText s
  | array items => '[' :: writeItems items ++ [']']
  | object fields => '\x7b' :: writeFields fields ++ ['\x7d']

def writeItems : List Json → List Char
  | [] => []
  | [v] => v.write
  | v :: rest => v.write ++ ',' :: writeItems rest

def writeFields : List (String × Json) → List Char
  | [] => []
  | [(name, v)] => writeText name ++ ':' :: v.write
  | (name, v) :: rest => writeText name ++ ':' :: v.write ++ ',' :: writeFields rest

end

def toText (j : Json) : String := String.ofList j.write

end Json

end Spreadsheet
