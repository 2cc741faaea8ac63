import Spreadsheet.Json.Basic

/-!
Reading JSON. A text that is no JSON is refused with the cause and the place of the first fault.
-/

namespace Spreadsheet

/-- Why a text is no JSON. -/
inductive JsonCause
  | endInValue
  | endInArray
  | endInObject
  | endInText
  | noValue
  | noKeyword
  | noColon
  | noCommaInArray
  | noCommaInObject
  | noName
  | trailingComma
  | trailingText
  | badNumber
  | numberTooLarge
  | badEscape
  | loneSurrogate
  | openSurrogate
  | controlCharacter
  | tooDeep
deriving DecidableEq, Repr

def JsonCause.message : JsonCause → String
  | .endInValue => "EOF while parsing a value"
  | .endInArray => "EOF while parsing a list"
  | .endInObject => "EOF while parsing an object"
  | .endInText => "EOF while parsing a string"
  | .noValue => "expected value"
  | .noKeyword => "expected ident"
  | .noColon => "expected `:`"
  | .noCommaInArray => "expected `,` or `]`"
  | .noCommaInObject => "expected `,` or `\x7d`"
  | .noName => "key must be a string"
  | .trailingComma => "trailing comma"
  | .trailingText => "trailing characters"
  | .badNumber => "invalid number"
  | .numberTooLarge => "number out of range"
  | .badEscape => "invalid escape"
  | .loneSurrogate => "lone leading surrogate in hex escape"
  | .openSurrogate => "unexpected end of hex escape"
  | .controlCharacter => "control character (\\u0000-\\u001F) found while parsing a string"
  | .tooDeep => "recursion limit exceeded"

/-- The first fault of a text. Columns count bytes. -/
structure JsonError where
  cause : JsonCause
  line : Nat
  column : Nat

def JsonError.message (e : JsonError) : String :=
  s!"{e.cause.message} at line {e.line} column {e.column}"

namespace Json

/-- A fault at the text `rest`, the first `read` bytes of which have been read. -/
structure Fault where
  cause : JsonCause
  rest : List Char
  read : Nat

abbrev Parser (α : Type) := List Char → Except Fault (α × List Char)

/-- A fault behind what has been read. -/
def fail (cause : JsonCause) : Parser α := fun rest => .error ⟨cause, rest, 0⟩

/-- A fault at the next byte. -/
def failAtNext (cause : JsonCause) : Parser α := fun rest => .error ⟨cause, rest, 1⟩

def isBlank (c : Char) : Bool := c == ' ' || c == '\n' || c == '\t' || c == '\r'

def skipBlanks (cs : List Char) : List Char := cs.dropWhile isBlank

/-- Reads the rest of a keyword. -/
def keyword (v : Json) : (expected : List Char) → Parser Json
  | [], cs => .ok (v, cs)
  | _ :: _, [] => fail .endInValue []
  | e :: es, c :: cs => if c = e then keyword v es cs else failAtNext .noKeyword (c :: cs)

/-! ### Numbers -/

/-- Reads digits, of which one at least must be there. -/
def digits : Parser (List Char) := fun cs =>
  match Number.takeDigits cs with
  | ([], []) => failAtNext .endInValue []
  | ([], rest) => failAtNext .badNumber rest
  | (ds, rest) => .ok (ds, rest)

/-- Reads the digits of a whole number, which has no zero before other digits. -/
def wholeDigits : Parser (List Char) := fun cs =>
  match cs with
  | [] => fail .endInValue []
  | c :: rest =>
    if c = '0' then
      if (rest.head?.any Char.isDigit) then failAtNext .badNumber rest else .ok (['0'], rest)
    else if c.isDigit then .ok (Number.takeDigits cs)
    else failAtNext .badNumber cs

def fractionDigits : Parser (List Char)
  | '.' :: rest => digits rest
  | cs => .ok ([], cs)

/-- A written exponent. -/
structure Exponent where
  negative : Bool
  digits : List Char

def Exponent.value (e : Exponent) : Int :=
  if e.negative then -(Number.digitsValue e.digits : Int) else Number.digitsValue e.digits

/-- The digits of an exponent that follow the value `n` and stand behind the first one to bring it
beyond 32 bits. -/
def excessDigits (n : Nat) : (digits : List Char) → List Char
  | [] => []
  | d :: ds =>
    let n := 10 * n + (d.toNat - '0'.toNat)
    if n ≤ 2147483647 then excessDigits n ds else ds

/-- Reads an exponent with its sign, if there is one. -/
def exponent : Parser (Option Exponent) := fun cs =>
  match cs with
  | c :: rest =>
    if c = 'e' ∨ c = 'E' then
      let (negative, rest) := Number.takeSign rest
      match Number.takeDigits rest with
      | ([], []) => fail .endInValue []
      | ([], rest) => failAtNext .badNumber rest
      | (ds, rest) => .ok (some ⟨negative, ds⟩, rest)
    else .ok (none, cs)
  | [] => .ok (none, [])

/-- A whole number of 64 bits, with the sign that was written; `-0` is a decimal. -/
def integer? (negative : Bool) (n : Nat) : Option Int :=
  if negative then if 0 < n ∧ n ≤ 9223372036854775808 then some (-n) else none
  else if n < 18446744073709551616 then some n else none

/-- Reads a number after its sign. -/
def readNumber (negative : Bool) : Parser Json := fun cs => do
  let (whole, rest) ← wholeDigits cs
  let (fraction, rest) ← fractionDigits rest
  let (e, rest) ← exponent rest
  let written := fraction.isEmpty && e.isNone
  match if written then integer? negative (Number.digitsValue whole) else none with
  | some n => return (number (.integer n), rest)
  | none =>
    let x := Number.Numeral.toFloat ⟨whole, fraction, (e.map Exponent.value).getD 0⟩
    if x.isFinite then return (number (.decimal (if negative then -x else x)), rest)
    else
      let unread := (e.map fun e => excessDigits 0 e.digits).getD []
      fail .numberTooLarge (unread ++ rest)

/-! ### Texts -/

def hexValue? (c : Char) : Option Nat :=
  if c.isDigit then some (c.toNat - '0'.toNat)
  else if 'a' ≤ c ∧ c ≤ 'f' then some (c.toNat - 'a'.toNat + 10)
  else if 'A' ≤ c ∧ c ≤ 'F' then some (c.toNat - 'A'.toNat + 10)
  else none

/-- The bytes of a text in UTF-8. -/
def bytes (cs : List Char) : List UInt8 := cs.flatMap String.utf8EncodeChar

/-- Reads four hexadecimal digits. -/
def hexDigits : Parser Nat := fun cs =>
  if (bytes (cs.take 4)).length < 4 then fail .endInText []
  else
    match (cs.take 4).mapM hexValue? with
    | some ds => .ok (ds.foldl (fun n d => 16 * n + d) 0, cs.drop 4)
    | none => .error ⟨.badEscape, cs, 4⟩

/-- The characters that stand for one after a backslash. -/
def simpleEscape? (c : Char) : Option Char :=
  match c with
  | '"' | '\\' | '/' => some c
  | 'b' => some '\x08'
  | 'f' => some '\x0c'
  | 'n' => some '\n'
  | 'r' => some '\r'
  | 't' => some '\t'
  | _ => none

/-- Reads the character that must come next in an escape for a second surrogate. -/
def expectInEscape (expected : Char) : Parser Unit
  | [] => fail .endInText []
  | c :: rest =>
    if c = expected then .ok ((), rest) else failAtNext .openSurrogate (c :: rest)

/-- Reads a character by its code, which a pair of surrogates can give. -/
def codeEscape : Parser Char := fun cs => do
  let (n, rest) ← hexDigits cs
  if 0xDC00 ≤ n ∧ n ≤ 0xDFFF then fail .loneSurrogate rest
  else if 0xD800 ≤ n ∧ n ≤ 0xDBFF then do
    let (_, rest) ← expectInEscape '\\' rest
    let (_, rest) ← expectInEscape 'u' rest
    let (m, rest) ← hexDigits rest
    if 0xDC00 ≤ m ∧ m ≤ 0xDFFF then
      return (Char.ofNat ((n - 0xD800) * 0x400 + (m - 0xDC00) + 0x10000), rest)
    else fail .loneSurrogate rest
  else return (Char.ofNat n, rest)

/-- Reads what follows a backslash. -/
def escape : Parser Char
  | [] => fail .endInText []
  | 'u' :: rest => codeEscape rest
  | c :: rest =>
    match simpleEscape? c with
    | some d => .ok (d, rest)
    | none => failAtNext .badEscape (c :: rest)

/-- Reads a text after its opening quote, of at most `n` characters. -/
def chars : Nat → Parser (List Char)
  | _, [] => fail .endInText []
  | 0, cs => fail .endInText cs
  | n + 1, c :: rest =>
    if c = '"' then .ok ([], rest)
    else if c = '\\' then do
      let (d, rest) ← escape rest
      let (ds, rest) ← chars n rest
      return (d :: ds, rest)
    else if c.toNat < 0x20 then fail .controlCharacter rest
    else do
      let (ds, rest) ← chars n rest
      return (c :: ds, rest)

def readText : Parser String := fun cs => do
  let (ds, rest) ← chars (cs.length + 1) cs
  return (String.ofList ds, rest)

/-! ### Values -/

/-- Reads the items of an array after its bracket or after an item, at most `n`. -/
def items (item : Parser Json) : (n : Nat) → (first : Bool) → Parser (List Json)
  | 0, _, cs => failAtNext .endInArray cs
  | n + 1, first, cs =>
    match skipBlanks cs with
    | [] => failAtNext .endInArray []
    | ']' :: rest => .ok ([], rest)
    | c :: rest =>
      if first then next n (c :: rest)
      else if c = ',' then
        match skipBlanks rest with
        | [] => failAtNext .endInValue []
        | ']' :: rest => failAtNext .trailingComma (']' :: rest)
        | rest => next n rest
      else failAtNext .noCommaInArray (c :: rest)
where
  next (n : Nat) (cs : List Char) : Except Fault (List Json × List Char) := do
    let (v, rest) ← item cs
    let (vs, rest) ← items item n false rest
    return (v :: vs, rest)

def colon : Parser Unit := fun cs =>
  match skipBlanks cs with
  | [] => failAtNext .endInObject []
  | ':' :: rest => .ok ((), rest)
  | rest => failAtNext .noColon rest

/-- Reads the fields of an object after its brace or after a field, at most `n`. -/
def fields (item : Parser Json) : (n : Nat) → (first : Bool) → Parser (List (String × Json))
  | 0, _, cs => failAtNext .endInObject cs
  | n + 1, first, cs =>
    match skipBlanks cs with
    | [] => failAtNext .endInObject []
    | '\x7d' :: rest => .ok ([], rest)
    | c :: rest =>
      if first then
        if c = '"' then next n rest else failAtNext .noName (c :: rest)
      else if c = ',' then
        match skipBlanks rest with
        | [] => failAtNext .endInValue []
        | '\x7d' :: rest => failAtNext .trailingComma ('\x7d' :: rest)
        | '"' :: rest => next n rest
        | rest => failAtNext .noName rest
      else failAtNext .noCommaInObject (c :: rest)
where
  next (n : Nat) (cs : List Char) : Except Fault (List (String × Json) × List Char) := do
    let (name, rest) ← readText cs
    let (_, rest) ← colon rest
    let (v, rest) ← item rest
    let (more, rest) ← fields item n false rest
    return ((name, v) :: more, rest)

/-- Reads a value in which arrays and objects nest at most `depth` deep. -/
def value (depth : Nat) : Parser Json := fun cs =>
  match skipBlanks cs with
  | [] => failAtNext .endInValue []
  | c :: rest =>
    if c = 'n' then keyword null "ull".toList rest
    else if c = 't' then keyword (boolean true) "rue".toList rest
    else if c = 'f' then keyword (boolean false) "alse".toList rest
    else if c = '-' then readNumber true rest
    else if c.isDigit then readNumber false (c :: rest)
    else if c = '"' then (readText rest).map fun (s, rest) => (text s, rest)
    else if c = '[' then
      match depth with
      | 0 => failAtNext .tooDeep (c :: rest)
      | depth + 1 =>
        (items (value depth) (rest.length + 1) true rest).map fun (vs, rest) => (array vs, rest)
    else if c = '\x7b' then
      match depth with
      | 0 => failAtNext .tooDeep (c :: rest)
      | depth + 1 =>
        (fields (value depth) (rest.length + 1) true rest).map fun (vs, rest) => (ofFields vs, rest)
    else failAtNext .noValue (c :: rest)

/-- How deep arrays and objects nest at most. -/
def maxDepth : Nat := 127

/-- The place of a fault in a text: the line, from 1, and the bytes of it that have been read. -/
def place (text : List Char) (f : Fault) : Nat × Nat :=
  let read := (bytes text).take ((bytes text).length - (bytes f.rest).length + f.read)
  (1 + read.count 10, (read.reverse.takeWhile (· != 10)).length)

/-- Reads a whole text. -/
def parse (s : String) : Except JsonError Json :=
  let cs := s.toList
  let outcome : Except Fault Json := do
    let (v, rest) ← value maxDepth cs
    match skipBlanks rest with
    | [] => return v
    | rest => failAtNext .trailingText rest |>.map Prod.fst
  outcome.mapError fun f =>
    let (line, column) := place cs f
    ⟨f.cause, line, column⟩

end Json

end Spreadsheet
