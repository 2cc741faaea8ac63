import Spreadsheet.Token.Basic
import Spreadsheet.Unicode.Letter

/-!
From text to tokens. `scan` reads one token from the head of a text and gives what is left of it;
`tokenize` reads them all and notes their places.
-/

namespace Spreadsheet

/-- Why a text has no tokens. -/
inductive LexCause
  | unexpected (c : Char)
  | openText
  | openSheet
  | noBang
  | unknownError
  | badRows
  | badFunction (name : String)
  | badReference (text : String)
deriving DecidableEq

def LexCause.message : LexCause → String
  | .unexpected c => s!"Unexpected character '{c}'"
  | .openText => "Unterminated string literal"
  | .openSheet => "Unterminated sheet name"
  | .noBang => "Expected '!' after sheet name"
  | .unknownError => "Unknown error literal"
  | .badRows => "Invalid row reference"
  | .badFunction name => s!"Invalid function name '{name}'"
  | .badReference text => s!"Invalid reference '{text}'"

structure LexError where
  place : Place
  cause : LexCause
deriving DecidableEq

namespace Lexer

/-- A cause with the number of characters of the token that stand before it. -/
structure Fault where
  offset : Nat
  cause : LexCause

/-- A token and the text that is left after it. -/
abbrev Scan := Except Fault (TokenKind × List Char)

/-- The symbols of one character that no longer symbol starts with. -/
def singleSymbol? : Char → Option Symbol
  | '+' => some .plus
  | '-' => some .minus
  | '*' => some .star
  | '/' => some .slash
  | '^' => some .caret
  | '%' => some .percent
  | '&' => some .ampersand
  | '=' => some .equal
  | ':' => some .colon
  | ',' => some .comma
  | ';' => some .semicolon
  | '(' => some .leftParen
  | ')' => some .rightParen
  | '{' => some .leftBrace
  | '}' => some .rightBrace
  | _ => none

def isDigitNext (cs : List Char) : Bool := cs.head?.any Char.isDigit

def startsIdent (c : Char) : Bool := Unicode.isAlphabetic c || c == '_' || c == '\\' || c == '$'

def continuesIdent (c : Char) : Bool :=
  Unicode.isAlphanumeric c || c == '_' || c == '$' || c == '.' || c == '\\'

/-- Takes the inside of quotes and the closing quote; a doubled quote stands for one. -/
def takeQuoted (quote : Char) : List Char → Option (List Char × List Char)
  | [] => none
  | [c] => if c = quote then some ([], []) else none
  | c :: d :: rest =>
    if c = quote then
      if d = quote then (takeQuoted quote rest).map fun (s, r) => (quote :: s, r)
      else some ([], d :: rest)
    else (takeQuoted quote (d :: rest)).map fun (s, r) => (c :: s, r)

/-- A text literal after its opening quote. -/
def scanText (cs : List Char) : Scan :=
  match takeQuoted '"' cs with
  | some (s, rest) => .ok (.text (String.ofList s), rest)
  | none => .error ⟨0, .openText⟩

/-- A quoted sheet name after its opening quote. -/
def scanSheet (cs : List Char) : Scan :=
  match takeQuoted '\x27' cs with
  | some (s, '!' :: rest) => .ok (.sheet (String.ofList s), rest)
  | some (_, rest) => .error ⟨cs.length + 1 - rest.length, .noBang⟩
  | none => .error ⟨0, .openSheet⟩

/-- An error literal. -/
def scanError (cs : List Char) : Scan :=
  let spelled (e : ErrorValue) : Bool :=
    Unicode.sameAscii e.text (String.ofList (cs.take e.text.length))
  match ErrorValue.literals.find? spelled with
  | some e => .ok (.error e, cs.drop e.text.length)
  | none => .error ⟨0, .unknownError⟩

/-- Takes whole rows such as `1:3` and `$2:$5`, which nothing that could go on a name may follow. -/
def takeRows (cs : List Char) : Option (Range × List Char) :=
  let (abs, r) := Address.takeDollar cs
  match Number.takeDigits r with
  | (first, ':' :: r) =>
    let (abs', r) := Address.takeDollar r
    let (last, rest) := Number.takeDigits r
    let row := Number.digitsValue first
    let row' := Number.digitsValue last
    if first.isEmpty || last.isEmpty
        || rest.head?.any (fun c => Unicode.isAlphanumeric c || c == '.' || c == '_' || c == '(')
        || row == 0 || row' == 0 || maxRow < row || maxRow < row' then none
    else some (.ofCorners ⟨row, 1, abs, true⟩ ⟨row', maxCol, abs', true⟩, rest)
  | _ => none

/-- Takes whole columns such as `A:C` and `$A:$C`, given the text before the colon and after it. -/
def takeColumns (left right : List Char) : Option (Range × List Char) :=
  let (abs, first) := Address.takeDollar left
  let (abs', r) := Address.takeDollar right
  let last := (r.takeWhile Char.isAlpha).take 3
  let rest := r.drop last.length
  if rest.head?.any fun c =>
      Unicode.isAlphanumeric c || c == '_' || c == '$' || c == '(' || c == '!' then none
  else
    match columnNumber (String.ofList first), columnNumber (String.ofList last) with
    | .ok col, .ok col' => some (.ofCorners ⟨1, col, true, abs⟩ ⟨maxRow, col', true, abs'⟩, rest)
    | _, _ => none

/-- A word that no `(`, `!` or whole column goes on. -/
def wordKind (word : List Char) : Except Fault TokenKind :=
  let text := String.ofList word
  match Address.parse text with
  | .ok a => .ok (.cell a)
  | .error _ =>
    if Unicode.sameAscii text "TRUE" then .ok (.boolean true)
    else if Unicode.sameAscii text "FALSE" then .ok (.boolean false)
    else if word.contains '$' then .error ⟨word.length, .badReference text⟩
    else .ok (.ident text)

/-- A name, a cell, whole columns, a sheet or a boolean. -/
def scanWord (cs : List Char) : Scan :=
  let (word, rest) := cs.span continuesIdent
  let text := String.ofList word
  let alone : Scan := (wordKind word).map fun kind => (kind, rest)
  match rest with
  | '(' :: _ =>
    if word.contains '$' then .error ⟨word.length, .badFunction text⟩ else .ok (.ident text, rest)
  | '!' :: r => .ok (.sheet text, r)
  | ':' :: r =>
    match takeColumns word r with
    | some (area, r) => .ok (.area area, r)
    | none => alone
  | _ => alone

/-- A numeral, which the text has at its head. -/
def scanNumeral (cs : List Char) : Scan :=
  match Number.takeNumeral cs with
  | some (n, rest) => .ok (.number n.toFloat, rest)
  | none => .error ⟨0, .unexpected (cs.headD '.')⟩

/-- The token at the head of the text `c :: cs`, which does not start with white space. -/
def scan (c : Char) (cs : List Char) : Scan :=
  match singleSymbol? c with
  | some s => .ok (.symbol s, cs)
  | none =>
    if c = '<' then
      match cs with
      | '=' :: r => .ok (.symbol .lessEqual, r)
      | '>' :: r => .ok (.symbol .notEqual, r)
      | _ => .ok (.symbol .less, cs)
    else if c = '>' then
      match cs with
      | '=' :: r => .ok (.symbol .greaterEqual, r)
      | _ => .ok (.symbol .greater, cs)
    else if c = '"' then scanText cs
    else if c = '\x27' then scanSheet cs
    else if c = '#' then scanError (c :: cs)
    else if c = '$' ∧ isDigitNext cs then
      match takeRows (c :: cs) with
      | some (area, r) => .ok (.area area, r)
      | none => .error ⟨0, .badRows⟩
    else if c.isDigit then
      match takeRows (c :: cs) with
      | some (area, r) => .ok (.area area, r)
      | none => scanNumeral (c :: cs)
    else if c = '.' ∧ isDigitNext cs then scanNumeral (c :: cs)
    else if startsIdent c then scanWord (c :: cs)
    else .error ⟨0, .unexpected c⟩

/-- The tokens of a text that starts at a place, after `skip` characters that belong to the token
before it. -/
def tokensFrom : List Char → (skip : Nat) → Place → (space : Bool) → Except LexError Lexed
  | [], _, place, space => .ok ⟨[], place, space⟩
  | c :: cs, skip + 1, place, space => tokensFrom cs skip (place.next c) space
  | c :: cs, 0, place, space =>
    if Unicode.isWhiteSpace c then tokensFrom cs 0 (place.next c) true
    else
      match scan c cs with
      | .error f => .error ⟨place.after ((c :: cs).take f.offset), f.cause⟩
      | .ok (kind, rest) =>
        let more := cs.length - rest.length
        let token := ⟨kind, String.ofList (c :: cs.take more), place, space⟩
        (tokensFrom cs more (place.next c) false).map fun lexed =>
          { lexed with tokens := token :: lexed.tokens }

end Lexer

/-- The tokens of a formula. White space and an equals sign at its head are passed over. -/
def tokenize (formula : String) : Except LexError Lexed :=
  let (lead, cs) := formula.toList.span Unicode.isWhiteSpace
  let place := Place.start.after lead
  match cs with
  | '=' :: rest => Lexer.tokensFrom rest 0 (place.next '=') false
  | _ => Lexer.tokensFrom cs 0 place false

end Spreadsheet
