import Spreadsheet.Expr.Basic
import Spreadsheet.Token.Lexer

/-!
From tokens to formulas. The levels of the grammar, loosest first: comparisons, `&`, `+` and `-`,
`*` and `/`, `^` to the right, signs, `%`, intersection by white space, `:`, and primaries. Each
level is a parser made from the next tighter one.
-/

namespace Spreadsheet

/-- Why tokens are no formula. A token that was found is given by its lexeme, none at the end. -/
inductive GrammarCause
  | unexpected (found : Option String)
  | expectedClose (found : Option String)
  | spansSheets
  | rangeOperands
  | unionOperands
  | noCellAfterSheet
  | notLiteral
  | unequalRows
deriving DecidableEq

def GrammarCause.message : GrammarCause → String
  | .unexpected none => "Unexpected end of formula"
  | .unexpected (some lexeme) => s!"Unexpected token '{lexeme}'"
  | .expectedClose none => "Expected ')' but found end of formula"
  | .expectedClose (some lexeme) => s!"Expected ')' but found '{lexeme}'"
  | .spansSheets => "Range cannot span sheets"
  | .rangeOperands => "Range operands must be references"
  | .unionOperands => "Union operands must be references"
  | .noCellAfterSheet => "Expected a cell reference after sheet name"
  | .notLiteral => "Array constants may only contain literals"
  | .unequalRows => "Array rows must all have the same length"

namespace Parser

/-- A cause with the tokens from the one at fault on. -/
structure Fault where
  cause : GrammarCause
  rest : List Token

end Parser

/-- Reads something from the head of a list of tokens and gives the tokens that are left. -/
abbrev Parser (α : Type) := List Token → Except Parser.Fault (α × List Token)

namespace Parser

def lexeme? (ts : List Token) : Option String := ts.head?.map Token.lexeme

def unexpected (ts : List Token) : Except Fault α := .error ⟨.unexpected (lexeme? ts), ts⟩

def headSymbol? (ts : List Token) : Option Symbol := ts.head?.bind Token.symbol?

/-- The tokens after a symbol at the head. -/
def after? (s : Symbol) (ts : List Token) : Option (List Token) :=
  if headSymbol? ts = some s then some ts.tail else none

/-- Passes over the closing parenthesis at the head. -/
def close (ts : List Token) : Except Fault (List Token) :=
  match after? .rightParen ts with
  | some rest => .ok rest
  | none => .error ⟨.expectedClose (lexeme? ts), ts⟩

/-! ### Primaries -/

/-- The parts of a union after the first, each behind a comma. At most `n` are read, which is enough
if `n` bounds the number of tokens. -/
def unionParts (nested : Parser Expr) : Nat → Parser (List Expr)
  | 0, ts => .ok ([], ts)
  | n + 1, ts =>
    match after? .comma ts with
    | none => .ok ([], ts)
    | some rest => do
      let (part, rest) ← nested rest
      if !part.isReference then throw ⟨.unionOperands, ts⟩
      let (parts, rest) ← unionParts nested n rest
      return (part :: parts, rest)

/-- What stands in parentheses, after the opening one. -/
def parenthesized (nested : Parser Expr) : Parser Expr := fun ts => do
  let (first, rest) ← nested ts
  let (parts, rest) ← unionParts nested rest.length rest
  if parts.isEmpty then
    return (first, ← close rest)
  else if !first.isReference then throw ⟨.unionOperands, rest⟩
  else return (.union (first :: parts), ← close rest)

/-- The arguments of a call up to its closing parenthesis, at least one slot. At most `n` slots are
read, which is enough if `n` bounds the number of tokens. -/
def arguments (nested : Parser Expr) : Nat → Parser (List Expr)
  | 0, ts => unexpected ts
  | n + 1, ts => do
    let slotEnds := headSymbol? ts = some .comma ∨ headSymbol? ts = some .rightParen
    let (arg, rest) ← if slotEnds then .ok (.omitted, ts) else nested ts
    match after? .comma rest, after? .rightParen rest with
    | some rest, _ =>
      let (args, rest) ← arguments nested n rest
      return (arg :: args, rest)
    | none, some rest => return ([arg], rest)
    | none, none => unexpected rest

/-- A call after its opening parenthesis. -/
def call (nested : Parser Expr) (name : String) : Parser Expr := fun ts => do
  let function := String.ofList (Unicode.upper name.toList)
  match after? .rightParen ts with
  | some rest => return (.call function [], rest)
  | none =>
    let (args, rest) ← arguments nested ts.length ts
    return (.call function args, rest)

/-- The literal that a token is; only a number takes a minus. -/
def literal? (negative : Bool) (t : Token) : Option Literal :=
  match t.kind with
  | .number x => some (.number (if negative then -x else x))
  | .text s => if negative then none else some (.text s)
  | .boolean b => if negative then none else some (.boolean b)
  | .error e => if negative then none else some (.error e)
  | _ => none

/-- An element of an array constant, with an optional sign. -/
def element : Parser Literal := fun ts =>
  let negative := headSymbol? ts = some .minus
  let rest := if negative ∨ headSymbol? ts = some .plus then ts.tail else ts
  match rest with
  | t :: rest' =>
    match literal? negative t with
    | some l => .ok (l, rest')
    | none => .error ⟨.notLiteral, rest⟩
  | [] => .error ⟨.notLiteral, []⟩

/-- Puts an element before the first of the rows. -/
def consElement (l : Literal) : List (List Literal) → List (List Literal)
  | row :: rows => (l :: row) :: rows
  | [] => [[l]]

/-- The rows of an array constant up to its closing brace. At most `n` elements are read, which is
enough if `n` bounds the number of tokens. -/
def arrayRows : Nat → Parser (List (List Literal))
  | 0, ts => unexpected ts
  | n + 1, ts => do
    let (l, rest) ← element ts
    match headSymbol? rest with
    | some .comma =>
      let (rows, rest) ← arrayRows n rest.tail
      return (consElement l rows, rest)
    | some .semicolon =>
      let (rows, rest) ← arrayRows n rest.tail
      return ([l] :: rows, rest)
    | some .rightBrace => return ([[l]], rest.tail)
    | _ => unexpected rest

def equalRows (rows : List (List α)) : Bool :=
  rows.all fun row => row.length == (rows.headD []).length

/-- An array constant, which starts with its opening brace. -/
def arrayConstant : Parser Expr := fun ts => do
  let (rows, rest) ← arrayRows ts.length ts.tail
  if equalRows rows then return (.array rows, rest) else throw ⟨.unequalRows, ts⟩

/-- The reference after a sheet name. -/
def onSheet (sheet : String) : Parser Expr := fun ts =>
  match ts with
  | t :: rest =>
    match t.kind with
    | .cell a => .ok (.cell ⟨some sheet, a⟩, rest)
    | .area r => .ok (.range ⟨some sheet, r⟩, rest)
    | _ => .error ⟨.noCellAfterSheet, ts⟩
  | [] => .error ⟨.noCellAfterSheet, []⟩

def primary (nested : Parser Expr) : Parser Expr := fun ts =>
  match ts with
  | [] => unexpected []
  | t :: rest =>
    match t.kind with
    | .number x => .ok (.literal (.number x), rest)
    | .text s => .ok (.literal (.text s), rest)
    | .boolean b => .ok (.literal (.boolean b), rest)
    | .error e => .ok (.literal (.error e), rest)
    | .cell a => .ok (.cell ⟨none, a⟩, rest)
    | .area r => .ok (.range ⟨none, r⟩, rest)
    | .sheet sheet => onSheet sheet rest
    | .ident name =>
      match after? .leftParen rest with
      | some rest => call nested name rest
      | none => .ok (.name name, rest)
    | .symbol .leftParen => parenthesized nested rest
    | .symbol .leftBrace => arrayConstant ts
    | .symbol _ => unexpected ts

/-! ### Reference operators -/

/-- Both sides name a sheet and the names differ. -/
def sheetsDiffer : Option String → Option String → Bool
  | some a, some b => !Unicode.sameAscii a b
  | _, _ => false

/-- What a colon makes of its sides: two cells are a range at once, other references only when the
formula is evaluated. -/
def joinRange : Expr → Expr → Except GrammarCause Expr
  | .cell a, .cell b =>
    if sheetsDiffer a.sheet b.sheet then .error .spansSheets
    else .ok (.range ⟨a.sheet <|> b.sheet, .ofCorners a.address b.address⟩)
  | left, right =>
    if left.isReference && right.isReference then .ok (.binary (.reference .range) left right)
    else .error .rangeOperands

/-- The operands that colons join to `left`, at most `n`. -/
def rangeChain (next : Parser Expr) : Nat → Expr → Parser Expr
  | 0, left, ts => .ok (left, ts)
  | n + 1, left, ts =>
    match after? .colon ts with
    | none => .ok (left, ts)
    | some rest => do
      let (right, rest) ← next rest
      match joinRange left right with
      | .ok joined => rangeChain next n joined rest
      | .error cause => .error ⟨cause, ts⟩

def rangeLevel (next : Parser Expr) : Parser Expr := fun ts => do
  let (left, rest) ← next ts
  rangeChain next rest.length left rest

/-- A token that may start a reference. -/
def startsReference (t : Token) : Bool :=
  match t.kind with
  | .cell _ | .area _ | .sheet _ | .ident _ | .symbol .leftParen => true
  | _ => false

/-- The operands that white space joins to `left`, at most `n`. -/
def intersectChain (next : Parser Expr) : Nat → Expr → Parser Expr
  | 0, left, ts => .ok (left, ts)
  | n + 1, left, ts =>
    if left.isReference && ts.head?.any (fun t => t.spaceBefore && startsReference t) then do
      let (right, rest) ← next ts
      intersectChain next n (.binary (.reference .intersect) left right) rest
    else .ok (left, ts)

def intersectLevel (next : Parser Expr) : Parser Expr := fun ts => do
  let (left, rest) ← next ts
  intersectChain next rest.length left rest

/-! ### Operators on values -/

/-- The percent signs after an operand. -/
def percents : Expr → List Token → Expr × List Token
  | e, [] => (e, [])
  | e, t :: rest => if t.symbol? = some .percent then percents (.percent e) rest else (e, t :: rest)

def percentLevel (next : Parser Expr) : Parser Expr := fun ts => (next ts).map fun (e, rest) =>
  percents e rest

def signOp? : Symbol → Option SignOp
  | .plus => some .plus
  | .minus => some .negate
  | _ => none

/-- The signs before an operand. -/
def signLevel (next : Parser Expr) : Parser Expr
  | [] => next []
  | t :: rest =>
    match t.symbol?.bind signOp? with
    | some op => (signLevel next rest).map fun (e, rest) => (.sign op e, rest)
    | none => next (t :: rest)

/-- A base and the exponent after each `^`, at most `n`. -/
def powerChain (next : Parser Expr) : Nat → Parser Expr
  | 0, ts => next ts
  | n + 1, ts => do
    let (base, rest) ← next ts
    match after? .caret rest with
    | some rest =>
      let (exponent, rest) ← powerChain next n rest
      return (.binary (.value (.arithmetic .power)) base exponent, rest)
    | none => return (base, rest)

def powerLevel (next : Parser Expr) : Parser Expr := fun ts => powerChain next ts.length ts

/-- The operands that operators of one level join to `left`, at most `n`. -/
def leftChain (op? : Symbol → Option ValueOp) (next : Parser Expr) : Nat → Expr → Parser Expr
  | 0, left, ts => .ok (left, ts)
  | n + 1, left, ts =>
    match (headSymbol? ts).bind op? with
    | none => .ok (left, ts)
    | some op => do
      let (right, rest) ← next ts.tail
      leftChain op? next n (.binary (.value op) left right) rest

def leftLevel (op? : Symbol → Option ValueOp) (next : Parser Expr) : Parser Expr := fun ts => do
  let (left, rest) ← next ts
  leftChain op? next rest.length left rest

def multiplyOp? : Symbol → Option ValueOp
  | .star => some (.arithmetic .multiply)
  | .slash => some (.arithmetic .divide)
  | _ => none

def addOp? : Symbol → Option ValueOp
  | .plus => some (.arithmetic .add)
  | .minus => some (.arithmetic .subtract)
  | _ => none

def concatOp? : Symbol → Option ValueOp
  | .ampersand => some .concat
  | _ => none

def compareOp? : Symbol → Option ValueOp
  | .equal => some (.comparison .equal)
  | .notEqual => some (.comparison .notEqual)
  | .less => some (.comparison .less)
  | .lessEqual => some (.comparison .lessEqual)
  | .greater => some (.comparison .greater)
  | .greaterEqual => some (.comparison .greaterEqual)
  | _ => none

/-- All levels, over a parser for what stands in parentheses. -/
def levels (nested : Parser Expr) : Parser Expr :=
  leftLevel compareOp? <| leftLevel concatOp? <| leftLevel addOp? <| leftLevel multiplyOp? <|
    powerLevel <| signLevel <| percentLevel <| intersectLevel <| rangeLevel <| primary nested

/-- A formula whose parentheses nest at most `depth` deep; a list of `depth` tokens has no deeper
ones. -/
def expression : (depth : Nat) → Parser Expr
  | 0 => unexpected
  | depth + 1 => levels (expression depth)

/-- A list of tokens as a whole. -/
def formula (ts : List Token) : Except Fault Expr := do
  match ← expression ts.length ts with
  | (e, []) => return e
  | (_, rest) => unexpected rest

end Parser

/-- Why a text is no formula. -/
inductive SyntaxCause
  | lexical (cause : LexCause)
  | grammar (cause : GrammarCause)
deriving DecidableEq

def SyntaxCause.message : SyntaxCause → String
  | .lexical cause => cause.message
  | .grammar cause => cause.message

structure SyntaxError where
  place : Place
  cause : SyntaxCause
deriving DecidableEq

def SyntaxError.message (e : SyntaxError) : String := e.cause.message

/-- The place of the token at fault, or the end of the text. -/
def Lexed.place (lexed : Lexed) (rest : List Token) : Place :=
  match rest with
  | t :: _ => t.place
  | [] => lexed.stop

/-- Reads the text of a formula. -/
def parseFormula (text : String) : Except SyntaxError Expr :=
  match tokenize text with
  | .error e => .error ⟨e.place, .lexical e.cause⟩
  | .ok lexed =>
    match Parser.formula lexed.tokens with
    | .ok e => .ok e
    | .error fault => .error ⟨lexed.place fault.rest, .grammar fault.cause⟩

end Spreadsheet
