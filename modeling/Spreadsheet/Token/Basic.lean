import Spreadsheet.ErrorValue
import Spreadsheet.Range

/-!
Tokens of a formula and their places in its text.
-/

namespace Spreadsheet

/-- A line and a column of a text, both from 1. -/
structure Place where
  line : Nat
  column : Nat
deriving DecidableEq, Repr

namespace Place

def start : Place := ⟨1, 1⟩

/-- The place after a character. -/
def next (p : Place) (c : Char) : Place :=
  if c = '\n' then ⟨p.line + 1, 1⟩ else ⟨p.line, p.column + 1⟩

/-- The place after a text. -/
def after (p : Place) (cs : List Char) : Place := cs.foldl next p

end Place

/-- Operators and delimiters. -/
inductive Symbol
  | plus
  | minus
  | star
  | slash
  | caret
  | percent
  | ampersand
  | equal
  | notEqual
  | less
  | lessEqual
  | greater
  | greaterEqual
  | colon
  | comma
  | semicolon
  | leftParen
  | rightParen
  | leftBrace
  | rightBrace
deriving DecidableEq, Repr

inductive TokenKind
  | number (x : Float)
  | text (s : String)
  | boolean (b : Bool)
  | error (e : ErrorValue)
  /-- The name of a function or of a variable. -/
  | ident (name : String)
  | cell (a : Address)
  /-- Whole columns such as `A:C` or whole rows such as `1:3`. -/
  | area (r : Range)
  /-- A sheet name with its `!`. -/
  | sheet (name : String)
  | symbol (s : Symbol)
deriving DecidableEq

structure Token where
  kind : TokenKind
  lexeme : String
  place : Place
  /-- White space stands before the token. -/
  spaceBefore : Bool
deriving DecidableEq

/-- The symbol that a token is. -/
def Token.symbol? (t : Token) : Option Symbol :=
  match t.kind with
  | .symbol s => some s
  | _ => none

/-- The tokens of a text and the place where it ends. -/
structure Lexed where
  tokens : List Token
  stop : Place
  spaceBeforeStop : Bool

end Spreadsheet
