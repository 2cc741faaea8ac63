import Spreadsheet.Unicode.Case

/-!
Wildcard patterns: `*` stands for any text, `?` for one character, `~` for the next character
itself, and other characters for themselves in either case.
-/

namespace Spreadsheet

/-- A part of a pattern. -/
inductive Wildcard
  | anyText
  | anyChar
  | char (c : Char)
deriving DecidableEq, Repr

abbrev Pattern := List Wildcard

namespace Wildcard

/-- Whether a part that takes one character takes `c`. -/
def accepts : Wildcard → Char → Bool
  | anyText, _ | anyChar, _ => true
  | char d, c => Unicode.foldChar c == Unicode.foldChar d

end Wildcard

namespace Pattern

/-- Reads a pattern; a `~` at the end stands for itself. -/
def parse : List Char → Pattern
  | [] => []
  | ['~'] => [.char '~']
  | '~' :: c :: rest => .char c :: parse rest
  | '*' :: rest => .anyText :: parse rest
  | '?' :: rest => .anyChar :: parse rest
  | c :: rest => .char c :: parse rest

/-- From the suffixes that the rest of a pattern matches, those that a part for one character and
the rest match. There is one entry for each suffix of the text, the empty one last. -/
def stepChar (accepts : Char → Bool) : List Char → List Bool → List Bool
  | c :: cs, _ :: rest => (accepts c && rest.headD false) :: stepChar accepts cs rest
  | _, _ => [false]

/-- From the suffixes that the rest of a pattern matches, those with such a suffix in them. -/
def stepText : List Bool → List Bool
  | [] => []
  | b :: rest =>
    let rest := stepText rest
    (b || rest.headD false) :: rest

def step (cs : List Char) : Wildcard → List Bool → List Bool
  | .anyText, row => stepText row
  | w, row => stepChar w.accepts cs row

/-- For each suffix of a text, whether the pattern matches it up to a suffix that `last` marks. -/
def suffixes (p : Pattern) (cs : List Char) (last : List Bool) : List Bool := p.foldr (step cs) last

/-- Whether a pattern matches a whole text. -/
def holds (p : Pattern) (cs : List Char) : Bool :=
  (p.suffixes cs (List.replicate cs.length false ++ [true])).headD false

/-- The first place in a text from which some piece of it matches. -/
def find? (p : Pattern) (cs : List Char) : Option Nat :=
  (p.suffixes cs (List.replicate (cs.length + 1) true)).findIdx? id

end Pattern

end Spreadsheet
