import Mathlib.Data.List.Forall2
import Spreadsheet.Expr.Parser

/-!
The grammar of formulas as derivations, apart from any way to find them. A derivation covers all of
its tokens. The main results are in `Grammar.Completeness`: the parser accepts exactly the formulas
that have a derivation, and none has derivations of two trees.
-/

namespace Spreadsheet

/-- The levels of the grammar, loosest first. -/
inductive Level
  | comparison
  | concatenation
  | sum
  | product
  | power
  | sign
  | percent
  | intersection
  | range
  | primary
deriving DecidableEq, Repr

namespace Level

/-- The next tighter level. -/
def tighter? : Level → Option Level
  | comparison => some concatenation
  | concatenation => some sum
  | sum => some product
  | product => some power
  | power => some sign
  | sign => some percent
  | percent => some intersection
  | intersection => some range
  | range => some primary
  | primary => none

/-- What a symbol does between operands of a level that groups to the left. -/
def operator? : Level → Symbol → Option ValueOp
  | comparison, .equal => some (.comparison .equal)
  | comparison, .notEqual => some (.comparison .notEqual)
  | comparison, .less => some (.comparison .less)
  | comparison, .lessEqual => some (.comparison .lessEqual)
  | comparison, .greater => some (.comparison .greater)
  | comparison, .greaterEqual => some (.comparison .greaterEqual)
  | concatenation, .ampersand => some .concat
  | sum, .plus => some (.arithmetic .add)
  | sum, .minus => some (.arithmetic .subtract)
  | product, .star => some (.arithmetic .multiply)
  | product, .slash => some (.arithmetic .divide)
  | _, _ => none

end Level

namespace Grammar

/-- Texts with one separator between each and the next. -/
inductive Joined (separator : Symbol) : List (List Token) → List Token → Prop
  | one {ts : List Token} : Joined separator [ts] ts
  | cons {t : Token} {ts us : List Token} {tss : List (List Token)}
      (ht : t.symbol? = some separator) (h : Joined separator tss us) :
      Joined separator (ts :: tss) (ts ++ t :: us)

/-- An element of an array constant. Only a number takes a minus. -/
inductive Element : List Token → Literal → Prop
  | number (ht : t.kind = .number x) : Element [t] (.number x)
  | text (ht : t.kind = .text s) : Element [t] (.text s)
  | boolean (ht : t.kind = .boolean b) : Element [t] (.boolean b)
  | error (ht : t.kind = .error e) : Element [t] (.error e)
  | plus {s t : Token} (hs : s.symbol? = some .plus) (h : Element [t] l) : Element [s, t] l
  | minus {s t : Token} (hs : s.symbol? = some .minus) (ht : t.kind = .number x) :
      Element [s, t] (.number (-x))

/-- A row of an array constant. -/
def Row (ts : List Token) (row : List Literal) : Prop :=
  ∃ elements, List.Forall₂ Element elements row ∧ Joined .comma elements ts

/-- The rows of an array constant, all of one length. -/
def Rows (ts : List Token) (rows : List (List Literal)) : Prop :=
  (∃ texts, List.Forall₂ Row texts rows ∧ Joined .semicolon texts ts) ∧
    ∀ row ∈ rows, ∀ row' ∈ rows, row.length = row'.length

/-- The tokens end in the name of a function or a variable. -/
def EndsInName (ts : List Token) : Prop := ∃ t ∈ ts.getLast?, ∃ name, t.kind = .ident name

/-- Both sheets are named only if the names agree but for the case of letters. -/
def SheetsAgree (a b : Option String) : Prop :=
  ∀ s ∈ a, ∀ s' ∈ b, Unicode.sameAscii s s' = true

/-- All tokens of the list, read at a level, make the expression. -/
inductive Derives : Level → List Token → Expr → Prop
  | tighter (hl : l.tighter? = some m) (h : Derives m ts e) : Derives l ts e
  | operator (hl : l.tighter? = some m) (ht : t.symbol?.bind l.operator? = some op)
      (he : Derives l ts e) (hf : Derives m us f) :
      Derives l (ts ++ t :: us) (.binary (.value op) e f)
  | power (ht : t.symbol? = some .caret) (he : Derives .sign ts e) (hf : Derives .power us f) :
      Derives .power (ts ++ t :: us) (.binary (.value (.arithmetic .power)) e f)
  | plus (ht : t.symbol? = some .plus) (h : Derives .sign ts e) :
      Derives .sign (t :: ts) (.sign .plus e)
  | negate (ht : t.symbol? = some .minus) (h : Derives .sign ts e) :
      Derives .sign (t :: ts) (.sign .negate e)
  | percent (ht : t.symbol? = some .percent) (h : Derives .percent ts e) :
      Derives .percent (ts ++ [t]) (.percent e)
  /-- White space before something that may start a reference. A name before a parenthesis is the
  name of a function, so that no white space between them intersects. -/
  | intersect (hu : u.spaceBefore = true) (hs : Parser.startsReference u = true)
      (hc : ¬ (EndsInName ts ∧ u.symbol? = some .leftParen)) (hr : e.isReference = true)
      (he : Derives .intersection ts e) (hf : Derives .range (u :: us) f) :
      Derives .intersection (ts ++ u :: us) (.binary (.reference .intersect) e f)
  | cells (ht : t.symbol? = some .colon) (hs : SheetsAgree a.sheet b.sheet)
      (he : Derives .range ts (.cell a)) (hf : Derives .primary us (.cell b)) :
      Derives .range (ts ++ t :: us)
        (.range ⟨a.sheet <|> b.sheet, .ofCorners a.address b.address⟩)
  | range (ht : t.symbol? = some .colon) (hr : e.isReference = true) (hr' : f.isReference = true)
      (hc : ∀ a b, ¬ (e = .cell a ∧ f = .cell b))
      (he : Derives .range ts e) (hf : Derives .primary us f) :
      Derives .range (ts ++ t :: us) (.binary (.reference .range) e f)
  | number (ht : t.kind = .number x) : Derives .primary [t] (.literal (.number x))
  | text (ht : t.kind = .text s) : Derives .primary [t] (.literal (.text s))
  | boolean (ht : t.kind = .boolean b) : Derives .primary [t] (.literal (.boolean b))
  | error (ht : t.kind = .error err) : Derives .primary [t] (.literal (.error err))
  | cell (ht : t.kind = .cell a) : Derives .primary [t] (.cell ⟨none, a⟩)
  | area (ht : t.kind = .area r) : Derives .primary [t] (.range ⟨none, r⟩)
  | sheetCell (hs : s.kind = .sheet sheet) (ht : t.kind = .cell a) :
      Derives .primary [s, t] (.cell ⟨some sheet, a⟩)
  | sheetArea (hs : s.kind = .sheet sheet) (ht : t.kind = .area r) :
      Derives .primary [s, t] (.range ⟨some sheet, r⟩)
  | name (ht : t.kind = .ident n) : Derives .primary [t] (.name n)
  | callEmpty (ht : t.kind = .ident n) (ho : o.symbol? = some .leftParen)
      (hc : c.symbol? = some .rightParen) :
      Derives .primary [t, o, c] (.call (String.ofList (Unicode.upper n.toList)) [])
  /-- The slots of the arguments; an empty slot is an omitted argument. -/
  | call {slots : List (List Token × Expr)} (ht : t.kind = .ident n)
      (ho : o.symbol? = some .leftParen) (hc : c.symbol? = some .rightParen) (hts : ts ≠ [])
      (hj : Joined .comma (slots.map Prod.fst) ts)
      (homitted : ∀ slot ∈ slots, slot.1 = [] → slot.2 = .omitted)
      (hgiven : ∀ slot ∈ slots, slot.1 ≠ [] → Derives .comparison slot.1 slot.2) :
      Derives .primary (t :: o :: (ts ++ [c]))
        (.call (String.ofList (Unicode.upper n.toList)) (slots.map Prod.snd))
  | parens (ho : o.symbol? = some .leftParen) (hc : c.symbol? = some .rightParen)
      (h : Derives .comparison ts e) : Derives .primary (o :: (ts ++ [c])) e
  | union {parts : List (List Token × Expr)} (ho : o.symbol? = some .leftParen)
      (hc : c.symbol? = some .rightParen) (hlen : 2 ≤ parts.length)
      (hj : Joined .comma (parts.map Prod.fst) ts)
      (hr : ∀ part ∈ parts, part.2.isReference = true)
      (h : ∀ part ∈ parts, Derives .comparison part.1 part.2) :
      Derives .primary (o :: (ts ++ [c])) (.union (parts.map Prod.snd))
  | array (ho : o.symbol? = some .leftBrace) (hc : c.symbol? = some .rightBrace)
      (h : Rows ts rows) : Derives .primary (o :: (ts ++ [c])) (.array rows)

end Grammar

end Spreadsheet
