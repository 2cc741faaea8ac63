import Spreadsheet.Proofs.Grammar.Neighbours
import Spreadsheet.Proofs.Lexing.Lexes
import Spreadsheet.Proofs.Sharing.Kept
import Spreadsheet.Proofs.Sharing.Pruned

/-!
The text of a token when addresses move: an address moves as a whole, and every other token stays
as it is.
-/

namespace Spreadsheet

open Lexer SharedFormula

/-- A token that is found in the text without the text being read: an address in capital letters, or
something that no address can be found in. -/
def Token.Shareable (t : Token) : Prop :=
  match t.kind with
  | .cell _ => ∀ c ∈ t.lexeme.toList, c.isLower = false
  | .area _ => False
  | .ident name => ∀ c ∈ name.toList, c ≠ '\\' ∧ c ≠ '$'
  | .sheet _ => '\x27' ∈ t.lexeme.toList.head? ∨ ∀ c ∈ t.lexeme.toList, c ≠ '\\' ∧ c ≠ '$'
  | _ => True

/-- The token is no address that leaves the sheet. -/
def Token.StaysInSheet (rows cols : Int) (t : Token) : Prop :=
  ∀ a, t.kind = .cell a → (a.move? rows cols).isSome = true

/-- A token that becomes in the text what it is after the move: an address in capital letters or one
that does not move, an area that does not move, or something that no address can be found in. -/
def Token.MovesInText (rows cols : Int) (t : Token) : Prop :=
  match t.kind with
  | .cell a => (∀ c ∈ t.lexeme.toList, c.isLower = false) ∨ a.moved rows cols = a
  | .area r => r.moved rows cols = r
  | .ident name => ∀ c ∈ name.toList, c ≠ '\\' ∧ c ≠ '$'
  | .sheet _ => '\x27' ∈ t.lexeme.toList.head? ∨ ∀ c ∈ t.lexeme.toList, c ≠ '\\' ∧ c ≠ '$'
  | _ => True

theorem Token.Shareable.movesInText {t : Token} (h : t.Shareable) (rows cols : Int) :
    t.MovesInText rows cols := by
  obtain ⟨kind, _, _, _⟩ := t
  cases kind with
  | cell => exact .inl h
  | area => exact absurd h id
  | _ => exact h

theorem Token.symbol?_eq_some {t : Token} : t.symbol? = some s ↔ t.kind = .symbol s := by
  unfold symbol?
  cases t.kind with
  | symbol s' => exact ⟨fun h => congrArg _ (Option.some.inj h), fun h => by cases h; rfl⟩
  | _ => exact ⟨nofun, nofun⟩

/-- What is written for a token that was written `w`. -/
def TokenKind.movedText (rows cols : Int) (kind : TokenKind) (w : List Char) : List Char :=
  match kind with
  | .cell a => if w.any Char.isLower then w else SharedFormula.movedText rows cols a
  | _ => w

/-- The text after a token of some kind is one that lets the token end. -/
structure Fits (kind : TokenKind) (rest : List Char) : Prop where
  ends : (∀ s, kind ≠ .symbol s) → (∀ n, kind ≠ .sheet n) → ∀ c ∈ rest.head?, Ends c
  number : ∀ x, kind = .number x → ':' ∉ rest.head?

/-- No name that stands before the text goes on in it. -/
def Starts (before : Option Char) (cs : List Char) : Prop :=
  ∀ c ∈ cs.head?, startsIdent c = true → before.any continuesName = false

theorem Starts.of_end (h : ∀ c ∈ rest.head?, continuesIdent c = false) : Starts before rest := by
  intro c hc hstart
  have hident := h c hc
  rw [continuesIdent_of_startsIdent hstart] at hident
  cases hident

theorem Number.NumeralText.isQuote (hw : NumeralText w n) :
    ∀ c ∈ w, SharedFormula.isQuote c = false :=
  hw.forall_mem (fun _ hc => isQuote_of_continuesIdent (continuesIdent_of_isDigit hc))
    (forall_mem_of_all (by decide))

namespace Lexer

theorem Reads.of_symbol (h : Reads w (.symbol s) rest) :
    (∃ c ∈ w.head?, c = ':' → s = .colon) ∧ ∀ c ∈ w, c ∈ symbolHeads := by
  cases h with
  | single hc =>
    refine ⟨⟨_, rfl, ?_⟩, List.forall_mem_singleton.2 (mem_symbolHeads_of_singleSymbol? hc)⟩
    rintro rfl
    exact (Option.some.inj hc).symm
  | lessEqual | notEqual | less | greaterEqual | greater =>
    exact ⟨⟨_, rfl, nofun⟩, forall_mem_of_all (by decide)⟩
  | word _ _ _ hk =>
    rcases wordKind_eq_ok hk with ⟨_, hk, -⟩ | ⟨-, hk | ⟨_, hk, -⟩⟩ <;> cases hk

/-- The next token lets this one end. -/
theorem Lexes.fits (h : Lexes place false rest lexed)
    (hn : ∀ u ∈ lexed.tokens.head?, Grammar.Neighbours t u) : Fits t.kind rest := by
  cases h with
  | nil => exact ⟨fun _ _ => nofun, fun _ _ => nofun⟩
  | space hc _ =>
    refine ⟨fun _ _ d hd => ?_, fun _ _ hd => ?_⟩
    · obtain rfl := Option.some.inj hd
      exact .inl hc
    · obtain rfl := Option.some.inj hd
      exact absurd hc (by decide)
  | @token w kind rest _ _ _ hw _ =>
    obtain ⟨hside, hcolon⟩ := hn _ rfl
    have hnext (hk : ∀ s, t.kind ≠ .symbol s) (hsheet : ∀ n, t.kind ≠ .sheet n) :
        ∃ s, kind = .symbol s ∧
          ∃ c ∈ (w ++ rest).head?, c ∈ symbolHeads ∧ (c = ':' → s = .colon) := by
      rcases hside with hs | ⟨n, hs⟩ | hs | hs
      · obtain ⟨s, hs⟩ := Option.isSome_iff_exists.1 hs
        exact absurd (Token.symbol?_eq_some.1 hs) (hk s)
      · exact absurd hs (hsheet n)
      · obtain ⟨s, hs⟩ := Option.isSome_iff_exists.1 hs
        obtain rfl : kind = .symbol s := Token.symbol?_eq_some.1 hs
        obtain ⟨⟨c, hc, hcolon⟩, hheads⟩ := hw.of_symbol
        exact ⟨s, rfl, c, by rw [List.head?_append, hc]; rfl, hheads c (List.mem_of_mem_head? hc),
          hcolon⟩
      · cases hs
    refine ⟨fun hk hsheet c hc => ?_, fun x hx hc => ?_⟩
    · obtain ⟨s, -, d, hd, hheads, -⟩ := hnext hk hsheet
      obtain rfl := Option.mem_unique hc hd
      exact .inr hheads
    · obtain ⟨s, rfl, d, hd, -, hs⟩ := hnext (by rw [hx]; nofun) (by rw [hx]; nofun)
      refine hcolon ⟨⟨x, hx⟩, ?_⟩
      rw [Token.symbol?, hs (Option.mem_unique hd hc)]

/-! ### Each kind of token -/

section

variable {rows cols : Int} {before : Option Char} {rest : List Char}

theorem moveFrom_bang :
    moveFrom rows cols before ('!' :: rest) = '!' :: moveFrom rows cols (some '!') rest :=
  moveFrom_append (w := ['!']) (List.forall_mem_singleton.2 rfl)
    (kept_of_no_head (List.forall_mem_singleton.2 (by decide)))

theorem Reads.moveFrom_symbol (h : Reads w (.symbol s) rest) :
    ∃ before', moveFrom rows cols before (w ++ rest) = w ++ moveFrom rows cols before' rest ∧
      before'.any continuesName = false := by
  obtain ⟨⟨c, hc, -⟩, hheads⟩ := h.of_symbol
  have hplain : ∀ c ∈ symbolHeads, isQuote c = false ∧ c ≠ '$' ∧ c.isUpper = false :=
    forall_mem_of_all (by decide)
  refine ⟨w.getLast?.or before, moveFrom_append (fun c hc => (hplain c (hheads c hc)).1)
    (kept_of_no_head fun c hc => (hplain c (hheads c hc)).2), ?_⟩
  have hne : w ≠ [] := by
    rintro rfl
    cases hc
  rw [List.getLast?_eq_some_getLast hne]
  have hlast := hheads _ (List.getLast_mem hne)
  exact not_continuesName_of_not_continuesIdent (Ends.not_continuesIdent (.inr hlast))

theorem Word.moveFrom_eq (hw : Word w) (hplain : ∀ c ∈ w, c ≠ '\\' ∧ c ≠ '$')
    (hrest : ∀ c ∈ rest.head?, continuesIdent c = false)
    (hwhole : ∀ s : Spelling, s.Valid → w = s.write →
      s.address? = none ∨ isPartOfName before rest.head? = true) :
    moveFrom rows cols before (w ++ rest) = w ++ moveFrom rows cols (w.getLast?.or before) rest :=
  moveFrom_append (fun c hc => isQuote_of_continuesIdent (hw.continues c hc))
    (kept_name (fun c hc => continuesName_of_continuesIdent (hw.continues c hc) (hplain c hc))
      hrest hwhole)

theorem isQuote_of_sameAscii (he : e ∈ ErrorValue.literals)
    (hw : Unicode.sameAscii e.text (String.ofList w) = true) : ∀ c ∈ w, isQuote c = false := by
  have hall : ∀ e ∈ ErrorValue.literals, '"' ∉ e.text.toList.map Char.toLower ∧
      '\x27' ∉ e.text.toList.map Char.toLower := by decide +kernel
  intro c hc
  rw [Unicode.sameAscii, String.toList_ofList, beq_iff_eq] at hw
  have hlower : c.toLower ∈ e.text.toList.map Char.toLower := hw ▸ List.mem_map_of_mem hc
  cases hq : isQuote c with
  | false => rfl
  | true =>
    rcases eq_of_isQuote hq with rfl | rfl
    · exact absurd hlower (hall e he).1
    · exact absurd hlower (hall e he).2

theorem numeralText_of_takeNumeral {w : List Char}
    (h : Number.takeNumeral (w ++ rest) = some (n, rest)) :
    Number.NumeralText w n := by
  obtain ⟨v, happend, hv⟩ := Number.numeralText_of_takeNumeral h
  rwa [List.append_cancel_right happend]

theorem not_mem_of_sameAscii {w : List Char} {text : String}
    (hw : Unicode.sameAscii (String.ofList w) text = true)
    (hc : c.toLower ∉ text.toList.map Char.toLower) : c ∉ w := by
  intro hmem
  rw [Unicode.sameAscii, String.toList_ofList, beq_iff_eq] at hw
  exact hc (hw ▸ List.mem_map_of_mem hmem)

theorem startsIdent_of_head (h : c = '$' ∨ c.isUpper = true) : startsIdent c = true := by
  rcases h with rfl | h
  · decide
  · simp [startsIdent, Unicode.isAlphabetic, isAlpha_of_isUpper h]

theorem moveFrom_spelling {s : Spelling} (hs : s.Valid) (ha : s.address? = some a)
    (hb : Starts before (s.write ++ rest))
    (hrest : ∀ c ∈ rest.head?, continuesIdent c = false ∧ c ≠ '(' ∧ c ≠ '!') :
    moveFrom rows cols before (s.write ++ rest) =
      movedText rows cols a ++ moveFrom rows cols s.digits.getLast? rest := by
  have htake : Spelling.take? (s.write ++ rest) = some (s, rest) := by
    refine Spelling.take?_eq_some_iff.2 ⟨hs, rfl, fun c hc => ?_⟩
    cases hdigit : c.isDigit with
    | false => rfl
    | true =>
      have hident := (hrest c hc).1
      rw [continuesIdent_of_isDigit hdigit] at hident
      cases hident
  have hbefore : before.any continuesName = false := by
    obtain ⟨c, v, hc⟩ := List.exists_cons_of_ne_nil hs.formed.write_ne_nil
    have hhead : c ∈ (s.write ++ rest).head? := by
      rw [hc]
      rfl
    exact hb c hhead (startsIdent_of_head (hs.head_write rest c hhead))
  have hafter : rest.head?.any (fun c => continuesName c || c == '!' || c == '(') = false := by
    cases hhead : rest.head? with
    | none => rfl
    | some c =>
      obtain ⟨hident, hparen, hbang⟩ := hrest c hhead
      simp [not_continuesName_of_not_continuesIdent hident, hparen, hbang]
  have hpart : isPartOfName before rest.head? = false := by
    rw [isPartOfName, hbefore, hafter]
    rfl
  rw [moveFrom_of_some htake, Spelling.moved, ha]
  dsimp only
  rw [hpart]
  rfl

theorem Reads.moveFrom_word (hw : Word w)
    (hrest : ∀ c ∈ rest.head?, continuesIdent c = false ∧ c ≠ '(' ∧ c ≠ '!')
    (hk : wordKind w = .ok kind)
    (hs : Token.MovesInText rows cols ⟨kind, String.ofList w, place, space⟩)
    (hb : Starts before (w ++ rest)) :
    ∃ before', moveFrom rows cols before (w ++ rest) =
      kind.movedText rows cols w ++ moveFrom rows cols before' rest := by
  have hend : ∀ c ∈ rest.head?, continuesIdent c = false := fun c hc => (hrest c hc).1
  rcases wordKind_eq_ok hk with ⟨a, rfl, ha⟩ | ⟨hnone, hk⟩
  · cases hany : w.any Char.isLower with
    | true =>
      have hkept : Kept before w rest :=
        kept_smallLetter hw.continues ha (List.any_eq_true.1 hany) hend
      refine ⟨w.getLast?.or before, ?_⟩
      rw [TokenKind.movedText, hany]
      exact moveFrom_append (fun c hc => isQuote_of_continuesIdent (hw.continues c hc)) hkept
    | false =>
      obtain ⟨s, hvalid, rfl⟩ := Address.exists_spelling_of_parse hw.continues
        (by simpa using hany) ha
      have ha := hvalid.parse.symm.trans (toOption_eq_some.2 ha)
      refine ⟨s.digits.getLast?, ?_⟩
      rw [TokenKind.movedText, hany]
      exact moveFrom_spelling hvalid ha hb hrest
  · have hwhole (s : Spelling) (hs : s.Valid) (hws : w = s.write) :
        s.address? = none ∨ isPartOfName before rest.head? = true := by
      rw [← hs.parse, ← hws]
      exact .inl hnone
    have hplain : ∀ c ∈ w, c ≠ '\\' ∧ c ≠ '$' := by
      rcases hk with rfl | ⟨b, rfl, hb⟩
      · simpa [Token.MovesInText] using hs
      · intro c hc
        constructor
        · rintro rfl
          exact hb.elim (fun h => not_mem_of_sameAscii h (by decide) hc)
            fun h => not_mem_of_sameAscii h (by decide) hc
        · rintro rfl
          exact hb.elim (fun h => not_mem_of_sameAscii h (by decide) hc)
            fun h => not_mem_of_sameAscii h (by decide) hc
    have hmove : moveFrom rows cols before (w ++ rest) = w ++ moveFrom rows cols _ rest :=
      hw.moveFrom_eq hplain hend hwhole
    rcases hk with rfl | ⟨b, rfl, -⟩
    · exact ⟨_, hmove⟩
    · exact ⟨_, hmove⟩

/-- A token is followed by what the text after it becomes. -/
theorem Reads.moveFrom_eq (h : Reads w kind rest) (hf : Fits kind rest)
    (hs : Token.MovesInText rows cols ⟨kind, String.ofList w, place, space⟩)
    (hb : Starts before (w ++ rest)) :
    ∃ before', moveFrom rows cols before (w ++ rest) =
      kind.movedText rows cols w ++ moveFrom rows cols before' rest ∧ Starts before' rest := by
  by_cases hsymbol : ∃ s, kind = .symbol s
  · obtain ⟨s, rfl⟩ := hsymbol
    obtain ⟨before', hmove, hbefore⟩ := h.moveFrom_symbol
    exact ⟨before', hmove, fun _ _ _ => hbefore⟩
  have hend (hk : ∀ n, kind ≠ .sheet n) : ∀ c ∈ rest.head?, continuesIdent c = false :=
    fun c hc => (hf.ends (fun s hs => hsymbol ⟨s, hs⟩) hk c hc).not_continuesIdent
  cases h with
  | single | lessEqual | notEqual | less | greaterEqual | greater =>
    exact absurd ⟨_, rfl⟩ hsymbol
  | text hw hrest =>
    exact ⟨none, moveFrom_quoted rfl hw hrest, .of_end (hend nofun)⟩
  | quotedSheet hw =>
    have hbang : '\x27' ∉ ('!' :: rest).head? := nofun
    refine ⟨some '!', ?_, fun _ _ _ => by decide⟩
    rw [List.cons_append, List.append_assoc, List.singleton_append,
      moveFrom_quoted rfl hw hbang, moveFrom_bang]
    exact congrArg ('\x27' :: ·) (List.append_cons _ _ _)
  | error he hw =>
    exact ⟨_, moveFrom_append (isQuote_of_sameAscii he hw) (kept_error he hw (hend nofun)),
      .of_end (hend nofun)⟩
  | @rows c w _ area _ harea =>
    obtain ⟨-, v, hv, htext⟩ := takeRows_eq_some_iff.1 harea
    obtain rfl : c :: w = v := List.append_cancel_right hv
    refine ⟨_, moveFrom_append (fun d hd => ?_) (kept_rows htext (hend nofun)),
      .of_end (hend nofun)⟩
    rcases htext.mem d hd with rfl | rfl | hd
    · decide
    · decide
    · exact isQuote_of_continuesIdent (continuesIdent_of_isDigit hd)
  | columns hw harea =>
    obtain ⟨-, u, hu, htext⟩ := takeColumns_eq_some_iff.1 harea
    obtain rfl := List.append_cancel_right hu
    refine ⟨_, moveFrom_append (fun d hd => ?_) (kept_columns htext (hend nofun)),
      .of_end (hend nofun)⟩
    rcases htext.mem d hd with rfl | rfl | hd
    · decide
    · decide
    · exact isQuote_of_continuesIdent (continuesIdent_of_isAlpha hd)
  | number _ _ hn =>
    have hw := numeralText_of_takeNumeral (w := _ :: _) hn
    exact ⟨_, moveFrom_append hw.isQuote (kept_numeral hw (hend nofun)), .of_end (hend nofun)⟩
  | function hw _ =>
    have hplain := by simpa [Token.MovesInText] using hs
    exact ⟨_, hw.moveFrom_eq hplain (hend nofun) fun _ _ _ => .inr (by simp [isPartOfName]),
      .of_end (hend nofun)⟩
  | @sheet w rest hw =>
    have hplain : ∀ c ∈ w, c ≠ '\\' ∧ c ≠ '$' := by
      rcases hs with hquote | hplain
      · obtain ⟨c, v, rfl, hc, -⟩ := hw.starts
        rw [String.toList_ofList] at hquote
        obtain rfl := Option.some.inj hquote
        cases hc
      · rw [String.toList_ofList] at hplain
        exact fun c hc => hplain c (List.mem_append_left _ hc)
    refine ⟨some '!', ?_, fun _ _ _ => by decide⟩
    rw [List.append_assoc, List.singleton_append, hw.moveFrom_eq hplain
      (head_not_continuesIdent rest (by decide)) fun _ _ _ => .inr (by simp [isPartOfName]),
      moveFrom_bang]
    exact List.append_cons _ _ _
  | word hw hrest _ hk =>
    obtain ⟨before', hmove⟩ := Reads.moveFrom_word hw hrest hk hs hb
    exact ⟨before', hmove, .of_end fun c hc => (hrest c hc).1⟩

end

end Lexer

end Spreadsheet
