import Spreadsheet.Proofs.Sharing.Follow
import Spreadsheet.Proofs.Sharing.Tokens

/-!
The text that addresses have moved in is read as the tokens that have moved.
-/

namespace Spreadsheet

open Lexer SharedFormula

variable {rows cols : Int} {before : Option Char} {cs rest rest' w : List Char} {kind : TokenKind}

/-! ### Heads of texts -/

namespace SharedFormula

theorem head?_moveFrom (h : Spelling.take? cs = none) :
    (moveFrom rows cols before cs).head? = cs.head? := by
  cases cs with
  | nil => rw [moveFrom_nil]
  | cons c cs =>
    cases hq : isQuote c with
    | true =>
      rw [moveFrom_quote hq]
      rfl
    | false =>
      rw [moveFrom_of_none hq h]
      rfl

theorem head_movedText (a : Address) :
    ∀ c ∈ (movedText rows cols a ++ rest).head?, c = '#' ∨ c = '$' ∨ c.isUpper = true := by
  intro c hc
  rw [movedText] at hc
  split at hc
  · next b hb =>
    rw [← b.write_spelling] at hc
    exact .inr ((Address.spelling_valid (Address.move?_eq_some hb).2).head_write _ c hc)
  · obtain rfl := Option.some.inj hc
    exact .inl rfl

theorem head_moveFrom :
    ∀ c ∈ (moveFrom rows cols before cs).head?,
      c ∈ cs.head? ∨ c = '#' ∨ c = '$' ∨ c.isUpper = true := by
  intro c hc
  cases htake : Spelling.take? cs with
  | none =>
    rw [head?_moveFrom htake] at hc
    exact .inl hc
  | some p =>
    obtain ⟨s, r⟩ := p
    have hs := (Spelling.take?_eq_some_iff.1 htake).1
    rw [moveFrom_of_some htake, Spelling.moved] at hc
    split at hc
    · split at hc
      · exact .inr (.inr (hs.head_write _ c hc))
      · exact .inr (head_movedText _ c hc)
    · exact .inr (.inr (hs.head_write _ c hc))

theorem take?_of_ends (h : ∀ c ∈ cs.head?, Ends c) : Spelling.take? cs = none := by
  rw [Option.eq_none_iff_forall_ne_some]
  rintro ⟨s, r⟩ hs
  cases cs with
  | nil => cases hs
  | cons c cs =>
    have hident := (h c rfl).not_continuesIdent
    rw [continuesIdent_of_startsIdent (startsIdent_of_head (head_of_take? hs))] at hident
    cases hident

end SharedFormula

/-- A text starts as another one does, as far as the tokens before it can tell. -/
structure Alike (rest rest' : List Char) : Prop where
  head : (∀ c ∈ rest.head?, Ends c) → rest'.head? = rest.head?
  mem : ∀ c ∈ rest'.head?, c ∈ rest.head? ∨ c = '#' ∨ c = '$' ∨ c.isUpper = true

theorem alike_moveFrom (before : Option Char) (rest : List Char) :
    Alike rest (moveFrom rows cols before rest) :=
  ⟨fun h => head?_moveFrom (take?_of_ends h), head_moveFrom⟩

theorem Alike.not_mem (ha : Alike rest rest') (hc : c ∉ rest.head?)
    (hplain : c ≠ '#' ∧ c ≠ '$' ∧ c.isUpper = false) : c ∉ rest'.head? := by
  intro hc'
  rcases ha.mem c hc' with h | h | h | h
  · exact hc h
  · exact hplain.1 h
  · exact hplain.2.1 h
  · rw [hplain.2.2] at h
    cases h

/-! ### Columns -/

namespace Lexer

theorem takeColumns_movedText (a : Address) :
    takeColumns left (movedText rows cols a ++ rest) = none := by
  rw [movedText]
  split
  · next b hb =>
    rw [← b.write_spelling]
    exact takeColumns_write_right (Address.spelling_valid (Address.move?_eq_some hb).2) _ _
  · refine takeColumns_eq_none_of_head fun c hc => ?_
    obtain rfl := Option.some.inj hc
    decide

theorem not_isAlpha_of_not_continuesIdent (h : continuesIdent c = false) :
    c ≠ '$' ∧ c.isAlpha = false := by
  constructor
  · rintro rfl
    cases h
  · cases hc : c.isAlpha with
    | false => rfl
    | true =>
      rw [continuesIdent_of_isAlpha hc] at h
      cases h

/-- Moving brings no columns about. -/
theorem Reads.takeColumns_movedText (h : Reads w kind rest) (ha : Alike rest rest')
    (hf : Fits kind rest) (hnone : takeColumns left (w ++ rest) = none) :
    takeColumns left (kind.movedText rows cols w ++ rest') = none := by
  have hcons {c : Char} (v : List Char) (hc : c ≠ '$' ∧ c.isAlpha = false) :
      takeColumns left (c :: v) = none := by
    refine takeColumns_eq_none_of_head fun d hd => ?_
    obtain rfl := Option.some.inj hd
    exact hc
  have hends (hends : ∀ c ∈ rest.head?, Ends c) : takeColumns left (w ++ rest') = none :=
    takeColumns_append_congr (ha.head hends)
      (fun c hc => not_isAlpha_of_not_continuesIdent (hends c hc).not_continuesIdent) hnone
  cases h with
  | single hc =>
    have hends : Ends _ := .inr (mem_symbolHeads_of_singleSymbol? hc)
    exact hcons _ (not_isAlpha_of_not_continuesIdent hends.not_continuesIdent)
  | lessEqual | notEqual | less | greaterEqual | greater | text | quotedSheet =>
    exact hcons _ (by decide)
  | error he hw =>
    obtain ⟨v, rfl⟩ := exists_cons_of_sameAscii he hw
    exact hcons _ (by decide)
  | rows | columns => exact hends (hf.ends (by simp) (by simp))
  | number hc =>
    rcases hc with hc | ⟨rfl, -⟩
    · refine hcons _ ⟨?_, not_isAlpha_of_isDigit hc⟩
      rintro rfl
      cases hc
    · exact hcons _ (by decide)
  | function => exact hends (hf.ends (by simp) (by simp))
  | @sheet w rest hw =>
    have hbang : ∀ c ∈ ('!' :: rest).head?, c ≠ '$' ∧ c.isAlpha = false := by
      intro c hc
      obtain rfl := Option.some.inj hc
      decide
    rw [List.append_assoc, List.singleton_append] at hnone
    change takeColumns left (w ++ ['!'] ++ rest') = none
    rw [List.append_assoc, List.singleton_append]
    have hhead : ('!' :: rest').head? = ('!' :: rest).head? := rfl
    exact takeColumns_append_congr hhead hbang hnone
  | word hw hrest hcolumns hk =>
    rcases wordKind_eq_ok hk with ⟨a, rfl, -⟩ | ⟨-, rfl | ⟨b, rfl, -⟩⟩
    · rw [TokenKind.movedText]
      split
      · exact hends (hf.ends (by simp) (by simp))
      · exact takeColumns_movedText a
    · exact hends (hf.ends (by simp) (by simp))
    · exact hends (hf.ends (by simp) (by simp))

theorem word_write {s : Spelling} (hs : s.Valid) : Word s.write := by
  obtain ⟨c, v, hc⟩ := List.exists_cons_of_ne_nil hs.formed.write_ne_nil
  refine ⟨⟨c, v, hc, startsIdent_of_head ?_, ?_⟩, hs.continuesIdent⟩
  · exact hs.head_write [] c (by rw [hc]; rfl)
  · rintro rfl
    have hdollar := hs.formed.takeDollar_write []
    rw [hc, List.append_nil, List.append_nil] at hdollar
    obtain ⟨d, letters, hd⟩ := List.exists_cons_of_ne_nil hs.letters_ne_nil
    obtain rfl : v = d :: (letters ++ (Address.dollar s.rowAbs ++ s.digits)) := by
      rw [hd] at hdollar
      exact congrArg Prod.snd hdollar
    have halpha := hs.isAlpha d (hd ▸ List.mem_cons_self)
    cases hdigit : d.isDigit with
    | false => exact hdigit
    | true =>
      rw [not_isAlpha_of_isDigit hdigit] at halpha
      cases halpha

theorem wordKind_write {a : Address} (h : a.InSheet) : wordKind a.write = .ok (.cell a) := by
  have hparse := Address.parse_toText h
  rw [Address.toText] at hparse
  rw [wordKind, hparse]

theorem Reads.inSheet (h : Reads w (.cell a) rest) : a.InSheet := by
  cases h with
  | word hw _ _ hk =>
    rcases wordKind_eq_ok hk with ⟨a, hkind, ha⟩ | ⟨-, hkind | ⟨b, hkind, -⟩⟩
    · obtain rfl := TokenKind.cell.inj hkind
      exact (Address.exists_write_of_parse hw.continues ha).1
    · cases hkind
    · cases hkind

/-- Rows and columns are read before every text with the same head. -/
theorem Reads.area_congr (h : Reads w (.area area) rest) (hhead : rest'.head? = rest.head?) :
    Reads w (.area area) rest' := by
  generalize hkind : TokenKind.area area = kind at h
  cases h with
  | @rows c w _ _ hc harea =>
    cases hkind
    obtain ⟨hend, v, hv, htext⟩ := takeRows_eq_some_iff.1 harea
    obtain rfl : c :: w = v := List.append_cancel_right hv
    refine .rows ?_ (takeRows_eq_some_iff.2 ⟨by rwa [EndsRows, hhead], _, rfl, htext⟩)
    rwa [isDigitNext, List.head?_append, hhead, ← List.head?_append]
  | columns hw harea =>
    cases hkind
    obtain ⟨hend, u, hu, htext⟩ := takeColumns_eq_some_iff.1 harea
    obtain rfl := List.append_cancel_right hu
    exact .columns hw (takeColumns_eq_some_iff.2 ⟨by rwa [EndsColumns, hhead], _, rfl, htext⟩)
  | word _ _ _ hk =>
    rcases wordKind_eq_ok hk with ⟨a, rfl, -⟩ | ⟨-, rfl | ⟨b, rfl, -⟩⟩ <;> cases hkind
  | _ => cases hkind

/-- What a word becomes in the text is read as what its token becomes. -/
theorem Reads.movedText_word (hw : Word w)
    (hrest : ∀ c ∈ rest.head?, continuesIdent c = false ∧ c ≠ '(' ∧ c ≠ '!')
    (hnone : ∀ r, rest = ':' :: r → takeColumns w r = none) (hk : wordKind w = .ok kind)
    (hs : Token.MovesInText rows cols ⟨kind, String.ofList w, place, space⟩) :
    Reads (kind.movedText rows cols w) ((kind.pruned rows cols).moved rows cols) rest := by
  rcases wordKind_eq_ok hk with ⟨a, rfl, -⟩ | ⟨-, rfl | ⟨b, rfl, -⟩⟩
  · rw [TokenKind.movedText, TokenKind.pruned]
    split
    · next hany =>
      -- a small letter keeps the address where it is
      have hmoved : a.moved rows cols = a := by
        refine hs.resolve_left fun hall => ?_
        obtain ⟨c, hc, hlower⟩ := List.any_eq_true.1 hany
        rw [hall c (by rwa [String.toList_ofList])] at hlower
        cases hlower
      have hsome := Address.move?_of_moved_eq (Reads.word hw hrest hnone hk).inSheet hmoved
      rw [if_pos (Address.stays_of_move? hsome), TokenKind.moved, hmoved]
      exact .word hw hrest hnone hk
    · rw [SharedFormula.movedText]
      split
      · next b hb =>
        obtain ⟨rfl, hsheet⟩ := Address.move?_eq_some hb
        have hvalid := Address.spelling_valid hsheet
        rw [if_pos (Address.stays_of_move? hb)]
        exact .word (word_write hvalid) hrest (fun r _ => takeColumns_write_left hvalid r)
          (wordKind_write hsheet)
      · next hb =>
        rw [if_neg (by rw [Address.Stays, hb]; exact Bool.false_ne_true)]
        exact .error (by decide) (by decide +kernel)
  · exact .word hw hrest hnone hk
  · exact .word hw hrest hnone hk

/-- A token is read before a text that starts alike. -/
theorem Reads.movedText (h : Reads w kind rest) (ha : Alike rest rest') (hf : Fits kind rest)
    (hs : Token.MovesInText rows cols ⟨kind, String.ofList w, place, space⟩)
    (hcolumns : ∀ r r', rest = ':' :: r → rest' = ':' :: r' →
      ∀ left, takeColumns left r = none → takeColumns left r' = none) :
    Reads (kind.movedText rows cols w) ((kind.pruned rows cols).moved rows cols) rest' := by
  cases h with
  | single hc => exact .single hc
  | lessEqual => exact .lessEqual
  | notEqual => exact .notEqual
  | less heq hgreater => exact .less (ha.not_mem heq (by decide)) (ha.not_mem hgreater (by decide))
  | greaterEqual => exact .greaterEqual
  | greater heq => exact .greater (ha.not_mem heq (by decide))
  | text hw hrest => exact .text hw (ha.not_mem hrest (by decide))
  | quotedSheet hw => exact .quotedSheet hw
  | error he hw => exact .error he hw
  | @rows c w _ area hc harea =>
    have hkind : ((TokenKind.area area).pruned rows cols).moved rows cols = .area area :=
      congrArg TokenKind.area hs
    rw [hkind]
    exact (Reads.rows hc harea).area_congr (ha.head (hf.ends (by simp) (by simp)))
  | @columns w v rest area hw harea =>
    have hkind : ((TokenKind.area area).pruned rows cols).moved rows cols = .area area :=
      congrArg TokenKind.area hs
    rw [hkind]
    exact (Reads.columns hw harea).area_congr (ha.head (hf.ends (by simp) (by simp)))
  | number _ _ hn =>
    have hends := hf.ends (by simp) (by simp)
    refine .numeral (numeralText_of_takeNumeral (w := _ :: _) hn) fun c hc => ?_
    rw [ha.head hends] at hc
    refine ⟨(hends c hc).not_continuesIdent, ?_⟩
    rintro rfl
    exact hf.number _ rfl hc
  | @function w rest hw hdollar =>
    obtain ⟨r, rfl⟩ := List.head?_eq_some_iff.1 (ha.head (hf.ends (by simp) (by simp)))
    exact .function hw hdollar
  | sheet hw => exact .sheet hw
  | word hw hrest hnone hk =>
    have hhead : rest'.head? = rest.head? := by
      refine ha.head (hf.ends ?_ ?_) <;>
        rcases wordKind_eq_ok hk with ⟨a, rfl, -⟩ | ⟨-, rfl | ⟨b, rfl, -⟩⟩ <;> simp
    refine Reads.movedText_word hw (hhead ▸ hrest) (fun r' hr' => ?_) hk hs
    rw [hr'] at hhead
    obtain ⟨r, rfl⟩ := List.head?_eq_some_iff.1 hhead.symm
    exact hcolumns r r' rfl hr' w (hnone r rfl)

end Lexer

/-! ### Texts -/

/-- What is asked of the tokens of a text so that they move as the text does, `#REF!` taking the place
of the addresses that leave the sheet. -/
structure MovesWithText (rows cols : Int) (ts : List Token) : Prop where
  chained : Grammar.Chained ts
  movesInText : ∀ t ∈ ts, t.MovesInText rows cols

theorem MovesWithText.tail (h : MovesWithText rows cols (t :: ts)) :
    MovesWithText rows cols ts where
  chained := h.chained.tail
  movesInText u hu := h.movesInText u (List.mem_cons_of_mem _ hu)

theorem MovesWithText.fits (h : MovesWithText rows cols (t :: lexed.tokens))
    (hl : Lexes place false rest lexed) : Fits t.kind rest :=
  hl.fits (List.isChain_cons.1 h.chained).1

namespace Lexer

variable {place place' : Place} {space : Bool} {lexed : Lexed}

theorem Lexes.inSheet (h : Lexes place space cs lexed) :
    ∀ t ∈ lexed.tokens, ∀ a, t.kind = .cell a → a.InSheet := by
  induction h with
  | nil => nofun
  | space _ _ ih => exact ih
  | token hw _ ih =>
    refine List.forall_mem_cons.2 ⟨?_, ih⟩
    rintro a rfl
    exact hw.inSheet

theorem Lexes.of_colon (h : Lexes place space (':' :: cs) lexed) :
    ∃ t lexed', Lexes (place.next ':') false cs lexed' ∧ lexed.tokens = t :: lexed'.tokens := by
  generalize htext : ':' :: cs = text at h
  cases h with
  | nil => cases htext
  | space hc _ =>
    obtain ⟨rfl, -⟩ := List.cons.inj htext
    exact absurd hc (by decide)
  | token hw hl =>
    obtain ⟨c, v, rfl, hscan⟩ := scan_of_reads hw
    obtain ⟨rfl, rfl⟩ := List.cons.inj htext
    obtain ⟨-, hrest⟩ := Prod.mk.inj (Except.ok.inj hscan)
    obtain rfl : v = [] := by simpa using hrest
    exact ⟨_, _, hl, rfl⟩

theorem moveFrom_ends (hc : Ends c) :
    moveFrom rows cols before (c :: cs) = c :: moveFrom rows cols (some c) cs := by
  have hq : isQuote c = false := by
    cases hq : isQuote c with
    | false => rfl
    | true =>
      have hall : ∀ c ∈ ['"', '\x27'], Unicode.isWhiteSpace c = false ∧ c ∉ symbolHeads :=
        forall_mem_of_all (by decide +kernel)
      obtain ⟨hspace, hheads⟩ := hall c (by rcases eq_of_isQuote hq with rfl | rfl <;> decide)
      rcases hc with hc | hc
      · rw [hspace] at hc
        cases hc
      · exact absurd hc hheads
  refine moveFrom_of_none hq (take?_of_ends fun d hd => ?_)
  obtain rfl := Option.some.inj hd
  exact hc

theorem Lexes.takeColumns_moveFrom (h : Lexes place space cs lexed)
    (hm : MovesWithText rows cols lexed.tokens) (hb : Starts before cs)
    (hnone : takeColumns left cs = none) :
    takeColumns left (moveFrom rows cols before cs) = none := by
  cases h with
  | nil =>
    rw [moveFrom_nil]
    exact hnone
  | space hc _ =>
    refine takeColumns_eq_none_of_head fun d hd => ?_
    rw [moveFrom_ends (.inl hc)] at hd
    obtain rfl := Option.some.inj hd
    exact not_isAlpha_of_not_continuesIdent (not_continuesIdent_of_isWhiteSpace hc)
  | token hw hl =>
    have hf := hm.fits hl
    have hs := hm.movesInText _ List.mem_cons_self
    obtain ⟨before', hmove, -⟩ := hw.moveFrom_eq hf hs hb
    rw [hmove]
    exact hw.takeColumns_movedText (alike_moveFrom _ _) hf hnone

/-- A text is read as the tokens that have moved after its addresses have moved. -/
theorem Lexes.moveFrom (h : Lexes place space cs lexed) (hm : MovesWithText rows cols lexed.tokens)
    (hb : Starts before cs) (place' : Place) :
    ∃ lexed', Lexes place' space (SharedFormula.moveFrom rows cols before cs) lexed' ∧
      Grammar.Follows rows cols (lexed.tokens.map (Token.pruned rows cols)) lexed'.tokens := by
  induction h generalizing before place' with
  | nil =>
    rw [moveFrom_nil]
    exact ⟨_, .nil, .nil⟩
  | @space c cs _ _ _ hc _ ih =>
    have hb : Starts (some c) cs := fun _ _ _ =>
      not_continuesName_of_not_continuesIdent (not_continuesIdent_of_isWhiteSpace hc)
    obtain ⟨lexed', hl', hfollow⟩ := ih hm hb (place'.next c)
    rw [moveFrom_ends (.inl hc)]
    exact ⟨lexed', .space hc hl', hfollow⟩
  | @token w kind rest _ _ _ hw hl ih =>
    have hf := hm.fits hl
    have hs := hm.movesInText _ List.mem_cons_self
    obtain ⟨before', hmove, hb'⟩ := hw.moveFrom_eq hf hs hb
    obtain ⟨lexed', hl', hfollow⟩ := ih hm.tail hb' (place'.after (kind.movedText rows cols w))
    rw [hmove]
    refine ⟨_, .token (hw.movedText (alike_moveFrom before' rest) hf hs ?_) hl',
      .cons ⟨rfl, rfl⟩ hfollow⟩
    rintro r r' rfl hr' left hnone
    obtain ⟨t, lexed, hl, htokens⟩ := hl.of_colon
    have hm := hm.tail
    rw [htokens] at hm
    rw [moveFrom_ends (.inr (by decide))] at hr'
    obtain ⟨-, rfl⟩ := List.cons.inj hr'
    exact hl.takeColumns_moveFrom hm.tail (fun _ _ _ => rfl) hnone

end Lexer

end Spreadsheet
