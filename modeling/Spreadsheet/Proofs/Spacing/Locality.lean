import Spreadsheet.Proofs.Lexing.Reads

/-!
A token is read without a look at what stands behind the next white space, and it does not end in
white space itself.
-/

namespace Spreadsheet

namespace Lexer

theorem ne_of_isWhiteSpace (hc : Unicode.isWhiteSpace c = true)
    (hd : Unicode.isWhiteSpace d = false) : c ≠ d := by
  rintro rfl
  rw [hd] at hc
  cases hc

/-- The text is at its end, or white space comes next. -/
def Pauses (rest : List Char) : Prop := ∀ c ∈ rest.head?, Unicode.isWhiteSpace c = true

/-- The texts are the same up to white space or to their ends. -/
def UpToSpace (cs cs' : List Char) : Prop :=
  ∃ p r r', cs = p ++ r ∧ cs' = p ++ r' ∧ Pauses r ∧ Pauses r'

variable {cs cs' rest rest' r : List Char}

theorem Pauses.ne (h : Pauses (c :: r)) (hd : Unicode.isWhiteSpace d = false) : c ≠ d :=
  ne_of_isWhiteSpace (h c rfl) hd

/-- Behind a text comes what came behind it, or white space. -/
theorem Pauses.head_append (hr : Pauses r) {P : Char → Prop}
    (hspace : ∀ c, Unicode.isWhiteSpace c = true → P c) {p : List Char} (hp : ∀ c ∈ p.head?, P c) :
    ∀ c ∈ (p ++ r).head?, P c := by
  cases p with
  | nil => exact fun c hc => hspace c (hr c hc)
  | cons d p => exact hp

namespace UpToSpace

theorem pause (h : Pauses cs) (h' : Pauses cs') : UpToSpace cs cs' := ⟨[], cs, cs', rfl, rfl, h, h'⟩

theorem refl (cs : List Char) : UpToSpace cs cs :=
  ⟨cs, [], [], (List.append_nil cs).symm, (List.append_nil cs).symm, nofun, nofun⟩

theorem symm (h : UpToSpace cs cs') : UpToSpace cs' cs := by
  obtain ⟨p, r, r', hcs, hcs', hr, hr'⟩ := h
  exact ⟨p, r', r, hcs', hcs, hr', hr⟩

theorem append (h : UpToSpace cs cs') (w : List Char) : UpToSpace (w ++ cs) (w ++ cs') := by
  obtain ⟨p, r, r', rfl, rfl, hr, hr'⟩ := h
  exact ⟨w ++ p, r, r', (List.append_assoc ..).symm, (List.append_assoc ..).symm, hr, hr'⟩

theorem head (h : UpToSpace cs cs') {P : Char → Prop}
    (hspace : ∀ c, Unicode.isWhiteSpace c = true → P c) (hcs : ∀ c ∈ cs.head?, P c) :
    ∀ c ∈ cs'.head?, P c := by
  obtain ⟨p, r, r', rfl, rfl, -, hr'⟩ := h
  apply hr'.head_append hspace
  cases p with
  | nil => exact nofun
  | cons d p => exact hcs

theorem exists_cons (h : UpToSpace (c :: cs) cs') (hc : Unicode.isWhiteSpace c = false) :
    ∃ ds, cs' = c :: ds ∧ UpToSpace cs ds := by
  obtain ⟨p, r, r', hcs, rfl, hr, hr'⟩ := h
  cases p with
  | nil =>
    rw [List.nil_append] at hcs
    exact absurd rfl (Pauses.ne (hcs ▸ hr) hc)
  | cons d p =>
    obtain ⟨rfl, rfl⟩ := List.cons.inj hcs
    exact ⟨p ++ r', rfl, p, r, r', rfl, rfl, hr, hr'⟩

theorem isDigitNext (h : UpToSpace cs cs') (hcs : isDigitNext cs = true) :
    isDigitNext cs' = true := by
  cases cs with
  | nil => cases hcs
  | cons c cs =>
    obtain ⟨ds, rfl, -⟩ := h.exists_cons
      (not_isWhiteSpace_of_continuesIdent (continuesIdent_of_isDigit hcs))
    exact hcs

end UpToSpace

/-! ### What is taken from the head -/

/-- What is taken from the head of a text up to white space is taken of whatever follows. -/
def Framed (f : List Char → Option (α × List Char)) : Prop :=
  ∀ p r, Pauses r → f (p ++ r) = (f p).map fun (a, x) => (a, x ++ r)

namespace Framed

variable {f : List Char → Option (α × List Char)}

theorem eq_some (hf : Framed f) (h : f (w ++ rest) = some (a, rest))
    (hrest : UpToSpace rest rest') : f (w ++ rest') = some (a, rest') := by
  obtain ⟨p, r, r', rfl, rfl, hr, hr'⟩ := hrest
  rw [← List.append_assoc, hf _ _ hr] at h
  obtain ⟨⟨b, x⟩, hx, h⟩ := Option.map_eq_some_iff.1 h
  obtain ⟨rfl, hxp⟩ := Prod.mk.inj h
  obtain rfl := List.append_cancel_right hxp
  rw [← List.append_assoc, hf _ _ hr', hx]
  rfl

theorem eq_none (hf : Framed f) (h : f cs = none) (hcs : UpToSpace cs cs') : f cs' = none := by
  obtain ⟨p, r, r', rfl, rfl, hr, hr'⟩ := hcs
  rw [hf _ _ hr, Option.map_eq_none_iff] at h
  rw [hf _ _ hr', h]
  rfl

/-- Texts without white space in them are taken up to white space. -/
theorem of_texts {T : List Char → α → Prop} {q : Char → Bool}
    (hq : ∀ c, Unicode.isWhiteSpace c = true → q c = false)
    (hT : ∀ w a, T w a → ∀ c ∈ w, Unicode.isWhiteSpace c = false)
    (hf : ∀ cs a rest, f cs = some (a, rest) ↔
      rest.head?.any q = false ∧ ∃ w, cs = w ++ rest ∧ T w a) : Framed f := by
  have hany (rest : List Char) : rest.head?.any q = false ↔ ∀ c ∈ rest.head?, q c = false := by
    cases rest with
    | nil => exact ⟨fun _ => nofun, fun _ => rfl⟩
    | cons c rest => exact ⟨fun h d hd => Option.some.inj hd ▸ h, fun h => h c rfl⟩
  intro p r hr
  ext ⟨a, y⟩
  simp only [Option.map_eq_some_iff, Prod.exists, Prod.mk.injEq, hf, hany]
  constructor
  · rintro ⟨hy, w, hpr, hw⟩
    rcases List.append_eq_append_iff.1 hpr with ⟨x, rfl, hx⟩ | ⟨x, rfl, rfl⟩
    · -- white space would stand in what is taken
      cases x with
      | nil =>
        rw [List.append_nil] at hw
        obtain rfl : r = y := hx
        exact ⟨a, [], ⟨nofun, p, (List.append_nil p).symm, hw⟩, rfl, rfl⟩
      | cons d x =>
        have hd := hr d (by rw [hx]; rfl)
        rw [hT _ _ hw d (by simp)] at hd
        cases hd
    · refine ⟨a, x, ⟨?_, w, rfl, hw⟩, rfl, rfl⟩
      cases x with
      | nil => exact nofun
      | cons d x => exact hy
  · rintro ⟨a, x, ⟨hx, w, rfl, hw⟩, rfl, rfl⟩
    exact ⟨hr.head_append hq hx, w, List.append_assoc .., hw⟩

end Framed

theorem not_isWhiteSpace_of_isDigit {c : Char} (h : c.isDigit = true) :
    Unicode.isWhiteSpace c = false :=
  not_isWhiteSpace_of_continuesIdent (continuesIdent_of_isDigit h)

/-- White space is not one of a few characters, and goes on with no word. -/
theorem continuation_of_isWhiteSpace {c : Char} (h : Unicode.isWhiteSpace c = true) :
    Unicode.isAlphanumeric c = false ∧ (c == '.') = false ∧ (c == '_') = false ∧
      (c == '$') = false ∧ (c == '(') = false ∧ (c == '!') = false := by
  have hident := not_continuesIdent_of_isWhiteSpace h
  have hne {d : Char} (hd : Unicode.isWhiteSpace d = false) : (c == d) = false :=
    beq_eq_false_iff_ne.2 (ne_of_isWhiteSpace h hd)
  simp only [continuesIdent, Bool.or_eq_false_iff] at hident
  exact ⟨hident.1.1.1.1, hident.1.2, hident.1.1.1.2, hident.1.1.2, hne (by decide), hne (by decide)⟩

theorem framed_takeRows : Framed takeRows := by
  refine .of_texts (T := RowsText) ?_ ?_ fun cs a rest => takeRows_eq_some_iff
  · intro c hc
    obtain ⟨halpha, hpoint, hunder, -, hparen, -⟩ := continuation_of_isWhiteSpace hc
    rw [halpha, hpoint, hunder, hparen]
    rfl
  · intro w a hw c hc
    rcases hw.mem c hc with rfl | rfl | hc
    · decide
    · decide
    · exact not_isWhiteSpace_of_isDigit hc

theorem framed_takeColumns (left : List Char) : Framed (takeColumns left) := by
  refine .of_texts (T := ColumnsText left) ?_ ?_ fun cs a rest => takeColumns_eq_some_iff
  · intro c hc
    obtain ⟨halpha, -, hunder, hdollar, hparen, hbang⟩ := continuation_of_isWhiteSpace hc
    rw [halpha, hunder, hdollar, hparen, hbang]
    rfl
  · intro w a hw c hc
    rcases hw.mem c (List.mem_append_right _ (List.mem_cons_of_mem _ hc)) with rfl | rfl | hc
    · decide
    · decide
    · exact not_isWhiteSpace_of_continuesIdent (continuesIdent_of_isAlpha hc)

end Lexer

/-! ### Numerals -/

namespace Number

open Lexer

variable {r : List Char}

theorem takeDigits_append_pause (hr : Pauses r) (p : List Char) :
    takeDigits (p ++ r) = ((takeDigits p).1, (takeDigits p).2 ++ r) := by
  generalize htaken : takeDigits p = taken
  obtain ⟨ds, x⟩ := taken
  obtain ⟨rfl, hdigits, hhead⟩ := takeDigits_eq_iff.1 htaken
  refine takeDigits_eq_iff.2
    ⟨List.append_assoc .., hdigits, hr.head_append (fun c hc => ?_) hhead⟩
  · cases hdigit : c.isDigit with
    | false => rfl
    | true =>
      rw [not_isWhiteSpace_of_isDigit hdigit] at hc
      cases hc

theorem takeSign_cons_of_ne (hplus : c ≠ '+') (hminus : c ≠ '-') (cs : List Char) :
    takeSign (c :: cs) = (false, c :: cs) := by
  unfold takeSign
  split
  · next h => exact absurd (List.cons.inj h).1 hplus
  · next h => exact absurd (List.cons.inj h).1 hminus
  · rfl

theorem takeSign_append_pause (hr : Pauses r) (p : List Char) :
    takeSign (p ++ r) = ((takeSign p).1, (takeSign p).2 ++ r) := by
  cases p with
  | nil =>
    cases r with
    | nil => rfl
    | cons c r => exact takeSign_cons_of_ne (hr.ne (by decide)) (hr.ne (by decide)) r
  | cons c p =>
    by_cases hplus : c = '+'
    · rw [hplus]
      rfl
    by_cases hminus : c = '-'
    · rw [hminus]
      rfl
    rw [List.cons_append, takeSign_cons_of_ne hplus hminus, takeSign_cons_of_ne hplus hminus]
    rfl

theorem takeExponent_append_pause (hr : Pauses r) (p : List Char) :
    takeExponent (p ++ r) = ((takeExponent p).1, (takeExponent p).2 ++ r) := by
  cases p with
  | nil =>
    cases r with
    | nil => rfl
    | cons c r =>
      exact takeExponent_of_ne (not_or.2 ⟨hr.ne (by decide), hr.ne (by decide)⟩) r
  | cons e p =>
    by_cases he : e = 'e' ∨ e = 'E'
    · rw [List.cons_append, takeExponent_cons he, takeExponent_cons he, takeSign_append_pause hr,
        takeDigits_append_pause hr]
      rcases takeDigits (takeSign p).2 with ⟨_ | ⟨d, ds⟩, x⟩ <;> rfl
    · rw [List.cons_append, takeExponent_of_ne he, takeExponent_of_ne he]
      rfl

/-- The digits behind a point at the head. -/
def takeFraction : List Char → List Char × List Char
  | '.' :: r => takeDigits r
  | r => ([], r)

theorem takeFraction_cons_of_ne (hc : c ≠ '.') (cs : List Char) :
    takeFraction (c :: cs) = ([], c :: cs) := by
  unfold takeFraction
  split
  · next h => exact absurd (List.cons.inj h).1 hc
  · rfl

theorem takeFraction_append_pause (hr : Pauses r) (p : List Char) :
    takeFraction (p ++ r) = ((takeFraction p).1, (takeFraction p).2 ++ r) := by
  cases p with
  | nil =>
    cases r with
    | nil => rfl
    | cons c r => exact takeFraction_cons_of_ne (hr.ne (by decide)) r
  | cons c p =>
    by_cases hc : c = '.'
    · rw [hc]
      exact takeDigits_append_pause hr p
    · rw [List.cons_append, takeFraction_cons_of_ne hc, takeFraction_cons_of_ne hc]
      rfl

theorem takeNumeral_eq (cs : List Char) :
    takeNumeral cs =
      if (takeDigits cs).1.isEmpty && (takeFraction (takeDigits cs).2).1.isEmpty then none
      else
        some (⟨(takeDigits cs).1, (takeFraction (takeDigits cs).2).1,
            (takeExponent (takeFraction (takeDigits cs).2).2).1⟩,
          (takeExponent (takeFraction (takeDigits cs).2).2).2) := rfl

theorem framed_takeNumeral : Framed takeNumeral := by
  intro p r hr
  rw [takeNumeral_eq, takeNumeral_eq, takeDigits_append_pause hr]
  dsimp only
  rw [takeFraction_append_pause hr]
  dsimp only
  rw [takeExponent_append_pause hr]
  split <;> rfl

end Number

/-! ### Tokens -/

namespace Lexer

variable {w rest rest' : List Char} {kind : TokenKind}

/-- What follows on a token matters up to the next white space. -/
theorem Reads.congr (h : Reads w kind rest) (hrest : UpToSpace rest rest') :
    Reads w kind rest' := by
  have hhead {d : Char} (hd : Unicode.isWhiteSpace d = false) (h : d ∉ rest.head?) :
      d ∉ rest'.head? := by
    have hne : ∀ c ∈ rest.head?, c ≠ d := by
      rintro c hc rfl
      exact h hc
    exact fun hmem => hrest.head (fun c hc => ne_of_isWhiteSpace hc hd) hne d hmem rfl
  have hdigit {v : List Char} (h : isDigitNext (v ++ rest) = true) :
      isDigitNext (v ++ rest') = true :=
    (hrest.append v).isDigitNext h
  cases h with
  | single hc => exact .single hc
  | lessEqual => exact .lessEqual
  | notEqual => exact .notEqual
  | less heq hgreater => exact .less (hhead (by decide) heq) (hhead (by decide) hgreater)
  | greaterEqual => exact .greaterEqual
  | greater heq => exact .greater (hhead (by decide) heq)
  | text hw hquote => exact .text hw (hhead (by decide) hquote)
  | quotedSheet hw => exact .quotedSheet hw
  | error he hw => exact .error he hw
  | @rows c v _ _ hc h =>
    apply Reads.rows (hc.imp_left fun hc => ⟨hc.1, hdigit hc.2⟩)
    exact framed_takeRows.eq_some (w := c :: v) h hrest
  | @number c v _ _ hc hrows h =>
    apply Reads.number (hc.imp_right fun hc => ⟨hc.1, hdigit hc.2⟩)
    · exact framed_takeRows.eq_none hrows (hrest.append (c :: v))
    · exact Number.framed_takeNumeral.eq_some (w := c :: v) h hrest
  | function hw hdollar =>
    obtain ⟨ds, rfl, -⟩ := hrest.exists_cons (by decide)
    exact .function hw hdollar
  | sheet hw => exact .sheet hw
  | columns hw h => exact .columns hw ((framed_takeColumns _).eq_some h hrest)
  | word hw hends hcolumns hk =>
    refine .word hw (hrest.head ?_ hends) (fun r hr => ?_) hk
    · intro c hc
      obtain ⟨-, -, -, -, hparen, hbang⟩ := continuation_of_isWhiteSpace hc
      exact ⟨not_continuesIdent_of_isWhiteSpace hc, by simpa using hparen, by simpa using hbang⟩
    · subst hr
      obtain ⟨ds, rfl, hds⟩ := hrest.symm.exists_cons (by decide)
      exact (framed_takeColumns _).eq_none (hcolumns ds rfl) hds.symm

theorem Quoted.exists_concat (h : Quoted quote w s) : ∃ v, w = v ++ [quote] := by
  induction h with
  | close => exact ⟨[], rfl⟩
  | doubled _ ih =>
    obtain ⟨v, rfl⟩ := ih
    exact ⟨quote :: quote :: v, rfl⟩
  | @char c _ _ _ _ ih =>
    obtain ⟨v, rfl⟩ := ih
    exact ⟨c :: v, rfl⟩

theorem not_isWhiteSpace_of_sameAscii {e : ErrorValue} (he : e ∈ ErrorValue.literals)
    (hw : Unicode.sameAscii e.text (String.ofList w) = true) :
    ∀ c ∈ w, Unicode.isWhiteSpace c = false := by
  have hall : ∀ e ∈ ErrorValue.literals,
      (e.text.toList.map Char.toLower).all (fun c => !Unicode.isWhiteSpace c) = true := by
    decide +kernel
  rw [Unicode.sameAscii, String.toList_ofList, beq_iff_eq] at hw
  intro c hc
  cases hupper : c.isUpper with
  | true =>
    exact not_isWhiteSpace_of_continuesIdent (continuesIdent_of_isAlpha (isAlpha_of_isUpper hupper))
  | false =>
    have hlower : c ∈ e.text.toList.map Char.toLower := by
      rw [hw, ← toLower_eq_self hupper]
      exact List.mem_map_of_mem hc
    simpa using List.all_eq_true.1 (hall e he) c hlower

/-- A token ends where white space does not. -/
theorem Reads.not_isWhiteSpace_last (h : Reads w kind rest) :
    ∀ c ∈ w.getLast?, Unicode.isWhiteSpace c = false := by
  have hof {w : List Char} (hw : ∀ c ∈ w, Unicode.isWhiteSpace c = false) :
      ∀ c ∈ w.getLast?, Unicode.isWhiteSpace c = false :=
    fun c hc => hw c (List.mem_of_getLast? hc)
  have hconcat {v : List Char} {d : Char} (hd : Unicode.isWhiteSpace d = false) :
      ∀ c ∈ (v ++ [d]).getLast?, Unicode.isWhiteSpace c = false := by
    intro c hc
    rw [List.getLast?_concat] at hc
    obtain rfl := Option.some.inj hc
    exact hd
  have hword {w : List Char} (hw : Word w) : ∀ c ∈ w, Unicode.isWhiteSpace c = false :=
    fun c hc => not_isWhiteSpace_of_continuesIdent (hw.continues c hc)
  cases h with
  | single hc =>
    apply hconcat (v := [])
    exact not_isWhiteSpace_of_mem_symbolHeads (mem_symbolHeads_of_singleSymbol? hc)
  | lessEqual | greaterEqual => exact hconcat (v := [_]) (d := '=') (by decide)
  | notEqual => exact hconcat (v := [_]) (d := '>') (by decide)
  | less => exact hconcat (v := []) (d := '<') (by decide)
  | greater => exact hconcat (v := []) (d := '>') (by decide)
  | text hw =>
    obtain ⟨v, rfl⟩ := hw.exists_concat
    exact hconcat (v := '"' :: v) (by decide)
  | @quotedSheet v _ _ hw => exact hconcat (v := '\x27' :: v) (by decide)
  | error he hw => exact hof (not_isWhiteSpace_of_sameAscii he hw)
  | rows _ h =>
    obtain ⟨-, v, hv, htext⟩ := takeRows_eq_some_iff.1 h
    rw [← List.cons_append] at hv
    obtain rfl := List.append_cancel_right hv
    refine hof fun c hc => ?_
    rcases htext.mem c hc with rfl | rfl | hc
    · decide
    · decide
    · exact not_isWhiteSpace_of_isDigit hc
  | number _ _ h =>
    obtain ⟨v, hv, htext⟩ := Number.numeralText_of_takeNumeral h
    rw [← List.cons_append] at hv
    obtain rfl := List.append_cancel_right hv
    exact hof (htext.forall_mem (fun _ => not_isWhiteSpace_of_isDigit)
      (forall_mem_of_all (by decide)))
  | function hw | word hw => exact hof (hword hw)
  | sheet hw => exact hconcat (by decide)
  | @columns v u _ _ hw h =>
    obtain ⟨-, x, hx, htext⟩ := takeColumns_eq_some_iff.1 h
    obtain rfl := List.append_cancel_right hx
    refine hof fun c hc => ?_
    rcases htext.mem c hc with rfl | rfl | hc
    · decide
    · decide
    · exact not_isWhiteSpace_of_continuesIdent (continuesIdent_of_isAlpha hc)

end Lexer

end Spreadsheet
