import Spreadsheet.Proofs.Lexing.Areas
import Spreadsheet.Proofs.Outcome

/-!
How tokens are written, with what the text after a token must be for it to end there.
-/

namespace Spreadsheet.Lexer

/-- The inside of a quoted text with its closing quote, and what it stands for. -/
inductive Quoted (quote : Char) : List Char → List Char → Prop
  | close : Quoted quote [quote] []
  | doubled (h : Quoted quote w s) : Quoted quote (quote :: quote :: w) (quote :: s)
  | char (hc : c ≠ quote) (h : Quoted quote w s) : Quoted quote (c :: w) (c :: s)

theorem Quoted.ne_nil (h : Quoted quote w s) : w ≠ [] := by
  cases h <;> exact List.cons_ne_nil _ _

theorem takeQuoted_eq_some_iff {quote : Char} :
    takeQuoted quote cs = some (s, rest) ↔
      quote ∉ rest.head? ∧ ∃ w, cs = w ++ rest ∧ Quoted quote w s := by
  constructor
  · intro h
    fun_induction takeQuoted quote cs generalizing s with
    | case1 => cases h
    | case2 =>
      cases h
      exact ⟨nofun, _, rfl, .close⟩
    | case3 => cases h
    | case4 cs ih =>
      obtain ⟨⟨s, r⟩, hs, h⟩ := Option.map_eq_some_iff.1 h
      cases h
      obtain ⟨hrest, w, rfl, hw⟩ := ih hs
      exact ⟨hrest, _, rfl, .doubled hw⟩
    | case5 d cs hd =>
      cases h
      refine ⟨fun h => hd (Option.some.inj h), _, rfl, .close⟩
    | case6 c d cs hc ih =>
      obtain ⟨⟨s, r⟩, hs, h⟩ := Option.map_eq_some_iff.1 h
      cases h
      obtain ⟨hrest, w, hcs, hw⟩ := ih hs
      exact ⟨hrest, c :: w, congrArg (c :: ·) hcs, .char hc hw⟩
  · rintro ⟨hrest, w, rfl, hw⟩
    induction hw with
    | close =>
      cases rest with
      | nil => simp [takeQuoted]
      | cons c rest =>
        have hc : ¬ c = quote := fun h => hrest (congrArg some h)
        simp [takeQuoted, hc]
    | doubled _ ih => simp [takeQuoted, ih]
    | @char c w s hc h ih =>
      obtain ⟨d, v, rfl⟩ := List.exists_cons_of_ne_nil h.ne_nil
      rw [List.cons_append, List.cons_append] at *
      simp [takeQuoted, hc, ih]

/-- A name, an address, a boolean or the name of a sheet without quotes. -/
structure Word (w : List Char) : Prop where
  starts : ∃ c v, w = c :: v ∧ startsIdent c = true ∧ (c = '$' → isDigitNext v = false)
  continues : ∀ c ∈ w, continuesIdent c = true

/-- The text `w` is a token if `rest` comes next. -/
inductive Reads : List Char → TokenKind → List Char → Prop
  | single (hc : singleSymbol? c = some s) : Reads [c] (.symbol s) rest
  | lessEqual : Reads ['<', '='] (.symbol .lessEqual) rest
  | notEqual : Reads ['<', '>'] (.symbol .notEqual) rest
  | less (heq : '=' ∉ rest.head?) (hgreater : '>' ∉ rest.head?) : Reads ['<'] (.symbol .less) rest
  | greaterEqual : Reads ['>', '='] (.symbol .greaterEqual) rest
  | greater (heq : '=' ∉ rest.head?) : Reads ['>'] (.symbol .greater) rest
  | text (hw : Quoted '"' w s) (hrest : '"' ∉ rest.head?) :
      Reads ('"' :: w) (.text (String.ofList s)) rest
  | quotedSheet (hw : Quoted '\x27' w s) :
      Reads ('\x27' :: (w ++ ['!'])) (.sheet (String.ofList s)) rest
  | error (he : e ∈ ErrorValue.literals) (hw : Unicode.sameAscii e.text (String.ofList w) = true) :
      Reads w (.error e) rest
  | rows (hc : c = '$' ∧ isDigitNext (w ++ rest) = true ∨ c.isDigit = true)
      (h : takeRows (c :: (w ++ rest)) = some (area, rest)) : Reads (c :: w) (.area area) rest
  | number (hc : c.isDigit = true ∨ c = '.' ∧ isDigitNext (w ++ rest) = true)
      (hrows : takeRows (c :: (w ++ rest)) = none)
      (h : Number.takeNumeral (c :: (w ++ rest)) = some (n, rest)) :
      Reads (c :: w) (.number n.toFloat) rest
  | function (hw : Word w) (hdollar : '$' ∉ w) :
      Reads w (.ident (String.ofList w)) ('(' :: rest)
  | sheet (hw : Word w) : Reads (w ++ ['!']) (.sheet (String.ofList w)) rest
  | columns (hw : Word w) (h : takeColumns w (v ++ rest) = some (area, rest)) :
      Reads (w ++ ':' :: v) (.area area) rest
  | word (hw : Word w)
      (hrest : ∀ c ∈ rest.head?, continuesIdent c = false ∧ c ≠ '(' ∧ c ≠ '!')
      (hcolumns : ∀ r, rest = ':' :: r → takeColumns w r = none) (hk : wordKind w = .ok kind) :
      Reads w kind rest

/-! ### Error literals -/

/-- No literal goes on with another. -/
theorem literal_unique {e e' : ErrorValue} (he : e ∈ ErrorValue.literals)
    (he' : e' ∈ ErrorValue.literals)
    (h : e.text.toList.map Char.toLower <+: e'.text.toList.map Char.toLower) : e = e' := by
  have hall : ∀ e ∈ ErrorValue.literals, ∀ e' ∈ ErrorValue.literals,
      e.text.toList.map Char.toLower <+: e'.text.toList.map Char.toLower → e = e' := by
    decide +kernel
  exact hall e he e' he' h

theorem scanError_eq_ok_iff :
    scanError cs = .ok (kind, rest) ↔
      ∃ e ∈ ErrorValue.literals, kind = .error e ∧ ∃ w, cs = w ++ rest ∧
        Unicode.sameAscii e.text (String.ofList w) = true := by
  rw [scanError]
  constructor
  · intro h
    split at h
    · next e he =>
      cases h
      have hspelled := List.find?_some he
      exact ⟨e, List.mem_of_find?_eq_some he, rfl, _, (List.take_append_drop _ _).symm, hspelled⟩
    · cases h
  · rintro ⟨e, he, rfl, w, rfl, hw⟩
    have hlower (e : ErrorValue) (w : List Char) :
        Unicode.sameAscii e.text (String.ofList w) = true ↔
          e.text.toList.map Char.toLower = w.map Char.toLower := by
      rw [Unicode.sameAscii, String.toList_ofList, beq_iff_eq]
    have hlen : w.length = e.text.length := by
      have h := congrArg List.length ((hlower e w).1 hw)
      rw [List.length_map, List.length_map, String.length_toList] at h
      exact h.symm
    have hfind : ErrorValue.literals.find? (fun e =>
        Unicode.sameAscii e.text (String.ofList ((w ++ rest).take e.text.length))) = some e := by
      obtain ⟨e', he'⟩ : ∃ e', ErrorValue.literals.find? (fun e =>
          Unicode.sameAscii e.text (String.ofList ((w ++ rest).take e.text.length))) = some e' := by
        rw [← Option.isSome_iff_exists, List.find?_isSome]
        refine ⟨e, he, ?_⟩
        rw [← hlen, List.take_left]
        exact hw
      have hprefix : e.text.toList.map Char.toLower <+: (w ++ rest).map Char.toLower := by
        rw [(hlower e w).1 hw, List.map_append]
        exact List.prefix_append _ _
      have hprefix' : e'.text.toList.map Char.toLower <+: (w ++ rest).map Char.toLower := by
        have hspelled := List.find?_some he'
        rw [(hlower e' _).1 hspelled]
        exact (List.take_prefix _ _).map _
      rw [he']
      rcases List.prefix_or_prefix_of_prefix hprefix hprefix' with h | h
      · rw [literal_unique he (List.mem_of_find?_eq_some he') h]
      · rw [literal_unique (List.mem_of_find?_eq_some he') he h]
    rw [hfind]
    dsimp only
    rw [← hlen, List.drop_left]

theorem exists_cons_of_sameAscii {e : ErrorValue} (he : e ∈ ErrorValue.literals)
    (hw : Unicode.sameAscii e.text (String.ofList w) = true) : ∃ v, w = '#' :: v := by
  have hhead : ∀ e ∈ ErrorValue.literals, e.text.toList.head? = some '#' := by decide +kernel
  rw [Unicode.sameAscii, String.toList_ofList, beq_iff_eq] at hw
  have h := congrArg List.head? hw
  rw [List.head?_map, List.head?_map, hhead e he] at h
  cases w with
  | nil => cases h
  | cons c v =>
    have hc : '#' = c.toLower := Option.some.inj h
    exact ⟨v, by rw [eq_of_toLower_eq hc.symm rfl]⟩

/-! ### Heads of tokens -/

theorem singleSymbol?_eq_none (h : c ∉ symbolHeads) : singleSymbol? c = none := by
  cases hs : singleSymbol? c with
  | none => rfl
  | some s => exact absurd (mem_symbolHeads_of_singleSymbol? hs) h

theorem eq_of_singleSymbol?_eq_none (h : c ∈ symbolHeads) (hs : singleSymbol? c = none) :
    c = '<' ∨ c = '>' := by
  have hall : ∀ c ∈ symbolHeads, singleSymbol? c = none → c = '<' ∨ c = '>' :=
    forall_mem_of_all (by decide)
  exact hall c h hs

/-- What a token is that starts with none of the characters of symbols. -/
theorem scan_eq (h : c ∉ symbolHeads) (cs : List Char) :
    scan c cs =
      if c = '"' then scanText cs
      else if c = '\x27' then scanSheet cs
      else if c = '#' then scanError (c :: cs)
      else if c = '$' ∧ isDigitNext cs then
        match takeRows (c :: cs) with
        | some (area, r) => .ok (.area area, r)
        | none => .error ⟨0, .badRows⟩
      else if c.isDigit then
        match takeRows (c :: cs) with
        | some (area, r) => .ok (.area area, r)
        | none => scanNumeral (c :: cs)
      else if c = '.' ∧ isDigitNext cs then scanNumeral (c :: cs)
      else if startsIdent c then scanWord (c :: cs)
      else .error ⟨0, .unexpected c⟩ := by
  have hless : c ≠ '<' := by
    rintro rfl
    exact h (by decide)
  have hgreater : c ≠ '>' := by
    rintro rfl
    exact h (by decide)
  unfold scan
  rw [singleSymbol?_eq_none h]
  exact (if_neg hless).trans (if_neg hgreater)

theorem not_mem_symbolHeads (h : continuesIdent c = true) : c ∉ symbolHeads := by
  intro hc
  rw [Ends.not_continuesIdent (.inr hc)] at h
  cases h

theorem scan_eq_scanWord (hc : startsIdent c = true) (hdollar : c = '$' → isDigitNext cs = false) :
    scan c cs = scanWord (c :: cs) := by
  have hne {d : Char} (hd : startsIdent d = false) : c ≠ d := by
    rintro rfl
    rw [hd] at hc
    cases hc
  rw [scan_eq (not_mem_symbolHeads (continuesIdent_of_startsIdent hc)), if_neg (hne (by decide)),
    if_neg (hne (by decide)), if_neg (hne (by decide)), if_neg, if_neg, if_neg, if_pos hc]
  · rintro ⟨rfl, -⟩
    exact hne rfl rfl
  · intro hdigit
    rw [not_startsIdent_of_isDigit hdigit] at hc
    cases hc
  · rintro ⟨rfl, hdigit⟩
    rw [hdollar rfl] at hdigit
    cases hdigit

/-! ### Tokens -/

theorem wordKind_eq_ok (h : wordKind w = .ok kind) :
    (∃ a, kind = .cell a ∧ Address.parse (String.ofList w) = .ok a) ∨
      (Address.parse (String.ofList w)).toOption = none ∧
        (kind = .ident (String.ofList w) ∨
          ∃ b, kind = .boolean b ∧ (Unicode.sameAscii (String.ofList w) "TRUE" = true ∨
            Unicode.sameAscii (String.ofList w) "FALSE" = true)) := by
  unfold wordKind at h
  dsimp only at h
  split at h
  · next a ha =>
    cases h
    exact .inl ⟨a, rfl, ha⟩
  · next hnone =>
    refine .inr ⟨by rw [hnone]; rfl, ?_⟩
    split at h
    · next htrue =>
      cases h
      exact .inr ⟨_, rfl, .inl htrue⟩
    · split at h
      · next hfalse =>
        cases h
        exact .inr ⟨_, rfl, .inr hfalse⟩
      · split at h
        · cases h
        · cases h
          exact .inl rfl

/-- What starts a word is the word up to where nothing goes on with it. -/
theorem word_of_span (hc : startsIdent c = true) (hdollar : c = '$' → isDigitNext cs = false)
    (hspan : (c :: cs).span continuesIdent = (w, rest)) :
    ∃ v, w = c :: v ∧ cs = v ++ rest ∧ Word (c :: v) := by
  obtain ⟨hcs, hall, hhead⟩ := span_eq_iff.1 hspan
  cases w with
  | nil =>
    have hc' := hhead c (by rw [← List.nil_append rest, ← hcs]; rfl)
    rw [continuesIdent_of_startsIdent hc] at hc'
    cases hc'
  | cons d v =>
    obtain ⟨rfl, rfl⟩ := List.cons.inj hcs
    refine ⟨v, rfl, rfl, ⟨c, v, rfl, hc, fun h => ?_⟩, hall⟩
    have hdigit := hdollar h
    cases v with
    | nil => rfl
    | cons d v => exact hdigit

theorem reads_of_scanWord (hc : startsIdent c = true) (hdollar : c = '$' → isDigitNext cs = false)
    (h : scanWord (c :: cs) = .ok (kind, rest)) : ∃ w, cs = w ++ rest ∧ Reads (c :: w) kind rest := by
  generalize hspan : (c :: cs).span continuesIdent = taken at h
  obtain ⟨word, r⟩ := taken
  obtain ⟨v, rfl, rfl, hw⟩ := word_of_span hc hdollar hspan
  obtain ⟨-, -, hhead⟩ := span_eq_iff.1 hspan
  have halone (hparen : '(' ∉ r.head?) (hbang : '!' ∉ r.head?)
      (hcolumns : ∀ r', r = ':' :: r' → takeColumns (c :: v) r' = none)
      (h : (wordKind (c :: v)).map (fun kind => (kind, r)) = .ok (kind, rest)) :
      ∃ w, v ++ r = w ++ rest ∧ Reads (c :: w) kind rest := by
    obtain ⟨k, hk, h⟩ := map_eq_ok.1 h
    obtain ⟨rfl, rfl⟩ := Prod.mk.inj h
    refine ⟨v, rfl, .word hw (fun d hd => ⟨hhead d hd, ?_, ?_⟩) hcolumns hk⟩
    · rintro rfl
      exact hparen hd
    · rintro rfl
      exact hbang hd
  unfold scanWord at h
  rw [hspan] at h
  dsimp only at h
  split at h
  · next r =>
    split at h
    · cases h
    · next hdollar =>
      cases h
      exact ⟨v, rfl, .function hw (by simpa using hdollar)⟩
  · next r =>
    cases h
    exact ⟨v ++ ['!'], by simp, .sheet hw⟩
  · next r =>
    split at h
    · next area r' harea =>
      cases h
      obtain ⟨-, u, rfl, -⟩ := takeColumns_eq_some_iff.1 harea
      exact ⟨v ++ ':' :: u, by simp, .columns hw harea⟩
    · next hnone =>
      exact halone nofun nofun (fun r' h => by cases h; exact hnone) h
  · next hparen hbang hcolon =>
    refine halone ?_ ?_ (fun r' h => absurd h (hcolon r')) h
    · intro hhead
      obtain ⟨r', rfl⟩ := List.head?_eq_some_iff.1 hhead
      exact hparen r' rfl
    · intro hhead
      obtain ⟨r', rfl⟩ := List.head?_eq_some_iff.1 hhead
      exact hbang r' rfl

theorem reads_of_scanNumeral (hc : c.isDigit = true ∨ c = '.' ∧ isDigitNext cs = true)
    (hrows : takeRows (c :: cs) = none) (h : scanNumeral (c :: cs) = .ok (kind, rest)) :
    ∃ w, cs = w ++ rest ∧ Reads (c :: w) kind rest := by
  unfold scanNumeral at h
  split at h
  · next n r hn =>
    cases h
    obtain ⟨w, hcs, hw⟩ := Number.numeralText_of_takeNumeral hn
    obtain ⟨d, w, rfl⟩ := List.exists_cons_of_ne_nil hw.ne_nil
    obtain ⟨rfl, rfl⟩ := List.cons.inj hcs
    exact ⟨w, rfl, .number hc hrows hn⟩
  · cases h

theorem reads_of_takeRows (hc : c = '$' ∧ isDigitNext cs = true ∨ c.isDigit = true)
    (h : takeRows (c :: cs) = some (area, rest)) :
    ∃ w, cs = w ++ rest ∧ Reads (c :: w) (.area area) rest := by
  obtain ⟨-, w, hcs, hw⟩ := takeRows_eq_some_iff.1 h
  obtain ⟨d, w, rfl⟩ := List.exists_cons_of_ne_nil hw.ne_nil
  obtain ⟨rfl, rfl⟩ := List.cons.inj hcs
  exact ⟨w, rfl, .rows hc h⟩

theorem reads_of_scanText (h : scanText cs = .ok (kind, rest)) :
    ∃ w, cs = w ++ rest ∧ Reads ('"' :: w) kind rest := by
  unfold scanText at h
  split at h
  · next s r hs =>
    cases h
    obtain ⟨hrest, w, rfl, hw⟩ := takeQuoted_eq_some_iff.1 hs
    exact ⟨w, rfl, .text hw hrest⟩
  · cases h

theorem reads_of_scanSheet (h : scanSheet cs = .ok (kind, rest)) :
    ∃ w, cs = w ++ rest ∧ Reads ('\x27' :: w) kind rest := by
  unfold scanSheet at h
  split at h
  · next s r hs =>
    cases h
    obtain ⟨-, w, rfl, hw⟩ := takeQuoted_eq_some_iff.1 hs
    exact ⟨w ++ ['!'], by simp, .quotedSheet hw⟩
  · cases h
  · cases h

theorem reads_of_scanError (h : scanError (c :: cs) = .ok (kind, rest)) :
    ∃ w, cs = w ++ rest ∧ Reads (c :: w) kind rest := by
  obtain ⟨e, he, rfl, w, hcs, hw⟩ := scanError_eq_ok_iff.1 h
  obtain ⟨v, rfl⟩ := exists_cons_of_sameAscii he hw
  obtain ⟨rfl, rfl⟩ := List.cons.inj hcs
  exact ⟨v, rfl, .error he hw⟩

theorem reads_of_scan_symbol (hsymbol : c ∈ symbolHeads) (h : scan c cs = .ok (kind, rest)) :
    ∃ w, cs = w ++ rest ∧ Reads (c :: w) kind rest := by
  unfold scan at h
  split at h
  · next s hs =>
    cases h
    exact ⟨[], rfl, .single hs⟩
  · next hs =>
    have hhead {d : Char} {cs : List Char} (h : ∀ r, cs = d :: r → False) : d ∉ cs.head? := by
      intro hd
      obtain ⟨r, rfl⟩ := List.head?_eq_some_iff.1 hd
      exact h r rfl
    rcases eq_of_singleSymbol?_eq_none hsymbol hs with rfl | rfl
    · rw [if_pos rfl] at h
      split at h
      · cases h
        exact ⟨['='], rfl, .lessEqual⟩
      · cases h
        exact ⟨['>'], rfl, .notEqual⟩
      · next heq hgreater =>
        cases h
        exact ⟨[], rfl, .less (hhead heq) (hhead hgreater)⟩
    · rw [if_neg (by decide), if_pos rfl] at h
      split at h
      · cases h
        exact ⟨['='], rfl, .greaterEqual⟩
      · next heq =>
        cases h
        exact ⟨[], rfl, .greater (hhead heq)⟩

theorem reads_of_scan (h : scan c cs = .ok (kind, rest)) :
    ∃ w, cs = w ++ rest ∧ Reads (c :: w) kind rest := by
  by_cases hsymbol : c ∈ symbolHeads
  · exact reads_of_scan_symbol hsymbol h
  rw [scan_eq hsymbol] at h
  by_cases hquote : c = '"'
  · rw [if_pos hquote] at h
    exact hquote ▸ reads_of_scanText h
  rw [if_neg hquote] at h
  by_cases hsheet : c = '\x27'
  · rw [if_pos hsheet] at h
    exact hsheet ▸ reads_of_scanSheet h
  rw [if_neg hsheet] at h
  by_cases herror : c = '#'
  · rw [if_pos herror] at h
    exact reads_of_scanError h
  rw [if_neg herror] at h
  by_cases hdollar : c = '$' ∧ isDigitNext cs = true
  · rw [if_pos hdollar] at h
    split at h
    · next area r harea =>
      cases h
      exact reads_of_takeRows (.inl hdollar) harea
    · cases h
  rw [if_neg hdollar] at h
  by_cases hdigit : c.isDigit = true
  · rw [if_pos hdigit] at h
    split at h
    · next area r harea =>
      cases h
      exact reads_of_takeRows (.inr hdigit) harea
    · next hnone => exact reads_of_scanNumeral (.inl hdigit) hnone h
  rw [if_neg hdigit] at h
  by_cases hpoint : c = '.' ∧ isDigitNext cs = true
  · rw [if_pos hpoint] at h
    refine reads_of_scanNumeral (.inr hpoint) ?_ h
    rw [hpoint.1]
    rfl
  rw [if_neg hpoint] at h
  by_cases hstart : startsIdent c = true
  · rw [if_pos hstart] at h
    refine reads_of_scanWord hstart (fun hc => ?_) h
    simpa using fun hnext => hdollar ⟨hc, hnext⟩
  · rw [if_neg hstart] at h
    cases h

theorem scan_digit (hc : c.isDigit = true) (cs : List Char) :
    scan c cs =
      match takeRows (c :: cs) with
      | some (area, r) => .ok (.area area, r)
      | none => scanNumeral (c :: cs) := by
  have hne {d : Char} (hd : d.isDigit = false) : c ≠ d := by
    rintro rfl
    rw [hd] at hc
    cases hc
  rw [scan_eq (not_mem_symbolHeads (continuesIdent_of_isDigit hc)), if_neg (hne (by decide)),
    if_neg (hne (by decide)), if_neg (hne (by decide)), if_neg fun h => hne (by decide) h.1,
    if_pos hc]

theorem Word.exists_scan (hw : Word w) (hrest : ∀ c ∈ rest.head?, continuesIdent c = false) :
    ∃ c v, w = c :: v ∧ scan c (v ++ rest) = scanWord (w ++ rest) := by
  obtain ⟨c, v, rfl, hc, hdollar⟩ := hw.starts
  refine ⟨c, v, rfl, scan_eq_scanWord hc fun h => ?_⟩
  cases v with
  | cons d v => exact hdollar h
  | nil =>
    cases rest with
    | nil => rfl
    | cons d rest =>
      have hd := hrest d rfl
      cases hdigit : d.isDigit with
      | false => exact hdigit
      | true =>
        rw [continuesIdent_of_isDigit hdigit] at hd
        cases hd

theorem Word.span (hw : Word w) (hrest : ∀ c ∈ rest.head?, continuesIdent c = false) :
    (w ++ rest).span continuesIdent = (w, rest) :=
  span_eq_iff.2 ⟨rfl, hw.continues, hrest⟩

theorem head_not_continuesIdent (rest : List Char) (hc : continuesIdent c = false) :
    ∀ d ∈ (c :: rest).head?, continuesIdent d = false := by
  intro d hd
  obtain rfl := Option.some.inj hd
  exact hc

theorem scan_of_reads (h : Reads w kind rest) :
    ∃ c v, w = c :: v ∧ scan c (v ++ rest) = .ok (kind, rest) := by
  cases h with
  | @single c s rest hc =>
    refine ⟨c, [], rfl, ?_⟩
    unfold scan
    rw [hc]
    rfl
  | lessEqual => exact ⟨'<', ['='], rfl, rfl⟩
  | notEqual => exact ⟨'<', ['>'], rfl, rfl⟩
  | greaterEqual => exact ⟨'>', ['='], rfl, rfl⟩
  | @less rest heq hgreater =>
    have hnone : singleSymbol? '<' = none := rfl
    refine ⟨'<', [], rfl, ?_⟩
    unfold scan
    simp only [hnone, List.nil_append, if_true]
    split
    · exact absurd rfl heq
    · exact absurd rfl hgreater
    · rfl
  | @greater rest heq =>
    have hnone : singleSymbol? '>' = none := rfl
    refine ⟨'>', [], rfl, ?_⟩
    unfold scan
    simp only [hnone, List.nil_append, if_true]
    rw [if_neg (by decide)]
    split
    · exact absurd rfl heq
    · rfl
  | @text w s rest hw hrest =>
    refine ⟨'"', w, rfl, ?_⟩
    rw [scan_eq (by decide), if_pos rfl, scanText, takeQuoted_eq_some_iff.2 ⟨hrest, w, rfl, hw⟩]
  | @quotedSheet w s rest hw =>
    have hbang : '\x27' ∉ ('!' :: rest).head? := nofun
    have htake := takeQuoted_eq_some_iff.2 ⟨hbang, w, rfl, hw⟩
    refine ⟨'\x27', w ++ ['!'], rfl, ?_⟩
    rw [scan_eq (by decide), if_neg (by decide), if_pos rfl, scanSheet, List.append_assoc,
      List.singleton_append, htake]
    rfl
  | @error e w rest he hw =>
    obtain ⟨v, rfl⟩ := exists_cons_of_sameAscii he hw
    refine ⟨'#', v, rfl, ?_⟩
    rw [scan_eq (by decide), if_neg (by decide), if_neg (by decide), if_pos rfl]
    exact scanError_eq_ok_iff.2 ⟨e, he, rfl, '#' :: v, rfl, hw⟩
  | @rows c w rest area hc harea =>
    refine ⟨c, w, rfl, ?_⟩
    rcases hc with ⟨rfl, hnext⟩ | hdigit
    · rw [scan_eq (by decide), if_neg (by decide), if_neg (by decide), if_neg (by decide),
        if_pos ⟨rfl, hnext⟩, harea]
    · rw [scan_digit hdigit, harea]
  | @number c w rest n hc hrows hn =>
    refine ⟨c, w, rfl, ?_⟩
    rcases hc with hdigit | ⟨rfl, hnext⟩
    · rw [scan_digit hdigit, hrows]
      dsimp only
      rw [scanNumeral, hn]
    · rw [scan_eq (by decide), if_neg (by decide), if_neg (by decide), if_neg (by decide),
        if_neg nofun, if_neg (by decide), if_pos ⟨rfl, hnext⟩, scanNumeral, hn]
  | @function w rest hw hdollar =>
    have hparen := head_not_continuesIdent rest (by decide : continuesIdent '(' = false)
    obtain ⟨c, v, rfl, hscan⟩ := hw.exists_scan hparen
    refine ⟨c, v, rfl, ?_⟩
    rw [hscan, scanWord, hw.span hparen]
    dsimp only
    rw [if_neg (by simpa using hdollar)]
    rfl
  | @sheet w rest hw =>
    have hbang := head_not_continuesIdent rest (by decide : continuesIdent '!' = false)
    obtain ⟨c, v, rfl, hscan⟩ := hw.exists_scan hbang
    refine ⟨c, v ++ ['!'], rfl, ?_⟩
    rw [List.append_assoc, List.singleton_append, hscan, scanWord, hw.span hbang]
    rfl
  | @columns w u rest area hw harea =>
    have hcolon := head_not_continuesIdent (u ++ rest) (by decide : continuesIdent ':' = false)
    obtain ⟨c, v, rfl, hscan⟩ := hw.exists_scan hcolon
    refine ⟨c, v ++ ':' :: u, rfl, ?_⟩
    rw [List.append_assoc, List.cons_append, hscan, scanWord, hw.span hcolon]
    simp only [harea]
  | @word w rest kind hw hrest hcolumns hk =>
    obtain ⟨c, v, rfl, hscan⟩ := hw.exists_scan fun d hd => (hrest d hd).1
    refine ⟨c, v, rfl, ?_⟩
    rw [hscan]
    unfold scanWord
    rw [hw.span fun d hd => (hrest d hd).1]
    dsimp only
    rw [hk]
    split
    · exact absurd rfl (hrest _ rfl).2.1
    · exact absurd rfl (hrest _ rfl).2.2
    · next r => rw [hcolumns r rfl]; rfl
    · rfl

/-! ### Numerals -/

/-- What a numeral starts with, whatever follows it. -/
theorem exists_cons_of_numeralText (hw : Number.NumeralText w n) (rest : List Char) :
    ∃ c v, w = c :: v ∧ (c.isDigit = true ∨ c = '.' ∧ isDigitNext (v ++ rest) = true) := by
  have hdigit {ds : List Char} (hds : Number.Digits ds) (hne : ds ≠ []) (r : List Char) :
      ∃ c v, ds ++ r = c :: v ∧ c.isDigit = true := by
    obtain ⟨c, v, rfl⟩ := List.exists_cons_of_ne_nil hne
    exact ⟨c, v ++ r, rfl, hds c List.mem_cons_self⟩
  cases hw with
  | whole hne hw he =>
    obtain ⟨c, v, h, hc⟩ := hdigit hw hne _
    exact ⟨c, v, h, .inl hc⟩
  | @point whole fraction exponent x hne hw hf he =>
    by_cases hwhole : whole = []
    · subst hwhole
      obtain ⟨c, v, h, hc⟩ := hdigit hf (hne.resolve_left fun h => h rfl) (exponent ++ rest)
      refine ⟨'.', _, rfl, .inr ⟨rfl, ?_⟩⟩
      rw [List.append_assoc, h]
      exact hc
    · obtain ⟨c, v, h, hc⟩ := hdigit hw hwhole _
      exact ⟨c, v, h, .inl hc⟩

/-- A numeral is a token where it ends and no colon follows, which would make rows of it. -/
theorem Reads.numeral (hw : Number.NumeralText w n)
    (hends : ∀ c ∈ rest.head?, continuesIdent c = false ∧ c ≠ ':') :
    Reads w (.number n.toFloat) rest := by
  have hrest := Number.Over.of_end fun c hc => (hends c hc).1
  have hrows : takeRows (w ++ rest) = none := by
    apply takeRows_append_eq_none hw.ne_nil
    · refine hw.forall_mem (fun c hdigit => ?_) (forall_mem_of_all (by decide))
      constructor <;> rintro rfl <;> cases hdigit
    · exact fun c hc => ⟨(hends c hc).2, (hrest c hc).1⟩
  have htake := Number.takeNumeral_append hw hrest
  obtain ⟨c, v, rfl, hc⟩ := exists_cons_of_numeralText hw rest
  exact .number hc hrows htake

end Spreadsheet.Lexer
