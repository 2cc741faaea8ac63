import Spreadsheet.Proofs.Writing.Decimals

/-!
Displayed arrays are array constants: what is written for an array of numbers, texts, booleans and
errors is read as a constant with the same elements.
-/

namespace Spreadsheet

open Lexer Grammar

/-! ### Texts between dividers -/

/-- The text is at its end, or an element of an array ends before it. -/
def Divided (rest : List Char) : Prop := ∀ c ∈ rest.head?, c ∈ [',', ';', '}']

/-- Where it is divided from what follows, the text is read as tokens that make a thing. -/
def Spells (P : List Token → α → Prop) (w : List Char) (a : α) : Prop :=
  ∃ kinds, (∀ rest kinds', Divided rest → LexesAs rest kinds' →
      LexesAs (w ++ rest) (kinds ++ kinds')) ∧
    ∀ ts : List Token, ts.map Token.kind = kinds → P ts a

/-- The tokens make things one after the other, with a separator between them. -/
def Listed (P : List Token → α → Prop) (separator : Symbol) (ts : List Token) (as : List α) :
    Prop :=
  ∃ tss, List.Forall₂ P tss as ∧ Joined separator tss ts

namespace Spells

variable {P : List Token → α → Prop}

theorem token (hw : ∀ rest, Divided rest → Reads w kind rest)
    (hp : ∀ t : Token, t.kind = kind → P [t] a) : Spells P w a := by
  refine ⟨[kind], fun rest kinds' hrest h => .token (hw rest hrest) h, fun ts hts => ?_⟩
  obtain ⟨t, rfl, ht⟩ := List.map_eq_singleton_iff.1 hts
  exact hp t ht

theorem one (h : Spells P w a) : Spells (Listed P s) w [a] := by
  obtain ⟨kinds, hlex, hp⟩ := h
  exact ⟨kinds, hlex, fun ts hts => ⟨[ts], .cons (hp ts hts) .nil, .one⟩⟩

theorem cons (hc : singleSymbol? c = some s) (hdivider : c ∈ [',', ';', '}']) (h : Spells P w a)
    (h' : Spells (Listed P s) w' as) : Spells (Listed P s) (w ++ c :: w') (a :: as) := by
  obtain ⟨kinds, hlex, hp⟩ := h
  obtain ⟨kinds', hlex', hp'⟩ := h'
  refine ⟨kinds ++ .symbol s :: kinds', fun rest kinds'' hrest hr => ?_, fun ts hts => ?_⟩
  · rw [List.append_assoc, List.append_assoc]
    apply hlex (c :: w' ++ rest)
    · intro d hd
      obtain rfl := Option.some.inj hd
      exact hdivider
    · exact .symbol hc (hlex' rest kinds'' hrest hr)
  · obtain ⟨us, vs, rfl, hus, hvs⟩ := List.map_eq_append_iff.1 hts
    obtain ⟨t, vs, rfl, ht, hvs⟩ := List.map_eq_cons_iff.1 hvs
    obtain ⟨tss, helements, hjoined⟩ := hp' vs hvs
    exact ⟨us :: tss, .cons (hp us hus) helements, .cons (Token.symbol?_eq_some.2 ht) hjoined⟩

end Spells

/-! ### Elements -/

namespace Literal

/-- Both zeros are the one. -/
def foldZero : Literal → Literal
  | .number x => .number (Number.foldZero x)
  | l => l

/-- Numbers are finite, and errors have a literal. -/
def Displayable : Literal → Prop
  | .number x => x.isFinite = true
  | .error e => ∀ function, e ≠ .notImplemented function
  | _ => True

end Literal

theorem Divided.ends (h : Divided rest) : ∀ c ∈ rest.head?, continuesIdent c = false ∧ c ≠ ':' ∧
    c ≠ '(' ∧ c ≠ '!' ∧ c ≠ '"' := by
  intro c hc
  have hall : ∀ c ∈ [',', ';', '}'], continuesIdent c = false ∧ c ≠ ':' ∧ c ≠ '(' ∧ c ≠ '!' ∧
      c ≠ '"' := forall_mem_of_all (by decide)
  exact hall c (h c hc)

theorem Lexer.Reads.divided_numeral (hw : Number.NumeralText w n) (hrest : Divided rest) :
    Reads w (.number n.toFloat) rest :=
  .numeral hw fun c hc => ⟨(hrest.ends c hc).1, (hrest.ends c hc).2.1⟩

theorem spells_number (h : Number.SignedText w x) : Spells Element w (.number x) := by
  cases h with
  | plain hw => exact .token (fun _ hrest => .divided_numeral hw hrest) fun t ht => .number ht
  | @plus w n hw =>
    refine ⟨[.symbol .plus, .number n.toFloat], fun rest kinds' hrest h =>
      .symbol rfl (.token (.divided_numeral hw hrest) h), fun ts hts => ?_⟩
    obtain ⟨t, us, rfl, ht, hus⟩ := List.map_eq_cons_iff.1 hts
    obtain ⟨u, rfl, hu⟩ := List.map_eq_singleton_iff.1 hus
    exact .plus (Token.symbol?_eq_some.2 ht) (.number hu)
  | @minus w n hw =>
    refine ⟨[.symbol .minus, .number n.toFloat], fun rest kinds' hrest h =>
      .symbol rfl (.token (.divided_numeral hw hrest) h), fun ts hts => ?_⟩
    obtain ⟨t, us, rfl, ht, hus⟩ := List.map_eq_cons_iff.1 hts
    obtain ⟨u, rfl, hu⟩ := List.map_eq_singleton_iff.1 hus
    exact .minus (Token.symbol?_eq_some.2 ht) hu

theorem quoted_text (s : String) :
    ∃ w, Value.quoted s = '"' :: w ∧ Quoted '"' w s.toList := by
  have hw := Quoted.of_doubled '"' s.toList
  simp only [beq_iff_eq] at hw
  exact ⟨_, rfl, hw⟩

theorem spells_text (s : String) : Spells Element (Value.quoted s) (.text s) := by
  obtain ⟨w, hquoted, hw⟩ := quoted_text s
  rw [hquoted]
  refine .token (fun rest hrest => ?_) fun t ht => .text ht
  have hread : Reads ('"' :: w) (.text (String.ofList s.toList)) rest :=
    .text hw fun hquote => (hrest.ends '"' hquote).2.2.2.2 rfl
  rwa [String.ofList_toList] at hread

theorem spells_boolean (b : Bool) : Spells Element (booleanText b).toList (.boolean b) := by
  have hword : ∀ b, (booleanText b).toList ∈ ["TRUE".toList, "FALSE".toList] := by decide
  have hkind : ∀ b, (wordKind (booleanText b).toList).toOption = some (.boolean b) := by decide
  have hcontinues : ∀ b, ∀ c ∈ (booleanText b).toList, continuesIdent c = true := by
    intro b
    cases b <;> exact forall_mem_of_all (by decide)
  refine .token (fun rest hrest => .word ⟨?_, hcontinues b⟩ (fun c hc => ?_) (fun r hr => ?_)
    (toOption_eq_some.1 (hkind b))) fun t ht => .boolean ht
  · cases b
    · exact ⟨'F', _, rfl, by decide, nofun⟩
    · exact ⟨'T', _, rfl, by decide, nofun⟩
  · obtain ⟨hends, -, hparen, hbang, -⟩ := hrest.ends c hc
    exact ⟨hends, hparen, hbang⟩
  · exact absurd rfl (hrest.ends ':' (by rw [hr]; rfl)).2.1

theorem spells_error {e : ErrorValue} (he : ∀ function, e ≠ .notImplemented function) :
    Spells Element e.text.toList (.error e) := by
  have hmem : e ∈ ErrorValue.literals := by
    cases e with
    | notImplemented function => exact absurd rfl (he function)
    | _ => decide
  refine .token (fun rest _ => .error hmem ?_) fun t ht => .error ht
  rw [Unicode.sameAscii, String.toList_ofList, beq_iff_eq]

theorem spells_element {l : Literal} (h : l.Displayable) :
    Spells Element (Value.writeElement l.toValue) l.foldZero := by
  cases l with
  | number x =>
    rw [Literal.toValue, Value.writeElement, Value.write]
    · exact spells_number (signedText_format h)
    · exact fun _ h => by cases h
  | text s =>
    rw [Literal.toValue, Value.writeElement]
    exact spells_text s
  | boolean b =>
    rw [Literal.toValue, Value.writeElement, Value.write]
    · exact spells_boolean b
    · exact fun _ h => by cases h
  | error e =>
    rw [Literal.toValue, Value.writeElement, Value.write]
    · exact spells_error h
    · exact fun _ h => by cases h

/-! ### Arrays -/

theorem spells_row {row : List Literal} (hne : row ≠ []) (h : ∀ l ∈ row, l.Displayable) :
    Spells (Listed Element .comma) (Value.writeRow (row.map Literal.toValue))
      (row.map Literal.foldZero) := by
  induction row with
  | nil => exact absurd rfl hne
  | cons l row ih =>
    obtain ⟨hl, hrow⟩ := List.forall_mem_cons.1 h
    cases row with
    | nil =>
      rw [List.map_singleton, Value.writeRow]
      exact .one (spells_element hl)
    | cons l' row =>
      rw [List.map_cons, List.map_cons, Value.writeRow, ← List.map_cons]
      · exact .cons rfl (by decide) (spells_element hl) (ih (List.cons_ne_nil _ _) hrow)
      · exact fun h => by cases h

theorem spells_rows {rows : List (List Literal)} (hne : rows ≠ []) (hrow : ∀ row ∈ rows, row ≠ [])
    (h : ∀ row ∈ rows, ∀ l ∈ row, l.Displayable) :
    Spells (Listed (Listed Element .comma) .semicolon)
      (Value.writeRows (rows.map fun row => row.map Literal.toValue))
      (rows.map fun row => row.map Literal.foldZero) := by
  induction rows with
  | nil => exact absurd rfl hne
  | cons row rows ih =>
    obtain ⟨hfirst, hrow⟩ := List.forall_mem_cons.1 hrow
    obtain ⟨hl, hrows⟩ := List.forall_mem_cons.1 h
    cases rows with
    | nil =>
      rw [List.map_singleton, Value.writeRows]
      exact .one (spells_row hfirst hl)
    | cons row' rows =>
      rw [List.map_cons, List.map_cons, Value.writeRows, ← List.map_cons]
      · exact .cons rfl (by decide) (spells_row hfirst hl) (ih (List.cons_ne_nil _ _) hrow hrows)
      · exact fun h => by cases h

/-- The text that displays an array with rows of one length is read as a constant that is this
array everywhere, its zeros without a sign. -/
theorem parseFormula_display (rows : List (List Literal)) (hne : rows ≠ [])
    (hrow : ∀ row ∈ rows, row ≠ []) (hlength : SameLength rows)
    (h : ∀ row ∈ rows, ∀ l ∈ row, l.Displayable) :
    ∃ constant,
      parseFormula (Value.array (rows.map fun row => row.map Literal.toValue)).display =
        .ok (.array constant) ∧
      ∀ scope, evaluate scope (.array constant) =
        .done (.array (rows.map fun row => row.map fun l => l.foldZero.toValue)) := by
  refine ⟨rows.map fun row => row.map Literal.foldZero, ?_, fun scope => ?_⟩
  · obtain ⟨kinds, hlex, hrows⟩ := spells_rows hne hrow h
    have hclose : LexesAs ['}'] [.symbol .rightBrace] := .symbol rfl (.blank blank_nil)
    have hdivided : Divided ['}'] := by
      intro c hc
      obtain rfl := Option.some.inj hc
      decide
    have hall := hlex ['}'] _ hdivided hclose
    have hopen : LexesAs ('{' :: (Value.writeRows (rows.map fun row => row.map Literal.toValue) ++
        ['}'])) (.symbol .leftBrace :: (kinds ++ [.symbol .rightBrace])) := .symbol rfl hall
    obtain ⟨lexed, hl, hkinds⟩ := hopen (Place.behind []) false
    have htokens : tokenize (Value.array (rows.map fun row => row.map Literal.toValue)).display =
        .ok lexed := by
      refine tokenize_eq_ok_iff_opens.2 ⟨[], _, ?_, .plain blank_nil ?_ ?_, hl⟩
      · rw [Value.display, String.toList_ofList, Value.write]
        rfl
      · intro c hc
        obtain rfl := Option.some.inj hc
        decide
      · exact fun h => by cases h
    obtain ⟨o, ts, htokens', ho, hts⟩ := List.map_eq_cons_iff.1 hkinds
    obtain ⟨us, vs, rfl, hus, hvs⟩ := List.map_eq_append_iff.1 hts
    obtain ⟨c, rfl, hc⟩ := List.map_eq_singleton_iff.1 hvs
    refine parseFormula_eq_ok_iff.2 ⟨lexed, htokens, ?_⟩
    rw [htokens']
    apply Derives.of_range
    refine .tighter rfl (.array (Token.symbol?_eq_some.2 ho) (Token.symbol?_eq_some.2 hc)
      ⟨hrows us hus, ?_⟩)
    intro row hmem row' hmem'
    obtain ⟨r, hr, rfl⟩ := List.mem_map.1 hmem
    obtain ⟨r', hr', rfl⟩ := List.mem_map.1 hmem'
    rw [List.length_map, List.length_map]
    exact hlength r hr r' hr'
  · have hvalues : (rows.map fun row => row.map Literal.foldZero).map
        (fun row => row.map Literal.toValue) =
          rows.map fun row => row.map fun l => l.foldZero.toValue := by
      rw [List.map_map]
      exact List.map_congr_left fun row _ => List.map_map
    rw [evaluate, hvalues]

theorem parseFormula_display_mixed :
    ∃ constant,
      parseFormula "\x7b\"say \"\"hi\"\"\",-2.5e-7;#DIV/0!,0\x7d" = .ok (.array constant) ∧
      ∀ scope, evaluate scope (.array constant) =
        .done (.array [[.text "say \"hi\"", .number (-2.5e-7)], [.error .div0, .number 0]]) := by
  let rows : List (List Literal) :=
    [[.text "say \"hi\"", .number (-2.5e-7)], [.error .div0, .number (-0.0)]]
  have hsmall : Number.format (-2.5e-7) = "-2.5e-7" := by decide +kernel
  have hzero : Number.format (-0.0) = "0" := by decide +kernel
  have hdisplay : (Value.array (rows.map fun row => row.map Literal.toValue)).display =
      "\x7b\"say \"\"hi\"\"\",-2.5e-7;#DIV/0!,0\x7d" := by
    simp only [rows, List.map, Literal.toValue, Value.display, Value.write, Value.writeRows,
      Value.writeRow, Value.writeElement, hsmall, hzero]
    rfl
  have hsmall' : Number.foldZero (-2.5e-7) = -2.5e-7 := if_neg (by decide +kernel)
  have hzero' : Number.foldZero (-0.0) = 0 := if_pos (by decide +kernel)
  have hfolded : (rows.map fun row => row.map fun l => l.foldZero.toValue) =
      [[.text "say \"hi\"", .number (-2.5e-7)], [.error .div0, .number 0]] := by
    simp only [rows, List.map, Literal.foldZero, Literal.toValue, hsmall', hzero']
  rw [← hdisplay, ← hfolded]
  apply parseFormula_display rows
  · decide
  · decide
  · rw [SameLength]
    decide
  · have hfinite : Float.isFinite (-2.5e-7) = true ∧ Float.isFinite (-0.0) = true := by
      decide +kernel
    simp [rows, Literal.Displayable, hfinite]

end Spreadsheet
