import Spreadsheet.Proofs.Bare
import Spreadsheet.Proofs.Sharing.Meaning
import Spreadsheet.Proofs.Writing.Listed

/-!
References read back from their texts. What is written for a cell or a range is read as tokens
without space between them, and these have a derivation of the reference.
-/

namespace Spreadsheet

open Lexer Grammar

/-! ### Tokens in a row -/

/-- The text is written from tokens of these kinds, with nothing between them. -/
inductive Written : List Char → List TokenKind → Prop
  | nil : Written [] []
  | cons (hw : Reads w kind rest) (h : Written rest kinds) : Written (w ++ rest) (kind :: kinds)

namespace Written

theorem single (hw : Reads w kind []) : Written w [kind] := by
  have h := cons hw nil
  rwa [List.append_nil] at h

theorem exists_lexes (h : Written cs kinds) (place : Place) (space : Bool) :
    ∃ lexed, Lexes place space cs lexed ∧ lexed.tokens.map Token.kind = kinds := by
  induction h generalizing place space with
  | nil => exact ⟨_, .nil, rfl⟩
  | cons hw _ ih =>
    obtain ⟨lexed, hl, hkinds⟩ := ih _ false
    exact ⟨_, .token hw hl, congrArg (_ :: ·) hkinds⟩

/-- No symbol stands at the head, so that neither white space nor an equals sign does. -/
theorem exists_tokenize (h : Written cs kinds) (hk : ∀ s, .symbol s ∉ kinds.head?) :
    ∃ lexed, tokenize (String.ofList cs) = .ok lexed ∧ lexed.tokens.map Token.kind = kinds := by
  obtain ⟨lexed, hl, hkinds⟩ := h.exists_lexes Place.start false
  have hhead : ∀ c ∈ cs.head?, Unicode.isWhiteSpace c = false ∧ c ≠ '=' := by
    intro c hc
    cases h with
    | nil => cases hc
    | @cons w kind rest _ hw _ =>
      have hspace := hw.not_isWhiteSpace
      obtain ⟨d, v, rfl, hscan⟩ := scan_of_reads hw
      obtain rfl := Option.some.inj hc
      refine ⟨hspace d rfl, ?_⟩
      rintro rfl
      change Except.ok (TokenKind.symbol .equal, v ++ rest) = _ at hscan
      exact hk .equal (congrArg some (Prod.mk.inj (Except.ok.inj hscan)).1.symm)
  exact ⟨lexed, tokenize_eq_ok_iff.2 ⟨[], cs, String.toList_ofList, List.forall_mem_nil _,
    fun c hc => (hhead c hc).1, .inr ⟨fun hequal => (hhead '=' hequal).2 rfl, hl⟩⟩, hkinds⟩

end Written

/-! ### Sheets -/

/-- The kind of token that names the sheet. -/
def sheetKinds : Option String → List TokenKind
  | none => []
  | some name => [.sheet name]

/-- A sheet name that stands in quotes or begins as a name does. -/
def Legible (name : String) : Prop :=
  isPlainSheet name.toList = true → ∀ c ∈ name.toList.head?, startsIdent c = true

theorem Lexer.Quoted.of_doubled (quote : Char) (s : List Char) :
    Quoted quote (s.flatMap (fun c => if c == quote then [quote, quote] else [c]) ++ [quote])
      s := by
  induction s with
  | nil => exact .close
  | cons c s ih =>
    rw [List.flatMap_cons]
    by_cases hc : c = quote
    · rw [if_pos (beq_iff_eq.2 hc), hc]
      exact .doubled ih
    · rw [if_neg (mt beq_iff_eq.1 hc)]
      exact .char hc ih

theorem continuesIdent_of_plain (h : (Unicode.isAlphanumeric c || c == '_') = true) :
    continuesIdent c = true := by
  rcases Bool.or_eq_true_iff.1 h with h | h
  · simp [continuesIdent, h]
  · rw [beq_iff_eq.1 h]
    decide

theorem plain_of_isPlainSheet {name : List Char} (h : isPlainSheet name = true) :
    ∃ c cs, name = c :: cs ∧ c.isDigit = false ∧
      ∀ d ∈ name, (Unicode.isAlphanumeric d || d == '_') = true := by
  cases name with
  | nil => cases h
  | cons c cs =>
    obtain ⟨hdigit, hall⟩ := Bool.and_eq_true_iff.1 h
    exact ⟨c, cs, rfl, Bool.eq_false_of_not_eq_true' hdigit, List.all_eq_true.1 hall⟩

theorem word_of_legible {name : String} (h : Legible name)
    (hplain : isPlainSheet name.toList = true) : Word name.toList := by
  obtain ⟨c, cs, hname, -, hall⟩ := plain_of_isPlainSheet hplain
  refine ⟨⟨c, cs, hname, h hplain c (by rw [hname]; rfl), ?_⟩,
    fun d hd => continuesIdent_of_plain (hall d hd)⟩
  rintro rfl
  exact absurd (hall '$' (hname ▸ List.mem_cons_self)) (by decide)

theorem Written.sheet {sheet : Option String} (hsheet : ∀ name ∈ sheet, Legible name)
    (h : Written cs kinds) : Written (writeSheet sheet ++ cs) (sheetKinds sheet ++ kinds) := by
  cases sheet with
  | none => exact h
  | some name =>
    rw [writeSheet]
    split
    · next hplain =>
      have hread : Reads (name.toList ++ ['!']) _ cs :=
        .sheet (word_of_legible (hsheet name rfl) hplain)
      rw [String.ofList_toList] at hread
      exact .cons hread h
    · have hread : Reads _ _ cs := .quotedSheet (Quoted.of_doubled '\x27' name.toList)
      rw [String.ofList_toList, List.append_assoc] at hread
      exact .cons hread h

/-! ### Cells and areas -/

theorem Lexer.Reads.address {a : Address} (h : a.InSheet) (hrest : ∀ c ∈ rest.head?, c = ':') :
    Reads a.write (.cell a) rest := by
  have hvalid := Address.spelling_valid h
  refine .word (word_write hvalid) ?_ (fun r _ => takeColumns_write_left hvalid r)
    (wordKind_write h)
  intro c hc
  rw [hrest c hc]
  decide

theorem columnNumber_columnLetters (hcol : 1 ≤ col) (hmax : col ≤ maxCol) :
    columnNumber (String.ofList (columnLetters col)) = .ok col := by
  have hsome := columnNumber_ofList (columnLetters_ne_nil hcol)
    fun c hc => isAlpha_of_isUpper (isUpper_of_mem_columnLetters hc)
  rw [lettersValue_columnLetters, if_pos ⟨length_columnLetters_le_three hmax, hmax⟩] at hsome
  exact toOption_eq_some.1 hsome

/-- An optional `$` before letters or before digits. -/
theorem word_dollar_letters (abs : Bool) (h : ∀ c ∈ letters, c.isUpper = true)
    (hne : letters ≠ []) : Word (Address.dollar abs ++ letters) := by
  obtain ⟨c, cs, rfl⟩ := List.exists_cons_of_ne_nil hne
  have hupper := h c List.mem_cons_self
  have halpha := isAlpha_of_isUpper hupper
  have hcontinues : ∀ d ∈ c :: cs, continuesIdent d = true :=
    fun d hd => continuesIdent_of_isAlpha (isAlpha_of_isUpper (h d hd))
  cases abs with
  | false =>
    refine ⟨⟨c, cs, rfl, startsIdent_of_head (.inr hupper), ?_⟩, hcontinues⟩
    rintro rfl
    cases hupper
  | true =>
    refine ⟨⟨'$', c :: cs, rfl, by decide, fun _ => ?_⟩,
      List.forall_mem_cons.2 ⟨by decide, hcontinues⟩⟩
    cases hdigit : c.isDigit with
    | false => exact hdigit
    | true =>
      rw [not_isAlpha_of_isDigit hdigit] at halpha
      cases halpha

theorem Lexer.Reads.wholeColumns {a b : Address} (ha : a.InSheet) (hb : b.InSheet) :
    Reads (Address.dollar a.colAbs ++ columnLetters a.col ++ ':' ::
        Address.dollar b.colAbs ++ columnLetters b.col)
      (.area (.ofCorners ⟨1, a.col, true, a.colAbs⟩ ⟨maxRow, b.col, true, b.colAbs⟩)) [] := by
  have hletters {a : Address} (h : a.InSheet) := columnNumber_columnLetters h.2.2.1 h.2.2.2
  have hword := word_dollar_letters a.colAbs (fun _ hc => isUpper_of_mem_columnLetters hc)
    (columnLetters_ne_nil ha.2.2.1)
  rw [List.append_assoc, List.cons_append]
  apply Reads.columns hword
  exact takeColumns_eq_some_iff.2 ⟨rfl, _, rfl, .mk (hletters ha) (hletters hb)⟩

theorem Lexer.RowsText.reads (h : RowsText w area) : Reads w (.area area) [] := by
  have htake : takeRows w = some (area, []) :=
    takeRows_eq_some_iff.2 ⟨rfl, w, (List.append_nil w).symm, h⟩
  cases h with
  | @mk first last abs _ hfirst _ hne _ _ =>
    obtain ⟨d, ds, rfl⟩ := List.exists_cons_of_ne_nil hne.1
    have hdigit := hfirst d List.mem_cons_self
    cases abs with
    | true => exact .rows (.inl ⟨rfl, hdigit⟩) (by rwa [List.append_nil])
    | false => exact .rows (.inr hdigit) (by rwa [List.append_nil])

theorem rowsText {row row' : Nat} (abs abs' : Bool) (h : row ≠ 0 ∧ row ≤ maxRow)
    (h' : row' ≠ 0 ∧ row' ≤ maxRow) :
    RowsText (Address.dollar abs ++ (Nat.toDigits 10 row ++ ':' ::
        (Address.dollar abs' ++ Nat.toDigits 10 row')))
      (.ofCorners ⟨row, 1, abs, true⟩ ⟨row', maxCol, abs', true⟩) := by
  have hdigits (n : Nat) : Number.Digits (Nat.toDigits 10 n) :=
    fun _ hc => Nat.isDigit_of_mem_toDigits (by decide) (by decide) hc
  rw [← digitsValue_toDigits row] at h
  rw [← digitsValue_toDigits row'] at h'
  have htext : RowsText (Address.dollar abs ++ (Nat.toDigits 10 row ++ ':' ::
      (Address.dollar abs' ++ Nat.toDigits 10 row'))) _ :=
    .mk (hdigits row) (hdigits row') ⟨Nat.toDigits_ne_nil, Nat.toDigits_ne_nil⟩ h h'
  rwa [digitsValue_toDigits, digitsValue_toDigits] at htext

theorem Lexer.Reads.wholeRows {a b : Address} (ha : a.InSheet) (hb : b.InSheet) :
    Reads (Address.dollar a.rowAbs ++ Nat.toDigits 10 a.row ++ ':' ::
        Address.dollar b.rowAbs ++ Nat.toDigits 10 b.row)
      (.area (.ofCorners ⟨a.row, 1, a.rowAbs, true⟩ ⟨b.row, maxCol, b.rowAbs, true⟩)) [] := by
  rw [List.append_assoc, List.append_assoc, List.cons_append]
  apply RowsText.reads
  exact rowsText _ _ ⟨Nat.one_le_iff_ne_zero.1 ha.1, ha.2.1⟩ ⟨Nat.one_le_iff_ne_zero.1 hb.1, hb.2.1⟩

theorem Written.corners {a b : Address} (ha : a.InSheet) (hb : b.InSheet) :
    Written (a.write ++ ':' :: b.write) [.cell a, .symbol .colon, .cell b] :=
  .cons (.address ha fun _ hc => (Option.some.inj hc).symm)
    (.cons (w := [':']) (.single rfl) (.single (.address hb nofun)))

/-! ### References -/

namespace Grammar

/-- Tokens of these kinds have a derivation of the expression, however they stand. -/
def Makes (kinds : List TokenKind) (e : Expr) : Prop :=
  ∀ ts : List Token, ts.map Token.kind = kinds → Derives .comparison ts e

theorem Derives.of_range (h : Derives .range ts e) : Derives .comparison ts e :=
  .tighter rfl (.tighter rfl (.tighter rfl (.tighter rfl (.tighter rfl (.tighter rfl
    (.tighter rfl (.tighter rfl h)))))))

theorem Derives.cellRef {sheet : Option String} {a : Address} {ts : List Token}
    (hts : ts.map Token.kind = sheetKinds sheet ++ [.cell a]) :
    Derives .primary ts (.cell ⟨sheet, a⟩) := by
  cases sheet with
  | none =>
    obtain ⟨t, rfl, ht⟩ := List.map_eq_singleton_iff.1 hts
    exact .cell ht
  | some name =>
    obtain ⟨s, us, rfl, hs, hus⟩ := List.map_eq_cons_iff.1 hts
    obtain ⟨t, rfl, ht⟩ := List.map_eq_singleton_iff.1 hus
    exact .sheetCell hs ht

theorem makes_cell (sheet : Option String) (a : Address) :
    Makes (sheetKinds sheet ++ [.cell a]) (.cell ⟨sheet, a⟩) :=
  fun _ hts => .of_range (.tighter rfl (.cellRef hts))

theorem makes_area (sheet : Option String) (area : Range) :
    Makes (sheetKinds sheet ++ [.area area]) (.range ⟨sheet, area⟩) := by
  intro ts hts
  apply Derives.of_range
  cases sheet with
  | none =>
    obtain ⟨t, rfl, ht⟩ := List.map_eq_singleton_iff.1 hts
    exact .tighter rfl (.area ht)
  | some name =>
    obtain ⟨s, us, rfl, hs, hus⟩ := List.map_eq_cons_iff.1 hts
    obtain ⟨t, rfl, ht⟩ := List.map_eq_singleton_iff.1 hus
    exact .tighter rfl (.sheetArea hs ht)

/-- The sheet of the first corner is that of the range. -/
theorem makes_corners (sheet : Option String) (a b : Address) :
    Makes (sheetKinds sheet ++ [.cell a, .symbol .colon, .cell b])
      (.range ⟨sheet, .ofCorners a b⟩) := by
  intro ts hts
  obtain ⟨us, vs, rfl, hus, hvs⟩ := List.map_eq_append_iff.1
    (hts.trans (List.append_cons _ _ _))
  obtain ⟨colon, ws, rfl, hcolon, hws⟩ := List.map_eq_cons_iff.1 hvs
  obtain ⟨t, rfl, ht⟩ := List.map_eq_singleton_iff.1 hws
  have hrange := Derives.cells (Token.symbol?_eq_some.2 hcolon)
    (fun _ _ _ h => absurd h (Option.not_mem_none _)) (.tighter rfl (.cellRef hus))
    (Derives.cell ht)
  have hsheet : (sheet <|> none) = sheet := by cases sheet <;> rfl
  rw [hsheet] at hrange
  exact .of_range hrange

end Grammar

theorem parseFormula_of_written (h : Written cs kinds) (hk : ∀ s, .symbol s ∉ kinds.head?)
    (hm : Makes kinds e) : parseFormula (String.ofList cs) = .ok e := by
  obtain ⟨lexed, hl, hkinds⟩ := h.exists_tokenize hk
  exact parseFormula_eq_ok_iff.2 ⟨lexed, hl, hm _ hkinds⟩

theorem not_symbol_of_sheetKinds {sheet : Option String} (hk : ∀ s, kind ≠ .symbol s) (s : Symbol) :
    .symbol s ∉ (sheetKinds sheet ++ kind :: kinds).head? := by
  intro h
  cases sheet with
  | none => exact hk s (Option.some.inj h)
  | some name => cases Option.some.inj h

theorem Range.bare_ofCorners_of_eq {r : Range} {a b : Address} (ha : a.bare = r.topLeft.bare)
    (hb : b.bare = r.bottomRight.bare) : (ofCorners a b).bare = r.bare := by
  rw [bare_ofCorners, ha, hb]
  simp [ofCorners, bare, Address.bare, Address.relative, r.row_le, r.col_le]

namespace CellRef

theorem parse_write {r : CellRef} (h : r.address.InSheet)
    (hsheet : ∀ name ∈ r.sheet, Legible name) :
    parseFormula (String.ofList r.write) = .ok (.cell r) :=
  parseFormula_of_written (.sheet hsheet (.single (.address h nofun)))
    (not_symbol_of_sheetKinds (by simp)) (makes_cell _ _)

end CellRef

namespace RangeRef

/-- A range reads back but for its flags: those of the axis that is not written are set. -/
theorem exists_parse_write {r : RangeRef} (h : r.range.InSheet)
    (hsheet : ∀ name ∈ r.sheet, Legible name) :
    ∃ range : Range, range.bare = r.range.bare ∧
      parseFormula (String.ofList r.write) = .ok (.range ⟨r.sheet, range⟩) := by
  obtain ⟨ha, hb⟩ := h
  rw [write]
  split
  · next hrows =>
    refine ⟨_, ?_, parseFormula_of_written (.sheet hsheet (.single (.wholeColumns ha hb)))
      (not_symbol_of_sheetKinds (by simp)) (makes_area _ _)⟩
    apply Range.bare_ofCorners_of_eq
    · rw [Address.bare, Address.bare, hrows.1]
    · rw [Address.bare, Address.bare, hrows.2]
  · split
    · next hcols =>
      refine ⟨_, ?_, parseFormula_of_written (.sheet hsheet (.single (.wholeRows ha hb)))
        (not_symbol_of_sheetKinds (by simp)) (makes_area _ _)⟩
      apply Range.bare_ofCorners_of_eq
      · rw [Address.bare, Address.bare, hcols.1]
      · rw [Address.bare, Address.bare, hcols.2]
    · exact ⟨_, Range.bare_ofCorners_of_eq rfl rfl,
        parseFormula_of_written (.sheet hsheet (.corners ha hb))
        (not_symbol_of_sheetKinds (by simp)) (makes_corners _ _ _)⟩

end RangeRef

/-! ### Sheets that do not read back -/

/-- A name cannot start with a numeral, be it one of the decimal digits or another. -/
theorem Lexer.scan_eq_error (hplain : (Unicode.isAlphanumeric c || c == '_') = true)
    (hdigit : c.isDigit = false) (hstart : startsIdent c = false) (cs : List Char) :
    scan c cs = .error ⟨0, .unexpected c⟩ := by
  have hne {d : Char} (hd : (Unicode.isAlphanumeric d || d == '_') = false) : c ≠ d := by
    rintro rfl
    rw [hd] at hplain
    cases hplain
  rw [scan_eq (not_mem_symbolHeads (continuesIdent_of_plain hplain)), if_neg (hne (by decide)),
    if_neg (hne (by decide)), if_neg (hne (by decide)), if_neg fun h => hne (by decide) h.1,
    if_neg (ne_true_of_eq_false hdigit), if_neg fun h => hne (by decide) h.1,
    if_neg (ne_true_of_eq_false hstart)]

theorem legible_of_tokenize {name : String} {cs : List Char}
    (hl : tokenize (String.ofList (writeSheet (some name) ++ cs)) = .ok lexed) : Legible name := by
  intro hplain c hc
  by_contra hstart
  obtain ⟨d, v, hname, hdigit, hall⟩ := plain_of_isPlainSheet hplain
  rw [hname] at hc hall
  obtain rfl := Option.some.inj hc
  have hplain' := hall d List.mem_cons_self
  have hspace := not_isWhiteSpace_of_continuesIdent (continuesIdent_of_plain hplain')
  rw [writeSheet, if_pos hplain, hname, tokenize, String.toList_ofList,
    span_eq_iff.2 ⟨(List.nil_append _).symm, List.forall_mem_nil _, fun c hc => ?_⟩] at hl
  · dsimp only [List.cons_append] at hl
    split at hl
    · next h =>
      obtain rfl := (List.cons.inj h).1
      cases hplain'
    · rw [tokensFrom, if_neg (ne_true_of_eq_false hspace),
        scan_eq_error hplain' hdigit (eq_false_of_ne_true hstart)] at hl
      cases hl
  · obtain rfl := Option.some.inj hc
    exact hspace

/-! ### Formulas -/

/-- The cell or range that is all of a formula. -/
def Expr.whole? : Expr → Option Reference
  | cell ref => some (.cell ref)
  | range ref => some (.range ref)
  | _ => none

/-- The text of the reference is read as one of the same kind to the same cells, on the same sheet.
Whether its rows and columns have a `$` does not matter. -/
def Reference.ReadsBack (r : Reference) : Prop :=
  ∃ e r', parseFormula r.toText = .ok e ∧ e.whole? = some r' ∧ r'.bare = r.bare

theorem Reference.readsBack_of_legible {r : Reference} (hin : r.InSheet)
    (h : ∀ name ∈ r.sheet?, Legible name) : r.ReadsBack := by
  cases r with
  | cell ref => exact ⟨_, _, CellRef.parse_write hin h, rfl, rfl⟩
  | range ref =>
    obtain ⟨range, hbare, he⟩ := RangeRef.exists_parse_write hin h
    refine ⟨_, _, he, rfl, ?_⟩
    rw [bare, bare, RangeRef.bare, hbare]
    rfl
  | union parts => exact hin.elim

theorem Reference.legible_of_readsBack {r : Reference} (hin : r.InSheet) (h : r.ReadsBack) :
    ∀ name ∈ r.sheet?, Legible name := by
  rintro name hname
  obtain ⟨e, r', he, -⟩ := h
  obtain ⟨lexed, hl, -⟩ := parseFormula_eq_ok_iff.1 he
  cases r with
  | union parts => exact hin.elim
  | cell ref =>
    obtain ⟨sheet, address⟩ := ref
    obtain rfl : sheet = some name := hname
    exact legible_of_tokenize hl
  | range ref =>
    obtain ⟨sheet, range⟩ := ref
    obtain rfl : sheet = some name := hname
    exact legible_of_tokenize hl

/-- Of the references that a formula lists those read back whose sheet is written so that it can be
read: only a name that is written without quotes and starts with a numeral cannot. -/
theorem readsBack_iff (he : parseFormula text = .ok e) (hr : r ∈ e.references) :
    r.ReadsBack ↔ ∀ name ∈ r.sheet?, Legible name :=
  have hin := parseFormula_listing he r hr
  ⟨Reference.legible_of_readsBack hin, Reference.readsBack_of_legible hin⟩

theorem readsBack_iff_columns :
    ∃ e r, parseFormula "=-'it''s'!$A1:C1048576" = .ok e ∧ r ∈ e.references ∧
      r.toText = "'it''s'!$A:C" ∧ (r.ReadsBack ↔ ∀ name ∈ r.sheet?, Legible name) := by
  have hl : tokenize "=-'it''s'!$A1:C1048576" = .ok ⟨[⟨.symbol .minus, "-", ⟨1, 2⟩, false⟩,
    ⟨.sheet "it's", "'it''s'!", ⟨1, 3⟩, false⟩,
    ⟨.cell ⟨1, 1, false, true⟩, "$A1", ⟨1, 11⟩, false⟩, ⟨.symbol .colon, ":", ⟨1, 14⟩, false⟩,
    ⟨.cell ⟨1048576, 3, false, false⟩, "C1048576", ⟨1, 15⟩, false⟩], ⟨1, 23⟩, false⟩ := rfl
  let ref : RangeRef :=
    ⟨some "it's", .ofCorners ⟨1, 1, false, true⟩ ⟨1048576, 3, false, false⟩⟩
  have he : parseFormula "=-'it''s'!$A1:C1048576" = .ok (.sign .negate (.range ref)) :=
    parseFormula_of_tokens hl rfl
  have hr := List.mem_singleton_self (Reference.range ref)
  exact ⟨_, _, he, hr, by cbv, readsBack_iff he hr⟩

/-- A sheet that is named by a superscript two is written without quotes and does not read back. -/
theorem not_readsBack :
    ¬ ∀ (text : String) (e : Expr) (r : Reference), parseFormula text = .ok e →
      r ∈ e.references → r.ReadsBack := by
  intro h
  have hl : tokenize "='²'!A1" = .ok ⟨[⟨.sheet "²", "'²'!", ⟨1, 2⟩, false⟩,
    ⟨.cell (.relative 1 1), "A1", ⟨1, 6⟩, false⟩], ⟨1, 8⟩, false⟩ := rfl
  obtain ⟨e', r', he', -⟩ := h "='²'!A1" _ _ (parseFormula_of_tokens hl rfl)
    (List.mem_singleton_self _)
  obtain ⟨lexed, hl', -⟩ := parseFormula_eq_ok_iff.1 he'
  have hlegible : Legible "²" := legible_of_tokenize hl'
  exact absurd (hlegible (by decide) '²' rfl) (by decide)

end Spreadsheet
