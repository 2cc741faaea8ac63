import Mathlib.Data.List.DropRight
import Spreadsheet.Diagnostic
import Spreadsheet.Proofs.Faults.Levels
import Spreadsheet.Proofs.Lexing.Layout

/-!
Where syntax errors point to: a lexical one behind some part of the text, one of the grammar to
where a token begins or to the end. Either way the diagnostic finds a line and a column of it.
-/

namespace Spreadsheet

/-! ### Lines -/

theorem splitOn_cons (c : Char) (cs : List Char) :
    (c :: cs).splitOn '\n' =
      if c = '\n' then [] :: cs.splitOn '\n' else (cs.splitOn '\n').modifyHead (c :: ·) := by
  rw [List.splitOn, List.splitOnP_cons_eq_if_modifyHead]
  by_cases hc : c = '\n' <;> simp [hc, List.splitOn]

theorem splitOn_ne_nil (cs : List Char) : cs.splitOn '\n' ≠ [] := List.splitOnP_ne_nil _ cs

theorem lines_eq_splitOn (cs : List Char) : lines cs = cs.splitOn '\n' := by
  induction cs with
  | nil => rfl
  | cons c cs ih =>
    rw [lines, splitOn_cons, ih]
    split
    · rfl
    · obtain ⟨line, more, h⟩ := List.exists_cons_of_ne_nil (splitOn_ne_nil cs)
      rw [h]
      rfl

namespace Place

/-- The place of a character of a line, or the one behind the line. -/
structure PointsTo (p : Place) (text line : List Char) : Prop where
  line_pos : 1 ≤ p.line
  line_eq : (text.splitOn '\n')[p.line - 1]? = some line
  column_pos : 1 ≤ p.column
  column_le : p.column ≤ line.length + 1

theorem behind_cons_break (cs : List Char) :
    behind ('\n' :: cs) = ⟨(behind cs).line + 1, (behind cs).column⟩ := by
  rw [behind, List.count_cons_self, List.reverse_cons, List.takeWhile_append]
  split
  · next h =>
    rw [List.takeWhile_cons_of_neg (by simp), List.append_nil, ← h]
    rfl
  · rfl

theorem behind_cons_of_break (c : Char) (hc : c ≠ '\n') (h : '\n' ∈ cs) :
    behind (c :: cs) = behind cs := by
  rw [behind, List.count_cons_of_ne hc, List.reverse_cons, List.takeWhile_append, if_neg]
  · rfl
  · intro hlen
    have hall := List.takeWhile_eq_self_iff.1 ((List.takeWhile_prefix _).eq_of_length hlen)
    simpa using hall '\n' (List.mem_reverse.2 h)

theorem behind_of_no_break (h : '\n' ∉ cs) : behind cs = ⟨1, cs.length + 1⟩ := by
  rw [behind, List.count_eq_zero_of_not_mem h, List.takeWhile_eq_self_iff.2, List.length_reverse]
  intro c hc
  have hne : c ≠ '\n' := fun heq => h (heq ▸ List.mem_reverse.1 hc)
  simpa using hne

theorem exists_line_behind (h : front <+: cs) : ∃ line, (behind front).PointsTo cs line := by
  suffices hline : ∃ line, (cs.splitOn '\n')[(behind front).line - 1]? = some line ∧
      (behind front).column ≤ line.length + 1 by
    obtain ⟨line, hline, hcolumn⟩ := hline
    exact ⟨line, Nat.le_add_left 1 _, hline, Nat.le_add_left 1 _, hcolumn⟩
  induction front generalizing cs with
  | nil =>
    obtain ⟨line, more, h⟩ := List.exists_cons_of_ne_nil (splitOn_ne_nil cs)
    exact ⟨line, by rw [h]; rfl, Nat.le_add_left 1 _⟩
  | cons c front ih =>
    obtain ⟨cs, rfl, hfront⟩ := List.cons_prefix_iff.1 h
    obtain ⟨line, hline, hcolumn⟩ := ih hfront
    rw [splitOn_cons]
    by_cases hc : c = '\n'
    · subst hc
      rw [if_pos rfl, behind_cons_break]
      exact ⟨line, hline, hcolumn⟩
    · obtain ⟨_, more, hlines⟩ := List.exists_cons_of_ne_nil (splitOn_ne_nil cs)
      rw [if_neg hc, hlines, List.modifyHead_cons]
      rw [hlines] at hline
      by_cases hbreak : '\n' ∈ front
      · -- a line behind the first one, which the character does not belong to
        rw [behind_cons_of_break c hc hbreak]
        have hcount : (behind front).line - 1 = (front.count '\n' - 1) + 1 :=
          (Nat.succ_pred_eq_of_pos (List.count_pos_iff.2 hbreak)).symm
        rw [hcount, List.getElem?_cons_succ] at hline ⊢
        exact ⟨line, hline, hcolumn⟩
      · have hbreak' : '\n' ∉ c :: front := by simp [hbreak, Ne.symm hc]
        rw [behind_of_no_break hbreak] at hline hcolumn
        rw [behind_of_no_break hbreak']
        cases hline
        exact ⟨c :: line, rfl, Nat.succ_le_succ hcolumn⟩

end Place

/-! ### Lexical errors -/

/-- The place of a lexical error is behind some part of the text, and be it all of it. -/
theorem Lexer.tokensFrom_error (h : tokensFrom cs skip place space = .error e)
    (hplace : place = Place.behind before) :
    ∃ front, front <+: before ++ cs ∧ e.place = Place.behind front := by
  induction cs generalizing skip place space before e with
  | nil => cases h
  | cons c cs ih =>
    have hnext : place.next c = Place.behind (before ++ [c]) := by
      rw [hplace, Place.behind_concat]
    rw [List.append_cons]
    cases skip with
    | succ skip => exact ih h hnext
    | zero =>
      rw [tokensFrom] at h
      split at h
      · exact ih h hnext
      · split at h
        · next f _ =>
          cases h
          refine ⟨before ++ (c :: cs).take f.offset, ?_, ?_⟩
          · rw [← List.append_cons]
            exact (List.prefix_append_right_inj before).2 (List.take_prefix _ _)
          · rw [hplace, Place.behind_append]
        · exact ih (map_eq_error.1 h) hnext

theorem tokenize_error_place (h : tokenize text = .error e) :
    ∃ front, front <+: text.toList ∧ e.place = Place.behind front := by
  unfold tokenize at h
  generalize hspan : text.toList.span Unicode.isWhiteSpace = taken at h
  obtain ⟨lead, cs⟩ := taken
  obtain ⟨htext, -, -⟩ := span_eq_iff.1 hspan
  rw [htext]
  dsimp only at h
  split at h
  · next rest =>
    have hplace : (Place.start.after lead).next '=' = Place.behind (lead ++ ['=']) := by
      rw [Place.after_start, Place.behind_concat]
    rw [List.append_cons]
    exact Lexer.tokensFrom_error h hplace
  · exact Lexer.tokensFrom_error h (Place.after_start lead)

/-! ### Faults of the grammar -/

/-- A mark begins in a text behind some part of it; the end of the text is behind all of it. -/
structure Mark.Begins (m : Mark) (text front : List Char) : Prop where
  written : front ++ m.lexeme.toList <+: text
  place : m.place = Place.behind front
  stop : m.kind = none → front = text

/-- The pieces of a text, but for an equals sign and white space at its head. -/
theorem tokenize_laid (h : tokenize text = .ok lexed) :
    ∃ before pieces, pieces.map Piece.mark = lexed.marks ∧ text.toList = before ++ written pieces ∧
      Laid before pieces := by
  obtain ⟨lead, cs, htext, -, -, hlexes⟩ := tokenize_eq_ok_iff.1 h
  have hstart : ∃ before rest, text.toList = before ++ rest ∧
      Lexer.Lexes (Place.behind before) false rest lexed := by
    obtain ⟨rest, rfl, hrest⟩ | ⟨-, hcs⟩ := hlexes
    · rw [Place.after_start, ← Place.behind_concat] at hrest
      exact ⟨lead ++ ['='], rest, by rw [htext, List.append_cons], hrest⟩
    · rw [Place.after_start] at hcs
      exact ⟨lead, cs, htext, hcs⟩
  obtain ⟨before, rest, htext, hrest⟩ := hstart
  obtain ⟨pieces, hmarks, hrest, hlaid⟩ := hrest.laid (congrArg _ (List.append_nil before).symm)
    nofun (by simp)
  exact ⟨before, pieces, hmarks, by rw [htext, ← hrest]; rfl, hlaid⟩

theorem tokenize_begins (h : tokenize text = .ok lexed) (hm : m ∈ lexed.marks) :
    ∃ front, m.Begins text.toList front := by
  obtain ⟨before, pieces, hmarks, htext, hlaid⟩ := tokenize_laid h
  rw [← hmarks] at hm
  obtain ⟨p, hp, rfl⟩ := List.mem_map.1 hm
  obtain ⟨ahead, back, rfl⟩ := List.append_of_mem hp
  have hstands := hlaid ahead p back rfl
  have hwritten : text.toList = before ++ written ahead ++ p.gap ++ p.mark.lexeme.toList ++
      written back := by
    simp only [htext, written, List.flatMap_append, List.flatMap_cons, Piece.written,
      List.append_assoc]
  refine ⟨before ++ written ahead ++ p.gap, ⟨written back, hwritten.symm⟩, hstands.place, ?_⟩
  intro hkind
  obtain rfl := hstands.stop.1 hkind
  have hempty : p.mark.lexeme = "" := hstands.empty.2 rfl
  rw [hwritten, hempty]
  simp [written]

theorem Lexed.exists_mark (lexed : Lexed) (hs : rest <:+ lexed.tokens) :
    ∃ m ∈ lexed.marks, m.place = lexed.place rest := by
  cases rest with
  | nil => exact ⟨_, List.mem_append_right _ (List.mem_singleton_self _), rfl⟩
  | cons t rest =>
    have ht : t ∈ lexed.tokens := hs.subset List.mem_cons_self
    exact ⟨t.mark, List.mem_append_left _ (List.mem_map_of_mem ht), rfl⟩

/-- A syntax error points into its text. -/
theorem parseFormula_error_place (h : parseFormula text = .error e) :
    (∃ front, front <+: text.toList ∧ e.place = Place.behind front) ∧
      ∀ cause, e.cause = .grammar cause → ∃ lexed, tokenize text = .ok lexed ∧
        ∃ m ∈ lexed.marks, m.place = e.place := by
  unfold parseFormula at h
  cases htokens : tokenize text with
  | error e' =>
    rw [htokens] at h
    cases h
    exact ⟨tokenize_error_place htokens, nofun⟩
  | ok lexed =>
    rw [htokens] at h
    dsimp only at h
    cases hfault : Parser.formula lexed.tokens with
    | ok f => rw [hfault] at h; cases h
    | error fault =>
      rw [hfault] at h
      cases h
      obtain ⟨m, hm, hplace⟩ := lexed.exists_mark (Parser.formula_error_suffix hfault)
      obtain ⟨front, hbegins⟩ := tokenize_begins htokens hm
      refine ⟨⟨front, (List.prefix_append _ _).trans hbegins.written, ?_⟩, ?_⟩
      · rw [← hplace]
        exact hbegins.place
      · exact fun _ _ => ⟨lexed, rfl, m, hm, hplace⟩

theorem Diagnostic.sourceLine_of (h : e.place.PointsTo text.toList line) :
    (Diagnostic.of text e).sourceLine = String.ofList (line.rdropWhile (· = '\r')) := by
  rw [Diagnostic.of, lines_eq_splitOn, h.line_eq]
  rfl

/-- A diagnostic shows the line of the text that the error is in, at a column of it or behind it; an
error of the grammar is where a token begins, or at the end of the text. -/
theorem diagnostic_points (h : parseFormula text = .error e) :
    (∃ line, e.place.PointsTo text.toList line ∧ (Diagnostic.of text e).place = e.place ∧
      (Diagnostic.of text e).sourceLine = String.ofList (line.rdropWhile (· = '\r'))) ∧
    ∀ cause, e.cause = .grammar cause → ∃ lexed, tokenize text = .ok lexed ∧
      ∃ m ∈ lexed.marks, m.place = e.place ∧ ∃ front, m.Begins text.toList front := by
  obtain ⟨⟨front, hfront, hplace⟩, hgrammar⟩ := parseFormula_error_place h
  constructor
  · obtain ⟨line, hline⟩ := Place.exists_line_behind hfront
    rw [← hplace] at hline
    exact ⟨line, hline, rfl, Diagnostic.sourceLine_of hline⟩
  · intro cause hcause
    obtain ⟨lexed, htokens, m, hm, hm'⟩ := hgrammar cause hcause
    exact ⟨lexed, htokens, m, hm, hm', tokenize_begins htokens hm⟩

theorem diagnostic_points_parenthesis :
    parseFormula " =A1 &\r\n  B2)\r\n" =
        .error ⟨⟨2, 5⟩, .grammar (.unexpected (some ")"))⟩ ∧
      (∃ line, Place.PointsTo ⟨2, 5⟩ " =A1 &\r\n  B2)\r\n".toList line ∧
        (Diagnostic.of " =A1 &\r\n  B2)\r\n"
          ⟨⟨2, 5⟩, .grammar (.unexpected (some ")"))⟩).place = ⟨2, 5⟩ ∧
        (Diagnostic.of " =A1 &\r\n  B2)\r\n"
          ⟨⟨2, 5⟩, .grammar (.unexpected (some ")"))⟩).sourceLine =
            String.ofList (line.rdropWhile (· = '\r'))) ∧
      ∀ cause, SyntaxCause.grammar (.unexpected (some ")")) = .grammar cause →
        ∃ lexed, tokenize " =A1 &\r\n  B2)\r\n" = .ok lexed ∧
          ∃ m ∈ lexed.marks, m.place = ⟨2, 5⟩ ∧
            ∃ front, m.Begins " =A1 &\r\n  B2)\r\n".toList front := by
  have hlex : tokenize " =A1 &\r\n  B2)\r\n" = .ok ⟨[⟨.cell (.relative 1 1), "A1", ⟨1, 3⟩, false⟩,
    ⟨.symbol .ampersand, "&", ⟨1, 6⟩, true⟩, ⟨.cell (.relative 2 2), "B2", ⟨2, 3⟩, true⟩,
    ⟨.symbol .rightParen, ")", ⟨2, 5⟩, false⟩], ⟨3, 1⟩, true⟩ := rfl
  have h : parseFormula " =A1 &\r\n  B2)\r\n" =
      .error ⟨⟨2, 5⟩, .grammar (.unexpected (some ")"))⟩ := by
    rw [parseFormula, hlex]
    rfl
  exact ⟨h, diagnostic_points h⟩

end Spreadsheet
