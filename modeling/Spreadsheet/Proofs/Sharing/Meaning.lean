import Spreadsheet.Proofs.Sharing.Parsing

/-!
What a shared formula means in another cell: as far as its references can be told from the text, it
does not matter how it is typed, and an address that leaves the sheet is an error in it.
-/

namespace Spreadsheet

open Lexer SharedFormula

variable {rows cols : Int} {text text' : String} {e : Expr}

theorem parseFormula_of_tokens (hl : tokenize text = .ok lexed)
    (h : Parser.formula lexed.tokens = .ok e) : parseFormula text = .ok e := by
  rw [parseFormula, hl]
  dsimp only
  rw [h]

namespace SharedFormula

/-- The tokens of the text move as the text does. -/
def MovesByTokens (rows cols : Int) (text : String) : Prop :=
  ∀ lexed, tokenize text = .ok lexed → ∀ t ∈ lexed.tokens, t.MovesInText rows cols

/-- Two texts that are read as one formula, and as two after a move that keeps it in the sheet. -/
def Diverge (text text' : String) (rows cols : Int) : Prop :=
  ∃ e f f', parseFormula text = .ok e ∧ parseFormula text' = .ok e ∧ e.StaysInSheet rows cols ∧
    parseFormula (expand text rows cols) = .ok f ∧
    parseFormula (expand text' rows cols) = .ok f' ∧ f ≠ f'

theorem exists_movesTo_pruned (he : parseFormula text = .ok e)
    (hmoves : MovesByTokens rows cols text) (hprunable : e.Prunable rows cols) :
    ∃ e', parseFormula (expand text rows cols) = .ok e' ∧
      (e.pruned rows cols).MovesTo rows cols e' := by
  obtain ⟨lexed, hl, hd⟩ := parseFormula_eq_ok_iff.1 he
  have hm : MovesWithText rows cols lexed.tokens := ⟨hd.chained, hmoves lexed hl⟩
  obtain ⟨lexed', hl', hfollow⟩ := tokenize_expand_pruned hl hm
  obtain ⟨e', hd', hmovesTo⟩ := (hd.pruned hprunable).follow hfollow
  exact ⟨e', parseFormula_eq_ok_iff.2 ⟨lexed', hl', hd'⟩, hmovesTo⟩

end SharedFormula

/-- Where no address is lost in a place for references, the text in another cell is read as the
formula with `#REF!` for the addresses that leave the sheet and with all others moved, up to the
flags of coinciding corners. -/
theorem parseFormula_expand_pruned (he : parseFormula text = .ok e)
    (hmoves : MovesByTokens rows cols text) (hprunable : e.Prunable rows cols) :
    ∃ e', parseFormula (expand text rows cols) = .ok e' ∧
      e'.settled = ((e.pruned rows cols).moved rows cols).settled ∧
      ((∀ r, Reference.range r ∈ ((e.pruned rows cols).moved rows cols).references →
          r.range.Even) →
        e' = (e.pruned rows cols).moved rows cols) := by
  obtain ⟨e', he', hmovesTo⟩ := exists_movesTo_pruned he hmoves hprunable
  exact ⟨e', he', hmovesTo, Expr.eq_of_settled_eq hmovesTo⟩

/-- `A1` leaves the sheet, and `$b$2`, which no one finds in small letters, has nowhere to move. -/
theorem parseFormula_expand_pruned_concat :
    ∃ e e', parseFormula "=A1&$b$2" = .ok e ∧ expand "=A1&$b$2" (-1) 0 = "=#REF!&$b$2" ∧
      parseFormula (expand "=A1&$b$2" (-1) 0) = .ok e' ∧
      e'.settled = ((e.pruned (-1) 0).moved (-1) 0).settled := by
  have hl : tokenize "=A1&$b$2" = .ok ⟨[⟨.cell (.relative 1 1), "A1", ⟨1, 2⟩, false⟩,
    ⟨.symbol .ampersand, "&", ⟨1, 4⟩, false⟩, ⟨.cell ⟨2, 2, true, true⟩, "$b$2", ⟨1, 5⟩, false⟩],
    ⟨1, 9⟩, false⟩ := rfl
  have hmoves : MovesByTokens (-1) 0 "=A1&$b$2" := by
    intro lexed h
    obtain rfl := Except.ok.inj (hl.symm.trans h)
    simp only [List.forall_mem_cons, Token.MovesInText]
    exact ⟨.inl (forall_mem_of_all (by decide)), trivial, .inr rfl,
      List.forall_mem_nil _⟩
  have hprunable : (Expr.binary (.value .concat) (.cell ⟨none, .relative 1 1⟩)
      (.cell ⟨none, ⟨2, 2, true, true⟩⟩)).Prunable (-1) 0 :=
    Expr.prunable_value (Expr.prunable_bare _) (Expr.prunable_bare _)
  have he := parseFormula_of_tokens hl rfl
  obtain ⟨e', he', hsettled, -⟩ := parseFormula_expand_pruned he hmoves hprunable
  exact ⟨_, e', he, by cbv, he', hsettled⟩

/-- A corner of a range that leaves the sheet: the text becomes `#REF!:B1`, which is no formula. -/
theorem not_parseFormula_expand :
    ¬ ∀ (text : String) (rows cols : Int) (e : Expr), parseFormula text = .ok e →
      ∃ e', parseFormula (expand text rows cols) = .ok e' := by
  intro h
  have hl : tokenize "=A1:B2" = .ok ⟨[⟨.cell (.relative 1 1), "A1", ⟨1, 2⟩, false⟩,
    ⟨.symbol .colon, ":", ⟨1, 4⟩, false⟩, ⟨.cell (.relative 2 2), "B2", ⟨1, 5⟩, false⟩],
    ⟨1, 7⟩, false⟩ := rfl
  have hexpand : expand "=A1:B2" (-1) 0 = "=#REF!:B1" := by cbv
  have hl' : tokenize "=#REF!:B1" = .ok ⟨[⟨.error .ref, "#REF!", ⟨1, 2⟩, false⟩,
    ⟨.symbol .colon, ":", ⟨1, 7⟩, false⟩, ⟨.cell (.relative 1 2), "B1", ⟨1, 8⟩, false⟩],
    ⟨1, 10⟩, false⟩ := rfl
  obtain ⟨e', he'⟩ := h "=A1:B2" (-1) 0 _ (parseFormula_of_tokens hl rfl)
  rw [hexpand, parseFormula, hl'] at he'
  cases he'

/-- Texts that are read as one formula are read as one formula in another cell, up to the flags of
coinciding corners. -/
theorem parseFormula_expand_congr (he : parseFormula text = .ok e)
    (he' : parseFormula text' = .ok e) (hmoves : MovesByTokens rows cols text)
    (hmoves' : MovesByTokens rows cols text') (hin : e.StaysInSheet rows cols) :
    ∃ f f', parseFormula (expand text rows cols) = .ok f ∧
      parseFormula (expand text' rows cols) = .ok f' ∧ f'.settled = f.settled ∧
      ((∀ r, Reference.range r ∈ f.references → r.range.Even) → f' = f) := by
  obtain ⟨f, hf, hmovesTo⟩ := exists_movesTo_pruned he hmoves hin.prunable
  obtain ⟨f', hf', hmovesTo'⟩ := exists_movesTo_pruned he' hmoves' hin.prunable
  have hsettled : f'.settled = f.settled := hmovesTo'.trans hmovesTo.symm
  exact ⟨f, f', hf, hf', hsettled, Expr.eq_of_settled_eq hsettled⟩

theorem parseFormula_expand_congr_sum :
    ∃ e f f', parseFormula "=SUM(A01,$b$2,C:C)" = .ok e ∧
      parseFormula "= sum( (A1) ,$B$2, C$1:C$1048576)" = .ok e ∧
      parseFormula (expand "=SUM(A01,$b$2,C:C)" 1 0) = .ok f ∧
      parseFormula (expand "= sum( (A1) ,$B$2, C$1:C$1048576)" 1 0) = .ok f' ∧
      f'.settled = f.settled := by
  have hl : tokenize "=SUM(A01,$b$2,C:C)" = .ok ⟨[⟨.ident "SUM", "SUM", ⟨1, 2⟩, false⟩,
    ⟨.symbol .leftParen, "(", ⟨1, 5⟩, false⟩, ⟨.cell (.relative 1 1), "A01", ⟨1, 6⟩, false⟩,
    ⟨.symbol .comma, ",", ⟨1, 9⟩, false⟩, ⟨.cell ⟨2, 2, true, true⟩, "$b$2", ⟨1, 10⟩, false⟩,
    ⟨.symbol .comma, ",", ⟨1, 14⟩, false⟩,
    ⟨.area (.ofCorners ⟨1, 3, true, false⟩ ⟨maxRow, 3, true, false⟩), "C:C", ⟨1, 15⟩, false⟩,
    ⟨.symbol .rightParen, ")", ⟨1, 18⟩, false⟩], ⟨1, 19⟩, false⟩ := rfl
  have hl' : tokenize "= sum( (A1) ,$B$2, C$1:C$1048576)" =
    .ok ⟨[⟨.ident "sum", "sum", ⟨1, 3⟩, true⟩, ⟨.symbol .leftParen, "(", ⟨1, 6⟩, false⟩,
    ⟨.symbol .leftParen, "(", ⟨1, 8⟩, true⟩, ⟨.cell (.relative 1 1), "A1", ⟨1, 9⟩, false⟩,
    ⟨.symbol .rightParen, ")", ⟨1, 11⟩, false⟩, ⟨.symbol .comma, ",", ⟨1, 13⟩, true⟩,
    ⟨.cell ⟨2, 2, true, true⟩, "$B$2", ⟨1, 14⟩, false⟩, ⟨.symbol .comma, ",", ⟨1, 18⟩, false⟩,
    ⟨.cell ⟨1, 3, true, false⟩, "C$1", ⟨1, 20⟩, true⟩, ⟨.symbol .colon, ":", ⟨1, 23⟩, false⟩,
    ⟨.cell ⟨maxRow, 3, true, false⟩, "C$1048576", ⟨1, 24⟩, false⟩,
    ⟨.symbol .rightParen, ")", ⟨1, 33⟩, false⟩], ⟨1, 34⟩, false⟩ := rfl
  have hmoves : MovesByTokens 1 0 "=SUM(A01,$b$2,C:C)" := by
    intro lexed h
    obtain rfl := Except.ok.inj (hl.symm.trans h)
    simp only [List.forall_mem_cons, Token.MovesInText]
    exact ⟨forall_mem_of_all (by decide), trivial, .inl (forall_mem_of_all (by decide)), trivial,
      .inr rfl, trivial, rfl, trivial, List.forall_mem_nil _⟩
  have hmoves' : MovesByTokens 1 0 "= sum( (A1) ,$B$2, C$1:C$1048576)" := by
    intro lexed h
    obtain rfl := Except.ok.inj (hl'.symm.trans h)
    simp only [List.forall_mem_cons, Token.MovesInText]
    exact ⟨forall_mem_of_all (by decide), trivial, trivial, .inl (forall_mem_of_all (by decide)),
      trivial, trivial, .inl (forall_mem_of_all (by decide)), trivial,
      .inl (forall_mem_of_all (by decide)), trivial, .inl (forall_mem_of_all (by decide)), trivial,
      List.forall_mem_nil _⟩
  have he := parseFormula_of_tokens hl rfl
  have hin : (Expr.call "SUM" [.cell ⟨none, .relative 1 1⟩, .cell ⟨none, ⟨2, 2, true, true⟩⟩,
      .range ⟨none, .ofCorners ⟨1, 3, true, false⟩ ⟨maxRow, 3, true, false⟩⟩]).StaysInSheet
        1 0 := by
    apply Expr.staysInSheet_call
    simp only [List.forall_mem_cons]
    exact ⟨Expr.staysInSheet_cell (by decide), Expr.staysInSheet_cell (by decide),
      Expr.staysInSheet_range ⟨by decide, by decide⟩, List.forall_mem_nil _⟩
  obtain ⟨f, f', hf, hf', hsettled, -⟩ := parseFormula_expand_congr he
    (parseFormula_of_tokens hl' rfl) hmoves hmoves' hin
  exact ⟨_, f, f', he, parseFormula_of_tokens hl' rfl, hf, hf', hsettled⟩

set_option maxRecDepth 4000 in
theorem not_parseFormula_expand_congr :
    Diverge "=a1" "=A1" 1 0 ∧ Diverge "=A:B" "=A$1:B$1048576" 0 1 ∧
      Diverge "=A$2:B1" "=A1:B$2" 1 0 ∧ Diverge "=\\A1\\!B1" "='\\A1\\'!B1" 1 0 := by
  refine ⟨?_, ?_, ?_, ?_⟩
  · have hsmall : expand "=a1" 1 0 = "=a1" := by cbv
    have hcapital : expand "=A1" 1 0 = "=A2" := by cbv
    have hl : tokenize "=a1" =
        .ok ⟨[⟨.cell (.relative 1 1), "a1", ⟨1, 2⟩, false⟩], ⟨1, 4⟩, false⟩ := rfl
    have hl' : tokenize "=A1" =
        .ok ⟨[⟨.cell (.relative 1 1), "A1", ⟨1, 2⟩, false⟩], ⟨1, 4⟩, false⟩ := rfl
    have hl'' : tokenize "=A2" =
        .ok ⟨[⟨.cell (.relative 2 1), "A2", ⟨1, 2⟩, false⟩], ⟨1, 4⟩, false⟩ := rfl
    refine ⟨.cell ⟨none, .relative 1 1⟩, _, _, parseFormula_of_tokens hl rfl,
      parseFormula_of_tokens hl' rfl, Expr.staysInSheet_cell (by decide),
      hsmall ▸ parseFormula_of_tokens hl rfl, hcapital ▸ parseFormula_of_tokens hl'' rfl, ?_⟩
    rintro ⟨⟩
  · have hsame : expand "=A:B" 0 1 = "=A:B" := by cbv
    have hmoved : expand "=A$1:B$1048576" 0 1 = "=B$1:C$1048576" := by cbv
    have hl : tokenize "=A:B" =
        .ok ⟨[⟨.area (.ofCorners ⟨1, 1, true, false⟩ ⟨maxRow, 2, true, false⟩), "A:B", ⟨1, 2⟩,
          false⟩], ⟨1, 5⟩, false⟩ := rfl
    have hl' : tokenize "=A$1:B$1048576" =
        .ok ⟨[⟨.cell ⟨1, 1, true, false⟩, "A$1", ⟨1, 2⟩, false⟩,
          ⟨.symbol .colon, ":", ⟨1, 5⟩, false⟩,
          ⟨.cell ⟨maxRow, 2, true, false⟩, "B$1048576", ⟨1, 6⟩, false⟩], ⟨1, 15⟩, false⟩ := rfl
    have hl'' : tokenize "=B$1:C$1048576" =
        .ok ⟨[⟨.cell ⟨1, 2, true, false⟩, "B$1", ⟨1, 2⟩, false⟩,
          ⟨.symbol .colon, ":", ⟨1, 5⟩, false⟩,
          ⟨.cell ⟨maxRow, 3, true, false⟩, "C$1048576", ⟨1, 6⟩, false⟩], ⟨1, 15⟩, false⟩ := rfl
    refine ⟨.range ⟨none, .ofCorners ⟨1, 1, true, false⟩ ⟨maxRow, 2, true, false⟩⟩, _, _,
      parseFormula_of_tokens hl rfl, parseFormula_of_tokens hl' rfl,
      Expr.staysInSheet_range ⟨by decide, by decide⟩, hsame ▸ parseFormula_of_tokens hl rfl,
      hmoved ▸ parseFormula_of_tokens hl'' rfl, ?_⟩
    rintro ⟨⟩
  · have hmoved : expand "=A$2:B1" 1 0 = "=A$2:B2" := by cbv
    have hmoved' : expand "=A1:B$2" 1 0 = "=A2:B$2" := by cbv
    have hl : tokenize "=A$2:B1" = .ok ⟨[⟨.cell ⟨2, 1, true, false⟩, "A$2", ⟨1, 2⟩, false⟩,
      ⟨.symbol .colon, ":", ⟨1, 5⟩, false⟩, ⟨.cell (.relative 1 2), "B1", ⟨1, 6⟩, false⟩],
      ⟨1, 8⟩, false⟩ := rfl
    have hl' : tokenize "=A1:B$2" = .ok ⟨[⟨.cell (.relative 1 1), "A1", ⟨1, 2⟩, false⟩,
      ⟨.symbol .colon, ":", ⟨1, 4⟩, false⟩, ⟨.cell ⟨2, 2, true, false⟩, "B$2", ⟨1, 5⟩, false⟩],
      ⟨1, 8⟩, false⟩ := rfl
    have hl₂ : tokenize "=A$2:B2" = .ok ⟨[⟨.cell ⟨2, 1, true, false⟩, "A$2", ⟨1, 2⟩, false⟩,
      ⟨.symbol .colon, ":", ⟨1, 5⟩, false⟩, ⟨.cell (.relative 2 2), "B2", ⟨1, 6⟩, false⟩],
      ⟨1, 8⟩, false⟩ := rfl
    have hl₂' : tokenize "=A2:B$2" = .ok ⟨[⟨.cell (.relative 2 1), "A2", ⟨1, 2⟩, false⟩,
      ⟨.symbol .colon, ":", ⟨1, 4⟩, false⟩, ⟨.cell ⟨2, 2, true, false⟩, "B$2", ⟨1, 5⟩, false⟩],
      ⟨1, 8⟩, false⟩ := rfl
    refine ⟨.range ⟨none, .ofCorners (.relative 1 1) ⟨2, 2, true, false⟩⟩, _, _,
      parseFormula_of_tokens hl rfl, parseFormula_of_tokens hl' rfl,
      Expr.staysInSheet_range ⟨by decide, by decide⟩, hmoved ▸ parseFormula_of_tokens hl₂ rfl,
      hmoved' ▸ parseFormula_of_tokens hl₂' rfl, ?_⟩
    rintro ⟨⟩
  · have hmoved : expand "=\\A1\\!B1" 1 0 = "=\\A2\\!B2" := by cbv
    have hmoved' : expand "='\\A1\\'!B1" 1 0 = "='\\A1\\'!B2" := by cbv
    have hl : tokenize "=\\A1\\!B1" = .ok ⟨[⟨.sheet "\\A1\\", "\\A1\\!", ⟨1, 2⟩, false⟩,
      ⟨.cell (.relative 1 2), "B1", ⟨1, 7⟩, false⟩], ⟨1, 9⟩, false⟩ := rfl
    have hl' : tokenize "='\\A1\\'!B1" = .ok ⟨[⟨.sheet "\\A1\\", "'\\A1\\'!", ⟨1, 2⟩, false⟩,
      ⟨.cell (.relative 1 2), "B1", ⟨1, 9⟩, false⟩], ⟨1, 11⟩, false⟩ := rfl
    have hl₂ : tokenize "=\\A2\\!B2" = .ok ⟨[⟨.sheet "\\A2\\", "\\A2\\!", ⟨1, 2⟩, false⟩,
      ⟨.cell (.relative 2 2), "B2", ⟨1, 7⟩, false⟩], ⟨1, 9⟩, false⟩ := rfl
    have hl₂' : tokenize "='\\A1\\'!B2" = .ok ⟨[⟨.sheet "\\A1\\", "'\\A1\\'!", ⟨1, 2⟩, false⟩,
      ⟨.cell (.relative 2 2), "B2", ⟨1, 9⟩, false⟩], ⟨1, 11⟩, false⟩ := rfl
    refine ⟨.cell ⟨some "\\A1\\", .relative 1 2⟩, _, _, parseFormula_of_tokens hl rfl,
      parseFormula_of_tokens hl' rfl, Expr.staysInSheet_cell (by decide),
      hmoved ▸ parseFormula_of_tokens hl₂ rfl, hmoved' ▸ parseFormula_of_tokens hl₂' rfl,
      fun h => absurd (Expr.cell.inj h) (by decide)⟩

end Spreadsheet
