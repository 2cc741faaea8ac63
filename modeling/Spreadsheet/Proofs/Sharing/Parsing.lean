import Spreadsheet.Proofs.Grammar.Completeness
import Spreadsheet.Proofs.Sharing.Lexing

/-!
A shared formula in another cell is the formula with its references moved.
-/

namespace Spreadsheet

open Lexer SharedFormula

variable {rows cols : Int} {text : String} {lexed : Lexed} {e : Expr}

/-- Tokens that move as their text does, every address of them in the sheet. -/
structure MovesAsText (rows cols : Int) (ts : List Token) : Prop where
  chained : Grammar.Chained ts
  shareable : ∀ t ∈ ts, t.Shareable
  staysInSheet : ∀ t ∈ ts, t.StaysInSheet rows cols

theorem MovesAsText.movesWithText (h : MovesAsText rows cols ts) : MovesWithText rows cols ts where
  chained := h.chained
  movesInText t ht := (h.shareable t ht).movesInText rows cols

theorem MovesAsText.map_pruned (h : MovesAsText rows cols ts) :
    ts.map (Token.pruned rows cols) = ts := by
  have hself : ∀ t ∈ ts, t.pruned rows cols = id t := fun t ht =>
    Token.pruned_eq_self (h.staysInSheet t ht)
  rw [List.map_congr_left hself, List.map_id]

namespace SharedFormula

theorem moveFrom_lead (hlead : ∀ c ∈ lead, Unicode.isWhiteSpace c = true)
    (hb : before.any continuesName = false) (cs : List Char) :
    ∃ before', moveFrom rows cols before (lead ++ cs) = lead ++ moveFrom rows cols before' cs ∧
      before'.any continuesName = false := by
  induction lead generalizing before with
  | nil => exact ⟨before, rfl, hb⟩
  | cons c lead ih =>
    obtain ⟨hc, hlead⟩ := List.forall_mem_cons.1 hlead
    have hb : (some c).any continuesName = false :=
      not_continuesName_of_not_continuesIdent (not_continuesIdent_of_isWhiteSpace hc)
    obtain ⟨before', hmove, hbefore⟩ := ih hlead hb
    refine ⟨before', ?_, hbefore⟩
    rw [List.cons_append, moveFrom_ends (.inl hc), hmove]
    rfl

/-- The tokens of a text move when its addresses do. -/
theorem tokenize_move (hl : tokenize text = .ok lexed)
    (hm : MovesWithText rows cols lexed.tokens) :
    ∃ lexed', tokenize (String.ofList (moveOutsideQuotes rows cols text.toList)) = .ok lexed' ∧
      Grammar.Follows rows cols (lexed.tokens.map (Token.pruned rows cols)) lexed'.tokens := by
  obtain ⟨lead, cs, htext, hlead, hcs, h⟩ := tokenize_eq_ok_iff.1 hl
  have hnone : none.any continuesName = false := rfl
  obtain ⟨before, hmove, hbefore⟩ := moveFrom_lead hlead hnone cs
  rw [moveOutsideQuotes_eq, htext, hmove]
  rcases h with ⟨rest, rfl, h⟩ | ⟨hne, h⟩
  · have hb : Starts (some '=') rest := fun _ _ _ => by decide
    obtain ⟨lexed', hl', hfollow⟩ := h.moveFrom hm hb ((Place.start.after lead).next '=')
    refine ⟨lexed', tokenize_eq_ok_iff.2 ⟨lead, _, ?_, hlead, ?_, .inl ⟨_, rfl, hl'⟩⟩, hfollow⟩
    · rw [String.toList_ofList, moveFrom_ends (.inr (by decide))]
    · intro c hc
      obtain rfl := Option.some.inj hc
      decide
  · obtain ⟨lexed', hl', hfollow⟩ := h.moveFrom hm (fun _ _ _ => hbefore) (Place.start.after lead)
    have ha : Alike cs (moveFrom rows cols before cs) := alike_moveFrom before cs
    refine ⟨lexed', tokenize_eq_ok_iff.2 ⟨lead, _, String.toList_ofList, hlead, fun c hc => ?_,
      .inr ⟨ha.not_mem hne (by decide), hl'⟩⟩, hfollow⟩
    rcases ha.mem c hc with hc | rfl | hc
    · exact hcs c hc
    · decide
    · exact not_isWhiteSpace_of_continuesIdent
        (continuesIdent_of_startsIdent (startsIdent_of_head hc))

theorem inSheet_of_tokenize (hl : tokenize text = .ok lexed) :
    ∀ t ∈ lexed.tokens, ∀ a, t.kind = .cell a → a.InSheet := by
  obtain ⟨lead, cs, -, -, -, ⟨rest, -, h⟩ | ⟨-, h⟩⟩ := tokenize_eq_ok_iff.1 hl
  · exact h.inSheet
  · exact h.inSheet

theorem tokenize_expand_pruned (hl : tokenize text = .ok lexed)
    (hm : MovesWithText rows cols lexed.tokens) :
    ∃ lexed', tokenize (expand text rows cols) = .ok lexed' ∧
      Grammar.Follows rows cols (lexed.tokens.map (Token.pruned rows cols)) lexed'.tokens := by
  by_cases hzero : rows = 0 ∧ cols = 0
  · rw [expand, if_pos hzero]
    obtain ⟨rfl, rfl⟩ := hzero
    refine ⟨lexed, hl, List.forall₂_map_left_iff.2 (List.forall₂_same.2 fun t ht => ?_)⟩
    rw [Token.pruned_eq_self fun a ha => Address.stays_of_move?
      (Address.move?_eq_self (inSheet_of_tokenize hl t ht a ha) (.inr rfl) (.inr rfl))]
    exact ⟨t.kind.moved_zero.symm, rfl⟩
  · rw [expand, if_neg hzero]
    exact tokenize_move hl hm

theorem tokenize_expand (hl : tokenize text = .ok lexed) (hm : MovesAsText rows cols lexed.tokens) :
    ∃ lexed', tokenize (expand text rows cols) = .ok lexed' ∧
      Grammar.Follows rows cols lexed.tokens lexed'.tokens := by
  have hfollow := tokenize_expand_pruned hl hm.movesWithText
  rwa [hm.map_pruned] at hfollow

end SharedFormula

/-- The text of a shared formula in another cell is read as the formula with every address and every
corner of a range moved, up to the flags of coinciding corners. -/
theorem parseFormula_expand (he : parseFormula text = .ok e)
    (hshare : ∀ lexed, tokenize text = .ok lexed → ∀ t ∈ lexed.tokens, t.Shareable)
    (hin : ∀ lexed, tokenize text = .ok lexed → ∀ t ∈ lexed.tokens, t.StaysInSheet rows cols) :
    ∃ e', parseFormula (expand text rows cols) = .ok e' ∧
      e'.settled = (e.moved rows cols).settled ∧
      ((∀ r, Reference.range r ∈ (e.moved rows cols).references → r.range.Even) →
        e' = e.moved rows cols) := by
  obtain ⟨lexed, hl, hd⟩ := parseFormula_eq_ok_iff.1 he
  have hm : MovesAsText rows cols lexed.tokens := ⟨hd.chained, hshare lexed hl, hin lexed hl⟩
  obtain ⟨lexed', hl', hfollow⟩ := tokenize_expand hl hm
  obtain ⟨e', hd', hmoves⟩ := hd.follow hfollow
  exact ⟨e', parseFormula_eq_ok_iff.2 ⟨lexed', hl', hd'⟩, hmoves, Expr.eq_of_settled_eq hmoves⟩

theorem parseFormula_expand_sheet :
    ∃ e e', parseFormula "=S1!A1:B$2" = .ok e ∧
      parseFormula (expand "=S1!A1:B$2" 1 2) = .ok e' ∧
      e'.settled = (e.moved 1 2).settled := by
  have hl : tokenize "=S1!A1:B$2" = .ok ⟨[⟨.sheet "S1", "S1!", ⟨1, 2⟩, false⟩,
    ⟨.cell (.relative 1 1), "A1", ⟨1, 5⟩, false⟩, ⟨.symbol .colon, ":", ⟨1, 7⟩, false⟩,
    ⟨.cell ⟨2, 2, true, false⟩, "B$2", ⟨1, 8⟩, false⟩], ⟨1, 11⟩, false⟩ := rfl
  have he : parseFormula "=S1!A1:B$2" =
      .ok (.range ⟨some "S1", .ofCorners (.relative 1 1) ⟨2, 2, true, false⟩⟩) := by
    rw [parseFormula, hl]
    rfl
  have hshare : ∀ lexed, tokenize "=S1!A1:B$2" = .ok lexed → ∀ t ∈ lexed.tokens, t.Shareable := by
    intro lexed h
    obtain rfl := Except.ok.inj (hl.symm.trans h)
    simp only [List.forall_mem_cons, Token.Shareable]
    exact ⟨.inr (forall_mem_of_all (by decide)), forall_mem_of_all (by decide), trivial,
      forall_mem_of_all (by decide), List.forall_mem_nil _⟩
  have hin : ∀ lexed, tokenize "=S1!A1:B$2" = .ok lexed →
      ∀ t ∈ lexed.tokens, t.StaysInSheet 1 2 := by
    intro lexed h
    obtain rfl := Except.ok.inj (hl.symm.trans h)
    simp only [List.forall_mem_cons, Token.StaysInSheet]
    refine ⟨by simp, fun a h => ?_, by simp, fun a h => ?_, List.forall_mem_nil _⟩ <;>
    · cases h
      decide
  obtain ⟨e', he', hmoves, -⟩ := parseFormula_expand he hshare hin
  exact ⟨_, e', he, he', hmoves⟩

set_option maxRecDepth 2000 in
/-- Corners that come to coincide can change places: `A$2:B1` becomes `A$2:B2`, which starts at `A$2`,
while `A1:B$2`, which it is read as, has its start moved to `A2`. -/
theorem not_parseFormula_expand_moved :
    ¬ ∀ (text : String) (rows cols : Int) (e : Expr), parseFormula text = .ok e →
      (∀ lexed, tokenize text = .ok lexed → ∀ t ∈ lexed.tokens, t.Shareable) →
      (∀ lexed, tokenize text = .ok lexed → ∀ t ∈ lexed.tokens, t.StaysInSheet rows cols) →
      parseFormula (expand text rows cols) = .ok (e.moved rows cols) := by
  intro h
  have hl : tokenize "=A$2:B1" = .ok ⟨[⟨.cell ⟨2, 1, true, false⟩, "A$2", ⟨1, 2⟩, false⟩,
    ⟨.symbol .colon, ":", ⟨1, 5⟩, false⟩, ⟨.cell (.relative 1 2), "B1", ⟨1, 6⟩, false⟩],
    ⟨1, 8⟩, false⟩ := rfl
  have he : parseFormula "=A$2:B1" =
      .ok (.range ⟨none, .ofCorners ⟨2, 1, true, false⟩ (.relative 1 2)⟩) := by
    rw [parseFormula, hl]
    rfl
  have hexpand : expand "=A$2:B1" 1 0 = "=A$2:B2" := by cbv
  have hl' : tokenize "=A$2:B2" =
      .ok ⟨[⟨.cell ⟨2, 1, true, false⟩, "A$2", ⟨1, 2⟩, false⟩,
        ⟨.symbol .colon, ":", ⟨1, 5⟩, false⟩, ⟨.cell (.relative 2 2), "B2", ⟨1, 6⟩, false⟩],
        ⟨1, 8⟩, false⟩ := rfl
  have hne := h "=A$2:B1" 1 0 _ he ?_ ?_
  · rw [hexpand, parseFormula, hl'] at hne
    have hrange := Except.ok.inj hne
    cases hrange
  · intro lexed h
    obtain rfl := Except.ok.inj (hl.symm.trans h)
    simp only [List.forall_mem_cons, Token.Shareable]
    exact ⟨forall_mem_of_all (by decide), trivial, forall_mem_of_all (by decide),
      List.forall_mem_nil _⟩
  · intro lexed h
    obtain rfl := Except.ok.inj (hl.symm.trans h)
    simp only [List.forall_mem_cons, Token.StaysInSheet]
    refine ⟨fun a h => ?_, by simp, fun a h => ?_, List.forall_mem_nil _⟩ <;>
    · cases h
      decide

end Spreadsheet
