import Spreadsheet.Proofs.Spacing.Parsing

/-!
The layout of a formula does not matter. White space between tokens may become other white space, it
may come and go at both ends of the text, and an equals sign may be put before it: the text is still
read as the same formula, or as none for the same reason.
-/

namespace Spreadsheet

open Lexer

/-- White space is changed between two tokens, or put or taken away at an end of the text, or an
equals sign is put before a text without one. -/
inductive Respaced : List Char → List Char → Prop
  | lead (hgap : Blank gap) (hgap' : Blank gap') : Respaced (gap ++ cs) (gap' ++ cs)
  | trail (hgap : Blank gap) (hgap' : Blank gap') : Respaced (cs ++ gap) (cs ++ gap')
  | between {before gap gap' rest : List Char} {lexed : Lexed} {t u : Token}
      (hl : tokenize (String.ofList (before ++ (t.lexeme.toList ++ (gap ++ rest)))) = .ok lexed)
      (htokens : lexed.tokens = ts ++ t :: u :: us) (ht : t.place = Place.behind before)
      (hu : u.place = Place.behind (before ++ (t.lexeme.toList ++ gap)))
      (hgap : Blank gap) (hne : gap ≠ []) (hgap' : Blank gap') (hne' : gap' ≠ []) :
      Respaced (before ++ (t.lexeme.toList ++ (gap ++ rest)))
        (before ++ (t.lexeme.toList ++ (gap' ++ rest)))
  | sign (hcs : '=' ∉ (cs.dropWhile Unicode.isWhiteSpace).head?) : Respaced cs ('=' :: cs)

/-! ### What is passed over at the head -/

/-- White space and an optional equals sign are passed over before the tokens of the body. -/
inductive Opens : List Char → List Char → Prop
  | sign (hlead : Blank lead) : Opens (lead ++ ['=']) body
  | plain (hlead : Blank lead) (hspace : ∀ c ∈ body.head?, Unicode.isWhiteSpace c = false)
      (hsign : '=' ∉ body.head?) : Opens lead body

theorem tokenize_eq_ok_iff_opens :
    tokenize text = .ok lexed ↔ ∃ opening body, text.toList = opening ++ body ∧
      Opens opening body ∧ Lexes (Place.behind opening) false body lexed := by
  rw [tokenize_eq_ok_iff]
  constructor
  · rintro ⟨lead, cs, htext, hlead, hspace, ⟨rest, rfl, hl⟩ | ⟨hsign, hl⟩⟩
    · rw [Place.after_start, ← Place.behind_concat] at hl
      exact ⟨lead ++ ['='], rest, by rw [htext, List.append_cons], .sign hlead, hl⟩
    · rw [Place.after_start] at hl
      exact ⟨lead, cs, htext, .plain hlead hspace hsign, hl⟩
  · rintro ⟨opening, body, htext, hopens, hl⟩
    cases hopens with
    | @sign lead _ hlead =>
      rw [Place.behind_concat, ← Place.after_start] at hl
      refine ⟨lead, '=' :: body, by simp [htext], hlead, ?_, .inl ⟨body, rfl, hl⟩⟩
      intro c hc
      obtain rfl := Option.some.inj hc
      decide
    | plain hlead hspace hsign =>
      rw [← Place.after_start] at hl
      exact ⟨opening, body, htext, hlead, hspace, .inr ⟨hsign, hl⟩⟩

theorem Lexer.Blank.eq_nil (h : Blank body)
    (hspace : ∀ c ∈ body.head?, Unicode.isWhiteSpace c = false) : body = [] := by
  cases body with
  | nil => rfl
  | cons c body =>
    have hc := h c List.mem_cons_self
    rw [hspace c rfl] at hc
    cases hc

/-- White space at the head of a text is part of all that stands there. -/
theorem Lexer.Blank.append_eq (hgap : Blank gap) (h : gap ++ cs = lead ++ rest)
    (hrest : ∀ c ∈ rest.head?, Unicode.isWhiteSpace c = false) :
    ∃ x, lead = gap ++ x ∧ cs = x ++ rest := by
  rcases List.append_eq_append_iff.1 h with ⟨x, rfl, rfl⟩ | ⟨x, rfl, rfl⟩
  · exact ⟨x, rfl, rfl⟩
  · have hx : x = [] := by
      apply Blank.eq_nil (blank_append_iff.1 hgap).2
      intro c hc
      apply hrest c
      cases x with
      | nil => cases hc
      | cons d x => exact hc
    subst hx
    exact ⟨[], by simp, rfl⟩

namespace Opens

theorem of_head (h : Opens opening body) (hhead : body'.head? = body.head?) :
    Opens opening body' := by
  cases h with
  | sign hlead => exact .sign hlead
  | plain hlead hspace hsign => exact .plain hlead (hhead ▸ hspace) (hhead ▸ hsign)

theorem blank (h : Blank lead) : Opens lead [] := .plain h nofun nofun

theorem lead (h : Opens opening body) (hgap : Blank gap) (hgap' : Blank gap')
    (hcs : gap ++ cs = opening ++ body) :
    ∃ opening', gap' ++ cs = opening' ++ body ∧ Opens opening' body := by
  cases h with
  | @sign lead _ hlead =>
    rw [List.append_assoc] at hcs
    obtain ⟨x, rfl, rfl⟩ := hgap.append_eq hcs fun c hc => by
      obtain rfl := Option.some.inj hc
      decide
    exact ⟨gap' ++ x ++ ['='], by simp, .sign (hgap'.append (blank_append_iff.1 hlead).2)⟩
  | plain hlead hspace hsign =>
    obtain ⟨x, rfl, rfl⟩ := hgap.append_eq hcs hspace
    exact ⟨gap' ++ x, by simp, .plain (hgap'.append (blank_append_iff.1 hlead).2) hspace hsign⟩

theorem trail (h : Opens opening body) (hbody : LexesGaps place space body lexed)
    (hgap : Blank gap) (hgap' : Blank gap') (hcs : cs ++ gap = opening ++ body) :
    ∃ opening' body', cs ++ gap' = opening' ++ body' ∧ Opens opening' body' ∧
      SpacedAlike body body' := by
  cases h with
  | @sign lead _ hlead =>
    have hw : Reads ['='] (.symbol .equal) body := .single rfl
    rw [List.append_assoc] at hcs
    obtain ⟨x, rfl, rfl⟩ := hw.append_eq_append_blank hgap hcs.symm
    exact ⟨lead ++ ['='], x ++ gap', by simp, .sign hlead, hbody.spacedAlike_trail hgap hgap'⟩
  | plain hlead hspace hsign =>
    by_cases hnil : body = []
    · -- nothing but white space
      subst hnil
      rw [List.append_nil] at hcs
      rw [← hcs] at hlead
      exact ⟨cs ++ gap', [], (List.append_nil _).symm,
        .blank ((blank_append_iff.1 hlead).1.append hgap'), hbody.spacedAlike⟩
    · rcases List.append_eq_append_iff.1 hcs with ⟨x, rfl, hx⟩ | ⟨x, rfl, rfl⟩
      · rw [hx] at hgap
        exact absurd ((blank_append_iff.1 hgap).2.eq_nil hspace) hnil
      · refine ⟨opening, x ++ gap', List.append_assoc .., ?_, hbody.spacedAlike_trail hgap hgap'⟩
        cases x with
        | nil => exact absurd (hgap.eq_nil hspace) hnil
        | cons c x => exact .of_head (.plain hlead hspace hsign) rfl

end Opens

/-! ### One change -/

/-- Both texts open before bodies that are spaced alike. -/
def OpensAlike (cs cs' : List Char) : Prop :=
  ∃ opening body opening' body', cs = opening ++ body ∧ Opens opening body ∧
    cs' = opening' ++ body' ∧ Opens opening' body' ∧ SpacedAlike body body'

theorem OpensAlike.exists_tokens (h : OpensAlike text.toList text'.toList) :
    ∃ lexed lexed', tokenize text = .ok lexed ∧ tokenize text' = .ok lexed' ∧
      ∃ spaced, Token.Alike spaced lexed.tokens lexed'.tokens := by
  obtain ⟨opening, body, opening', body', htext, hopens, htext', hopens', hbodies⟩ := h
  obtain ⟨lexed, lexed', hl, hl', halike⟩ :=
    hbodies.exists_lexes (Place.behind opening) (Place.behind opening') false false
  exact ⟨lexed, lexed', tokenize_eq_ok_iff_opens.2 ⟨opening, body, htext, hopens, hl⟩,
    tokenize_eq_ok_iff_opens.2 ⟨opening', body', htext', hopens', hl'⟩, _, halike⟩

theorem Respaced.opensAlike (h : Respaced cs cs') (hl : tokenize (String.ofList cs) = .ok lexed) :
    OpensAlike cs cs' := by
  obtain ⟨opening, body, hcs, hopens, hbody⟩ := tokenize_eq_ok_iff_opens.1 hl
  rw [String.toList_ofList] at hcs
  cases h with
  | lead hgap hgap' =>
    obtain ⟨opening', hcs', hopens'⟩ := hopens.lead hgap hgap' hcs
    exact ⟨opening, body, opening', body, hcs, hopens, hcs', hopens', hbody.gaps.spacedAlike⟩
  | trail hgap hgap' =>
    obtain ⟨opening', body', hcs', hopens', hbodies⟩ := hopens.trail hbody.gaps hgap hgap' hcs
    exact ⟨opening, body, opening', body', hcs, hopens, hcs', hopens', hbodies⟩
  | @between ts us before gap gap' rest _ t u hl₀ htokens ht hu hgap hne hgap' hne' =>
    obtain rfl := Except.ok.inj (hl.symm.trans hl₀)
    obtain ⟨front, hfront, hbefore, hbodies⟩ :=
      hbody.gaps.exists_between rfl htokens hcs.symm ht hu hgap hne hgap' hne'
    have hsplit (gap : List Char) : before ++ (t.lexeme.toList ++ (gap ++ rest)) =
        opening ++ (front ++ (gap ++ rest)) := by
      rw [← List.append_assoc, hbefore, List.append_assoc]
    rw [hsplit] at hcs
    obtain rfl := List.append_cancel_left hcs
    refine ⟨opening, _, opening, _, hsplit gap, hopens, hsplit gap', hopens.of_head ?_, hbodies⟩
    obtain ⟨c, front, rfl⟩ := List.exists_cons_of_ne_nil hfront
    rfl
  | sign hsign =>
    cases hopens with
    | @sign lead _ hlead =>
      rw [hcs, List.append_assoc, List.dropWhile_append_of_pos hlead] at hsign
      exact absurd rfl hsign
    | plain hlead hspace hequal =>
      subst hcs
      have hopens' : Opens ([] ++ ['=']) (opening ++ body) := .sign blank_nil
      exact ⟨opening, body, ['='], opening ++ body, rfl, .plain hlead hspace hequal, rfl, hopens',
        hbody.gaps.spacedAlike.lead hlead⟩

theorem parseFormula_message (hl : tokenize text = .ok lexed) :
    (parseFormula text).mapError SyntaxError.message =
      ((Parser.formula lexed.tokens).mapError Parser.Fault.cause).mapError
        GrammarCause.message := by
  rw [parseFormula, hl]
  dsimp only
  cases Parser.formula lexed.tokens <;> rfl

/-- One change leaves a text with tokens, and the formula or the message as it was. -/
theorem Respaced.parseFormula (h : Respaced text.toList text'.toList)
    (hl : tokenize text = .ok lexed) :
    ∃ lexed', tokenize text' = .ok lexed' ∧
      (parseFormula text').mapError SyntaxError.message =
        (parseFormula text).mapError SyntaxError.message := by
  rw [← String.ofList_toList (s := text)] at hl
  obtain ⟨lexed₀, lexed', hl₀, hl', _, halike⟩ := (h.opensAlike hl).exists_tokens
  refine ⟨lexed', hl', ?_⟩
  rw [parseFormula_message hl', parseFormula_message hl₀, Parser.formula_alike halike]

/-- Changes of the layout, as many as there are, leave the formula that a text is read as, or the
message why there is none. -/
theorem parseFormula_respaced (hl : tokenize text = .ok lexed)
    (h : Relation.ReflTransGen Respaced text.toList text'.toList) :
    (parseFormula text').mapError SyntaxError.message =
      (parseFormula text).mapError SyntaxError.message := by
  suffices hrun : ∀ cs, Relation.ReflTransGen Respaced text.toList cs →
      ∃ lexed', tokenize (String.ofList cs) = .ok lexed' ∧
        (parseFormula (String.ofList cs)).mapError SyntaxError.message =
          (parseFormula text).mapError SyntaxError.message by
    obtain ⟨-, -, hsame⟩ := hrun _ h
    rwa [String.ofList_toList] at hsame
  intro cs hcs
  induction hcs with
  | refl => exact ⟨lexed, by rw [String.ofList_toList]; exact ⟨hl, rfl⟩⟩
  | @tail cs cs' _ hstep ih =>
    obtain ⟨lexed', hl', hsame⟩ := ih
    have hstep' : Respaced (String.ofList cs).toList (String.ofList cs').toList := by
      rwa [String.toList_ofList, String.toList_ofList]
    obtain ⟨lexed'', hl'', hsame'⟩ := hstep'.parseFormula hl'
    exact ⟨lexed'', hl'', hsame'.trans hsame⟩

/-- An intersection on two lines. -/
theorem parseFormula_respaced_intersection :
    ∃ lexed, tokenize "A1 B2" = .ok lexed ∧
      Relation.ReflTransGen Respaced "A1 B2".toList "= A1\n\u00a0B2\t".toList ∧
      (parseFormula "= A1\n\u00a0B2\t").mapError SyntaxError.message =
        (parseFormula "A1 B2").mapError SyntaxError.message := by
  have hspace : Blank [' '] := List.forall_mem_singleton.2 (by decide)
  have htab : Blank ['\t'] := List.forall_mem_singleton.2 (by decide)
  have hbreak : Blank ['\n', '\u00a0'] :=
    List.forall_mem_cons.2 ⟨by decide, List.forall_mem_singleton.2 (by decide)⟩
  have hl : tokenize "A1 B2" = .ok ⟨[⟨.cell ⟨1, 1, false, false⟩, "A1", ⟨1, 1⟩, false⟩,
    ⟨.cell ⟨2, 2, false, false⟩, "B2", ⟨1, 4⟩, true⟩], ⟨1, 6⟩, false⟩ := rfl
  have hbetween : Respaced ['A', '1', ' ', 'B', '2'] ['A', '1', '\n', '\u00a0', 'B', '2'] :=
    @Respaced.between [] [] [] [' '] ['\n', '\u00a0'] ['B', '2'] _
      ⟨.cell ⟨1, 1, false, false⟩, "A1", ⟨1, 1⟩, false⟩
      ⟨.cell ⟨2, 2, false, false⟩, "B2", ⟨1, 4⟩, true⟩ hl rfl rfl rfl hspace nofun hbreak nofun
  have hlead : Respaced ([] ++ ['A', '1', '\n', '\u00a0', 'B', '2'])
      ([' '] ++ ['A', '1', '\n', '\u00a0', 'B', '2']) := .lead blank_nil hspace
  have hsign : Respaced [' ', 'A', '1', '\n', '\u00a0', 'B', '2']
      ['=', ' ', 'A', '1', '\n', '\u00a0', 'B', '2'] := .sign (by decide)
  have htrail : Respaced (['=', ' ', 'A', '1', '\n', '\u00a0', 'B', '2'] ++ [])
      (['=', ' ', 'A', '1', '\n', '\u00a0', 'B', '2'] ++ ['\t']) := .trail blank_nil htab
  have hchanges : Relation.ReflTransGen Respaced "A1 B2".toList "= A1\n\u00a0B2\t".toList :=
    .head hbetween (.head hlead (.head hsign (.single htrail)))
  exact ⟨_, hl, hchanges, parseFormula_respaced hl hchanges⟩

end Spreadsheet
