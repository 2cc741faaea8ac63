import Spreadsheet.Proofs.Faults.Places

/-!
A fault of the token that the parser has come to is decided by the tokens up to that one: no text
whose tokens begin in the same way is a formula.
-/

namespace Spreadsheet

/-! ### Places tell marks apart -/

theorem Place.line_behind_append (cs w : List Char) :
    (behind (cs ++ w)).line = (behind cs).line + w.count '\n' := by
  rw [behind, behind, List.count_append]
  exact Nat.add_right_comm _ _ _

theorem Place.behind_append_ne (cs : List Char) (hw : w ≠ []) : behind (cs ++ w) ≠ behind cs := by
  intro h
  have hline := congrArg Place.line h
  rw [line_behind_append] at hline
  have hbreak : '\n' ∉ w := List.count_eq_zero.1 (Nat.add_eq_left.1 hline)
  have hcolumn := congrArg Place.column h
  have hall : w.reverse.takeWhile (· ≠ '\n') = w.reverse := by
    refine List.takeWhile_eq_self_iff.2 fun c hc => ?_
    have hne : c ≠ '\n' := fun heq => hbreak (heq ▸ List.mem_reverse.1 hc)
    simpa using hne
  rw [behind, behind, List.reverse_append, List.takeWhile_append, hall, if_pos rfl,
    List.length_append, List.length_reverse] at hcolumn
  have hpos := List.length_pos_iff.2 hw
  dsimp only at hcolumn
  omega

theorem Laid.tail (h : Laid before (p :: pieces)) : Laid (before ++ p.written) pieces := by
  intro front q back heq
  have hq := h (p :: front) q back (by rw [heq]; rfl)
  rwa [written, List.flatMap_cons, ← List.append_assoc] at hq

theorem Laid.places_ne (h : Laid before pieces) :
    pieces.Pairwise fun p q => p.mark.place ≠ q.mark.place := by
  induction pieces generalizing before with
  | nil => exact .nil
  | cons p pieces ih =>
    refine .cons (fun q hq => ?_) (ih h.tail)
    obtain ⟨front, back, rfl⟩ := List.append_of_mem hq
    have hp := h [] p _ rfl
    have hq := h (p :: front) q back rfl
    have hlexeme : p.mark.lexeme.toList ≠ [] := by
      intro hnil
      have hback := hp.empty.1 (String.toList_eq_nil_iff.1 hnil)
      exact List.append_ne_nil_of_right_ne_nil _ (List.cons_ne_nil _ _) hback
    have hsplit : before ++ written (p :: front) ++ q.gap =
        before ++ p.gap ++ (p.mark.lexeme.toList ++ written front ++ q.gap) := by
      simp only [written, List.flatMap_cons, Piece.written, List.append_assoc]
    rw [hp.place, hq.place, hsplit, written, List.flatMap_nil, List.append_nil]
    exact (Place.behind_append_ne _ (by simp [hlexeme])).symm

theorem tokenize_places_ne (h : tokenize text = .ok lexed) :
    lexed.marks.Pairwise fun m m' => m.place ≠ m'.place := by
  obtain ⟨before, pieces, hmarks, -, hlaid⟩ := tokenize_laid h
  rw [← hmarks, List.pairwise_map]
  exact hlaid.places_ne

namespace Lexed

theorem place_drop (lexed : Lexed) (hm : lexed.marks[k]? = some m) :
    lexed.place (lexed.tokens.drop k) = m.place := by
  rw [marks, List.getElem?_append, List.length_map] at hm
  split at hm
  · next hlt =>
    rw [List.getElem?_map, List.getElem?_eq_getElem hlt] at hm
    cases hm
    rw [List.drop_eq_getElem_cons hlt]
    rfl
  · next hge =>
    rw [List.drop_eq_nil_of_le (Nat.le_of_not_lt hge)]
    rw [List.getElem?_singleton] at hm
    split at hm
    · cases hm
      rfl
    · cases hm

theorem exists_mark_drop (lexed : Lexed) (hs : rest <:+ lexed.tokens) :
    ∃ (k : Nat) (m : Mark), rest = lexed.tokens.drop k ∧ lexed.marks[k]? = some m := by
  refine ⟨lexed.tokens.length - rest.length, _, List.suffix_iff_eq_drop.1 hs,
    List.getElem?_eq_getElem ?_⟩
  rw [marks, List.length_append, List.length_map, List.length_singleton]
  omega

/-- The tokens from a place on. -/
theorem eq_drop_of_place (lexed : Lexed)
    (hne : lexed.marks.Pairwise fun m m' => m.place ≠ m'.place) (hs : rest <:+ lexed.tokens)
    (hm : lexed.marks[k]? = some m) (hplace : lexed.place rest = m.place) :
    rest = lexed.tokens.drop k := by
  obtain ⟨j, n, hrest, hn⟩ := lexed.exists_mark_drop hs
  have hsame : n.place = m.place := by rw [← hplace, hrest, lexed.place_drop hn]
  obtain ⟨hk, rfl⟩ := List.getElem?_eq_some_iff.1 hm
  obtain ⟨hj, rfl⟩ := List.getElem?_eq_some_iff.1 hn
  rcases Nat.lt_trichotomy j k with hlt | rfl | hlt
  · exact absurd hsame (List.pairwise_iff_getElem.1 hne j k hj hk hlt)
  · exact hrest
  · exact absurd hsame.symm (List.pairwise_iff_getElem.1 hne k j hk hj hlt)

end Lexed

/-! ### Texts whose tokens begin in the same way -/

/-- What there is to a mark but for its place. -/
def Mark.seen (m : Mark) : Option TokenKind × String × Bool := (m.kind, m.lexeme, m.spaceBefore)

theorem Token.Like.of_seen (h : t.mark.seen = t'.mark.seen) : Token.Like t t' := by
  simp only [Mark.seen, Token.mark, Prod.mk.injEq, Option.some.injEq] at h
  exact ⟨h.1, h.2.1, h.2.2⟩

theorem Token.mark_seen_ne (t : Token) {stop : Mark} (hstop : stop.kind = none) :
    t.mark.seen ≠ stop.seen := by
  intro h
  have hkind := congrArg Prod.fst h
  rw [Mark.seen, Mark.seen, hstop] at hkind
  cases hkind

/-- Lists of tokens whose marks are the same up to number `k` look alike up to there. -/
theorem Parser.Beside.of_seen {ts ts' : List Token} {stop stop' : Mark} (hstop : stop.kind = none)
    (hstop' : stop'.kind = none) (hk : k ≤ ts.length)
    (h : ((ts.map Token.mark ++ [stop]).take (k + 1)).map Mark.seen =
      ((ts'.map Token.mark ++ [stop']).take (k + 1)).map Mark.seen) :
    ∃ hheads, Beside ⟨ts.drop k, ts'.drop k, hheads⟩ ts ts' := by
  induction k generalizing ts ts' with
  | zero =>
    suffices hheads : List.Forall₂ Token.Like (ts.take 1) (ts'.take 1) from ⟨hheads, .here⟩
    cases ts with
    | nil =>
      cases ts' with
      | nil => exact .nil
      | cons t' us' => exact absurd (List.cons.inj h).1.symm (t'.mark_seen_ne hstop)
    | cons t us =>
      cases ts' with
      | nil => exact absurd (List.cons.inj h).1 (t.mark_seen_ne hstop')
      | cons t' us' => exact .cons (.of_seen (List.cons.inj h).1) .nil
  | succ k ih =>
    cases ts with
    | nil => exact absurd hk (Nat.not_succ_le_zero k)
    | cons t us =>
      cases ts' with
      | nil => exact absurd (List.cons.inj h).1 (t.mark_seen_ne hstop')
      | cons t' us' =>
        obtain ⟨ht, hmore⟩ := List.cons.inj h
        obtain ⟨hheads, hb⟩ := ih (Nat.le_of_succ_le_succ hk) hmore
        exact ⟨hheads, .cons (.of_seen ht) hb⟩

/-- The causes that are found in the token that the parser has come to, by what is said of them. -/
theorem GrammarCause.atCurrent_of_message {cause : GrammarCause}
    (h : ∃ w ∈ ["Unexpected", "Expected", "Array constants"],
      w.toList <+: cause.message.toList) : cause.atCurrent = true := by
  cases cause with
  | unexpected | expectedClose | noCellAfterSheet | notLiteral => rfl
  | spansSheets | rangeOperands | unionOperands | unequalRows => revert h; decide

/-- An error that was found in a token of one text, as its message tells, is found in that token of
any other text whose tokens are the same so far. -/
theorem parseFormula_error_repeats {cause : GrammarCause} (htokens : tokenize text = .ok lexed)
    (htokens' : tokenize text' = .ok lexed')
    (hsame : (lexed.marks.take (k + 1)).map Mark.seen = (lexed'.marks.take (k + 1)).map Mark.seen)
    (hm : lexed.marks[k]? = some m) (h : parseFormula text = .error ⟨m.place, .grammar cause⟩)
    (hcause : ∃ w ∈ ["Unexpected", "Expected", "Array constants"],
      w.toList <+: cause.message.toList) :
    ∃ m', lexed'.marks[k]? = some m' ∧
      parseFormula text' = .error ⟨m'.place, .grammar cause⟩ := by
  have hfault : Parser.formula lexed.tokens = .error ⟨cause, lexed.tokens.drop k⟩ := by
    rw [parseFormula, htokens] at h
    dsimp only at h
    cases hformula : Parser.formula lexed.tokens with
    | ok e => rw [hformula] at h; cases h
    | error fault =>
      rw [hformula] at h
      injection h with h
      injection h with hplace hcause
      injection hcause with hcause
      have hrest := lexed.eq_drop_of_place (tokenize_places_ne htokens)
        (Parser.formula_error_suffix hformula) hm hplace
      rw [← hcause, ← hrest]
  obtain ⟨hlt, -⟩ := List.getElem?_eq_some_iff.1 hm
  have hk : k ≤ lexed.tokens.length := by
    rw [Lexed.marks, List.length_append, List.length_map, List.length_singleton] at hlt
    omega
  obtain ⟨hheads, hb⟩ := Parser.Beside.of_seen rfl rfl hk hsame
  have hfault' := Parser.formula_error_repeats hb hfault (GrammarCause.atCurrent_of_message hcause)
  have hlt' : k < lexed'.marks.length := by
    have hlength := congrArg List.length hsame
    rw [List.length_map, List.length_map, List.length_take, List.length_take] at hlength
    omega
  refine ⟨lexed'.marks[k], List.getElem?_eq_getElem hlt', ?_⟩
  rw [parseFormula, htokens']
  dsimp only
  rw [hfault']
  dsimp only
  rw [lexed'.place_drop (List.getElem?_eq_getElem hlt')]

theorem parseFormula_error_repeats_text :
    ∃ lexed lexed' m, tokenize "=(A1 \"x\")" = .ok lexed ∧
      tokenize "=(A1\n\"x\"&B2;" = .ok lexed' ∧
      (lexed.marks.take 3).map Mark.seen = (lexed'.marks.take 3).map Mark.seen ∧
      lexed.marks[2]? = some m ∧
      parseFormula "=(A1 \"x\")" =
        .error ⟨m.place, .grammar (.expectedClose (some "\"x\""))⟩ ∧
      ∃ m', lexed'.marks[2]? = some m' ∧
        parseFormula "=(A1\n\"x\"&B2;" =
          .error ⟨m'.place, .grammar (.expectedClose (some "\"x\""))⟩ := by
  have htokens : tokenize "=(A1 \"x\")" = .ok ⟨[⟨.symbol .leftParen, "(", ⟨1, 2⟩, false⟩,
    ⟨.cell (.relative 1 1), "A1", ⟨1, 3⟩, false⟩, ⟨.text "x", "\"x\"", ⟨1, 6⟩, true⟩,
    ⟨.symbol .rightParen, ")", ⟨1, 9⟩, false⟩], ⟨1, 10⟩, false⟩ := rfl
  have htokens' : tokenize "=(A1\n\"x\"&B2;" = .ok ⟨[⟨.symbol .leftParen, "(", ⟨1, 2⟩, false⟩,
    ⟨.cell (.relative 1 1), "A1", ⟨1, 3⟩, false⟩, ⟨.text "x", "\"x\"", ⟨2, 1⟩, true⟩,
    ⟨.symbol .ampersand, "&", ⟨2, 4⟩, false⟩, ⟨.cell (.relative 2 2), "B2", ⟨2, 5⟩, false⟩,
    ⟨.symbol .semicolon, ";", ⟨2, 7⟩, false⟩], ⟨2, 8⟩, false⟩ := rfl
  have h : parseFormula "=(A1 \"x\")" =
      .error ⟨⟨1, 6⟩, .grammar (.expectedClose (some "\"x\""))⟩ := by
    rw [parseFormula, htokens]
    rfl
  exact ⟨_, _, _, htokens, htokens', rfl, rfl, h,
    parseFormula_error_repeats htokens htokens' rfl rfl h (by decide)⟩

end Spreadsheet
