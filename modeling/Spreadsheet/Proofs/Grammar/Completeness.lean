import Spreadsheet.Proofs.Grammar.Levels

/-!
What has a derivation is read by the parser, which therefore accepts exactly the grammar. A phrase
is read whatever tokens follow, as long as they cannot go on with it.
-/

namespace Spreadsheet

open Grammar Spreadsheet.Parser

namespace Parser

/-- Within the depth that its length allows, a phrase is read before all tokens that cannot go on
with it: the parser of its level has it as the operand to resume with. -/
def ReadsAt (l : Level) (ts : List Token) (e : Expr) : Prop :=
  ∀ ⦃depth rest⦄, ts.length ≤ depth + 1 → Stops l.inner rest → ¬ CallStarts ts rest →
    ∃ n, rest.length ≤ n ∧
      l.parser (expression depth) (ts ++ rest) = l.resume (expression depth) n e rest

theorem not_callStarts {t : Token} {s : Symbol} (ht : t.symbol? = some s) (hs : s ≠ .leftParen)
    (ts rest : List Token) : ¬ CallStarts ts (t :: rest) := by
  rintro ⟨-, hhead⟩
  have h : t.symbol? = some .leftParen := hhead
  rw [ht] at h
  exact hs (Option.some.inj h)

/-- If nothing that follows goes on with the level, the parser is done after the phrase. -/
theorem ReadsAt.parser_eq_ok (h : ReadsAt l ts e) (hd : ts.length ≤ depth + 1)
    (hi : Stops l.inner rest) (hs : Stops l rest) (hc : ¬ CallStarts ts rest) :
    l.parser (expression depth) (ts ++ rest) = .ok (e, rest) := by
  obtain ⟨n, -, hn⟩ := h hd hi hc
  rw [hn, resume_of_stops hs]

theorem ReadsAt.reads (h : ReadsAt .comparison ts e) (hne : ts ≠ []) (hd : ts.length ≤ depth) :
    Reads (expression depth) ts e := by
  intro t rest ht
  obtain ⟨depth, rfl⟩ : ∃ d, depth = d + 1 :=
    Nat.exists_eq_add_one_of_ne_zero fun h0 => hne (List.length_eq_zero_iff.1 (by omega))
  have hstops (l : Level) : Stops l (t :: rest) := ht.elim (.comma · l) (.rightParen · l)
  have hc : ¬ CallStarts ts (t :: rest) :=
    ht.elim (not_callStarts · (by decide) _ _) (not_callStarts · (by decide) _ _)
  rw [expression, levels_eq]
  exact h.parser_eq_ok hd (hstops _) (hstops _) hc

/-! ### Levels -/

theorem ReadsAt.tighter {l m : Level} (hl : l.tighter? = some m) (hd : Derives m ts e)
    (h : ReadsAt m ts e) : ReadsAt l ts e := by
  intro depth rest hlen hs hc
  have hrank : l.inner.rank ≤ m.inner.rank ∧ l.inner.rank ≤ m.rank := by
    cases l <;> cases hl <;> decide
  exact parser_of_tighter hl (h.parser_eq_ok hlen (hs.mono hrank.1) (hs.mono hrank.2) hc)
    hd.starts hs

/-- A level that is resumed after its first operand reads on over what the step takes. -/
theorem ReadsAt.resume_step {t : Token} (he : ReadsAt l ts e)
    (hlen : (ts ++ t :: us).length ≤ depth + 1) (hs : Stops l.inner (t :: (us ++ rest)))
    (hc : ¬ CallStarts ts (t :: (us ++ rest)))
    (hstep : ∀ n, l.resume (expression depth) (n + 1) e (t :: (us ++ rest)) =
      l.resume (expression depth) n g rest) :
    ∃ n, rest.length ≤ n ∧
      l.parser (expression depth) (ts ++ t :: us ++ rest) =
        l.resume (expression depth) n g rest := by
  rw [List.length_append] at hlen
  obtain ⟨n, hn, hleft⟩ := he (Nat.le_of_add_right_le hlen) hs hc
  cases n with
  | zero => cases hn
  | succ n =>
    refine ⟨n, ?_, ?_⟩
    · rw [List.length_cons, List.length_append] at hn
      omega
    · rw [List.append_assoc, List.cons_append, hleft, hstep]

theorem length_right_le {t : Token} (h : (ts ++ t :: us).length ≤ depth + 1) :
    us.length ≤ depth ∧ (t :: us).length ≤ depth + 1 := by
  rw [List.length_append, List.length_cons] at h
  rw [List.length_cons]
  omega

theorem ReadsAt.operator {l m : Level} {t : Token} (hl : l.tighter? = some m)
    (ht : t.symbol?.bind l.operator? = some op) (hd : Derives m us f) (he : ReadsAt l ts e)
    (hf : ReadsAt m us f) : ReadsAt l (ts ++ t :: us) (.binary (.value op) e f) := by
  intro depth rest hlen hs hc
  obtain ⟨s, hsym, hop⟩ := Option.bind_eq_some_iff.1 ht
  have hinner : l.inner = m ∧ m.rank ≤ m.inner.rank := by
    cases l <;> cases hl <;> first | decide | cases hop
  have hparen : s ≠ .leftParen := by
    rintro rfl
    cases l <;> cases hop
  rw [hinner.1] at hs
  rw [callStarts_append _ _ (List.cons_ne_nil _ _), callStarts_cons _ _ hd.ne_nil] at hc
  have hright := hf.parser_eq_ok (Nat.le_succ_of_le (length_right_le hlen).1) (hs.mono hinner.2)
    hs hc
  exact he.resume_step hlen (hinner.1 ▸ .of_operator hl ht) (not_callStarts hsym hparen _ _)
    fun n => resume_operator hl ht hright

theorem ReadsAt.power {t : Token} (ht : t.symbol? = some .caret) (hd : Derives .power us f)
    (he : ReadsAt .sign ts e) (hf : ReadsAt .power us f) :
    ReadsAt .power (ts ++ t :: us) (.binary (.value (.arithmetic .power)) e f) := by
  intro depth rest hlen hs hc
  refine ⟨rest.length, Nat.le_refl _, ?_⟩
  rw [callStarts_append _ _ (List.cons_ne_nil _ _), callStarts_cons _ _ hd.ne_nil] at hc
  rw [List.length_append, List.length_cons] at hlen
  have hcaret : Stops .sign (t :: (us ++ rest)) :=
    .symbol ht (by decide) fun m hm => by cases m <;> first | rfl | exact absurd hm (by decide)
  have hleft := he.parser_eq_ok (by omega : ts.length ≤ depth + 1) hcaret hcaret
    (not_callStarts ht (by decide) _ _)
  have hright : powerChain (Level.sign.parser (expression depth)) (us ++ rest).length (us ++ rest) =
      .ok (f, rest) := hf.parser_eq_ok (by omega) hs hs hc
  have hnone : after? .caret rest = none :=
    after?_of_stops hs ⟨.power, Nat.le_refl _, rfl⟩
  obtain ⟨k, hk, hlength⟩ : ∃ k, (us ++ rest).length ≤ k ∧
      (ts ++ t :: (us ++ rest)).length = k + 1 :=
    ⟨ts.length + (us ++ rest).length, Nat.le_add_left _ _, by simp [Nat.add_assoc]⟩
  rw [List.append_assoc, List.cons_append]
  show powerChain (Level.sign.parser _) (ts ++ t :: (us ++ rest)).length
    (ts ++ t :: (us ++ rest)) = _
  rw [hlength, powerChain, hleft]
  simp only [bind, Except.bind, after?_eq_some.2 ⟨t, rfl, ht⟩, powerChain_mono hright hnone hk]
  rfl

theorem ReadsAt.sign {t : Token} (ht : t.symbol?.bind signOp? = some op)
    (hd : Derives .sign ts e) (h : ReadsAt .sign ts e) :
    ReadsAt .sign (t :: ts) (.sign op e) := by
  intro depth rest hlen hs hc
  refine ⟨rest.length, Nat.le_refl _, ?_⟩
  rw [callStarts_cons _ _ hd.ne_nil] at hc
  have hread : signLevel _ (ts ++ rest) = _ :=
    h.parser_eq_ok (Nat.le_of_succ_le hlen) hs hs hc
  show signLevel _ (t :: (ts ++ rest)) = _
  rw [signLevel, ht]
  dsimp only
  rw [hread]
  rfl

theorem ReadsAt.percent {t : Token} (ht : t.symbol? = some .percent)
    (h : ReadsAt .percent ts e) : ReadsAt .percent (ts ++ [t]) (.percent e) := by
  intro depth rest hlen hs hc
  rw [List.length_append] at hlen
  have hstops : Stops .intersection (t :: rest) :=
    .symbol ht (by decide) fun m hm => by cases m <;> first | rfl | exact absurd hm (by decide)
  obtain ⟨n, hn, hread⟩ := h (Nat.le_of_add_right_le hlen) hstops
    (not_callStarts ht (by decide) _ _)
  refine ⟨n, Nat.le_of_succ_le hn, ?_⟩
  rw [List.append_assoc, List.singleton_append, hread]
  show Except.ok (percents e (t :: rest)) = .ok (percents (.percent e) rest)
  rw [percents, if_pos ht]

theorem ReadsAt.intersect {u : Token} (hu : u.spaceBefore = true) (hs : startsReference u = true)
    (hcall : ¬ (EndsInName ts ∧ u.symbol? = some .leftParen)) (hr : e.isReference = true)
    (he : ReadsAt .intersection ts e) (hf : ReadsAt .range (u :: us) f) :
    ReadsAt .intersection (ts ++ u :: us) (.binary (.reference .intersect) e f) := by
  intro depth rest hlen hstops hc
  rw [callStarts_append _ _ (List.cons_ne_nil _ _)] at hc
  have hstart : Stops .range (u :: (us ++ rest)) := by
    intro t ht m hm
    cases ht
    unfold startsReference at hs
    unfold Level.goesOnWith Token.symbol?
    split at hs
    all_goals first | cases hs; done | rename_i hk
    all_goals
      simp only [hk]
      cases m <;> first | rfl | exact absurd hm (by decide)
  have hright := hf.parser_eq_ok (length_right_le hlen).2 (hstops.mono (by decide)) hstops hc
  exact he.resume_step hlen hstart hcall fun n => resume_intersect hr hu hs hright

theorem ReadsAt.colon {t : Token} (ht : t.symbol? = some .colon) (hd : Derives .primary us f)
    (hj : joinRange e f = .ok g) (he : ReadsAt .range ts e) (hf : ReadsAt .primary us f) :
    ReadsAt .range (ts ++ t :: us) g := by
  intro depth rest hlen hs hc
  rw [callStarts_append _ _ (List.cons_ne_nil _ _), callStarts_cons _ _ hd.ne_nil] at hc
  have hcolon : Stops .primary (t :: (us ++ rest)) :=
    .symbol ht (by decide) fun m hm => by cases m <;> first | rfl | exact absurd hm (by decide)
  have hright := hf.parser_eq_ok (Nat.le_succ_of_le (length_right_le hlen).1) hs hs hc
  exact he.resume_step hlen hcolon (not_callStarts ht (by decide) _ _) fun n =>
    resume_colon ht hright hj

/-- A primary is read as it stands. -/
theorem ReadsAt.primary (h : ∀ ⦃depth rest⦄, ts.length ≤ depth + 1 → ¬ CallStarts ts rest →
    Parser.primary (expression depth) (ts ++ rest) = .ok (e, rest)) : ReadsAt .primary ts e :=
  fun _ rest hlen _ hc => ⟨rest.length, Nat.le_refl _, h hlen hc⟩

theorem ReadsAt.ident {t : Token} (ht : t.kind = .ident n) : ReadsAt .primary [t] (.name n) := by
  refine .primary fun depth rest _ hc => ?_
  have hnone : after? .leftParen rest = none :=
    if_neg fun hhead => hc ⟨⟨t, rfl, n, ht⟩, hhead⟩
  rw [List.singleton_append, Parser.primary, ht]
  dsimp only
  rw [hnone]

theorem ReadsAt.callEmpty {t o c : Token} (ht : t.kind = .ident n)
    (ho : o.symbol? = some .leftParen) (hc : c.symbol? = some .rightParen) :
    ReadsAt .primary [t, o, c] (.call (String.ofList (Unicode.upper n.toList)) []) := by
  refine .primary fun depth rest _ _ => ?_
  show Parser.primary _ (t :: o :: c :: rest) = _
  rw [Parser.primary, ht]
  dsimp only
  rw [after?_eq_some.2 ⟨o, rfl, ho⟩]
  dsimp only
  rw [Parser.call, after?_eq_some.2 ⟨c, rfl, hc⟩]
  rfl

/-- A slot that is given starts no closing parenthesis, and an empty one ends in it or a comma. -/
theorem after?_rightParen_of_slots {slots : List (List Token × Expr)} {c : Token}
    (hj : Joined .comma (slots.map Prod.fst) ts) (hts : ts ≠ [])
    (hgiven : ∀ s ∈ slots, s.1 ≠ [] → Derives .comparison s.1 s.2) (rest : List Token) :
    after? .rightParen (ts ++ c :: rest) = none := by
  have hslot {s : List Token × Expr} (hs : s ∈ slots) (hne : s.1 ≠ []) (rest : List Token) :
      after? .rightParen (s.1 ++ rest) = none :=
    if_neg ((hgiven s hs hne).head_ne id _)
  generalize htss : slots.map Prod.fst = tss at hj
  cases hj with
  | one =>
    obtain ⟨s, rfl, rfl⟩ := List.map_eq_singleton_iff.1 htss
    exact hslot (List.mem_singleton_self _) hts _
  | @cons t ts us tss ht hj =>
    obtain ⟨s, slots, rfl, rfl, -⟩ := List.map_eq_cons_iff.1 htss
    rw [List.append_assoc]
    by_cases hne : s.1 = []
    · rw [hne]
      exact after?_eq_none ht (by decide)
    · exact hslot (List.mem_cons_self ..) hne _

theorem ReadsAt.call {t o c : Token} {slots : List (List Token × Expr)} (ht : t.kind = .ident n)
    (ho : o.symbol? = some .leftParen) (hc : c.symbol? = some .rightParen) (hts : ts ≠ [])
    (hj : Joined .comma (slots.map Prod.fst) ts)
    (homitted : ∀ s ∈ slots, s.1 = [] → s.2 = .omitted)
    (hgiven : ∀ s ∈ slots, s.1 ≠ [] → Derives .comparison s.1 s.2)
    (h : ∀ s ∈ slots, s.1 ≠ [] → ReadsAt .comparison s.1 s.2) :
    ReadsAt .primary (t :: o :: (ts ++ [c]))
      (.call (String.ofList (Unicode.upper n.toList)) (slots.map Prod.snd)) := by
  refine .primary fun depth rest hlen _ => ?_
  simp only [List.length_cons, List.length_append] at hlen
  have hread : ∀ s ∈ slots, s.1 ≠ [] → Reads (expression depth) s.1 s.2 := fun s hs hne =>
    (h s hs hne).reads hne <| by
      have := hj.length_le _ (List.mem_map_of_mem hs)
      omega
  have hargs : arguments (expression depth) (ts ++ c :: rest).length (ts ++ c :: rest) =
      .ok (slots.map Prod.snd, rest) :=
    arguments_eq_ok hj (by simp) homitted hgiven hread hc
  rw [List.cons_append, List.cons_append, List.append_assoc, List.singleton_append,
    Parser.primary, ht]
  dsimp only
  rw [after?_eq_some.2 ⟨o, rfl, ho⟩]
  dsimp only
  rw [Parser.call, after?_rightParen_of_slots hj hts hgiven]
  dsimp only
  rw [hargs]
  rfl

theorem primary_leftParen {o : Token} (ho : o.symbol? = some .leftParen) (nested : Parser Expr)
    (ts : List Token) : Parser.primary nested (o :: ts) = parenthesized nested ts := by
  have hk : o.kind = .symbol .leftParen := by
    unfold Token.symbol? at ho
    split at ho <;> simp_all
  rw [Parser.primary, hk]

theorem ReadsAt.parens {o c : Token} (ho : o.symbol? = some .leftParen)
    (hc : c.symbol? = some .rightParen) (hd : Derives .comparison ts e)
    (h : ReadsAt .comparison ts e) : ReadsAt .primary (o :: (ts ++ [c])) e := by
  refine .primary fun depth rest hlen _ => ?_
  simp only [List.length_cons, List.length_append] at hlen
  have hfirst := h.reads hd.ne_nil (by omega : ts.length ≤ depth) c rest (.inr hc)
  rw [List.cons_append, List.append_assoc, List.singleton_append, primary_leftParen ho]
  simp only [parenthesized, hfirst, bind, Except.bind, unionParts_stop _ _ hc, List.isEmpty_nil,
    ↓reduceIte, close_eq_ok.2 ⟨c, rfl, hc⟩]
  rfl

theorem ReadsAt.union {o c : Token} {parts : List (List Token × Expr)}
    (ho : o.symbol? = some .leftParen) (hc : c.symbol? = some .rightParen)
    (hlen : 2 ≤ parts.length) (hj : Joined .comma (parts.map Prod.fst) ts)
    (hr : ∀ part ∈ parts, part.2.isReference = true)
    (hd : ∀ part ∈ parts, Derives .comparison part.1 part.2)
    (h : ∀ part ∈ parts, ReadsAt .comparison part.1 part.2) :
    ReadsAt .primary (o :: (ts ++ [c])) (.union (parts.map Prod.snd)) := by
  refine .primary fun depth rest hdepth _ => ?_
  simp only [List.length_cons, List.length_append] at hdepth
  have hread : ∀ part ∈ parts, Reads (expression depth) part.1 part.2 := fun part hp =>
    (h part hp).reads (hd part hp).ne_nil <| by
      have := hj.length_le _ (List.mem_map_of_mem hp)
      omega
  rw [List.cons_append, List.append_assoc, List.singleton_append, primary_leftParen ho]
  generalize htss : parts.map Prod.fst = tss at hj
  cases hj with
  | one =>
    obtain ⟨part, rfl, -⟩ := List.map_eq_singleton_iff.1 htss
    cases hlen with
    | step h => cases h
  | @cons t ts us tss ht hj =>
    obtain ⟨first, parts, rfl, rfl, rfl⟩ := List.map_eq_cons_iff.1 htss
    have hmem {p} (hp : p ∈ parts) := List.mem_cons_of_mem first hp
    have hfirst := hread _ (List.mem_cons_self ..) t (us ++ c :: rest) (.inl ht)
    have hparts : unionParts (expression depth) (t :: (us ++ c :: rest)).length
        (t :: (us ++ c :: rest)) = .ok (parts.map Prod.snd, c :: rest) :=
      unionParts_eq_ok hj (by simp only [List.length_cons, List.length_append]; omega)
        (fun p hp => hread p (hmem hp)) (fun p hp => hr p (hmem hp)) ht hc
    have hne : (parts.map Prod.snd).isEmpty = false := by
      cases parts with
      | nil => cases hj
      | cons => rfl
    rw [List.append_assoc, List.cons_append]
    simp only [parenthesized, hfirst, bind, Except.bind, hparts, hne, Bool.false_eq_true,
      ↓reduceIte, hr _ (List.mem_cons_self ..), Bool.not_true, close_eq_ok.2 ⟨c, rfl, hc⟩]
    rfl

theorem ReadsAt.array {o c : Token} (ho : o.symbol? = some .leftBrace)
    (hc : c.symbol? = some .rightBrace) (h : Rows ts rows) :
    ReadsAt .primary (o :: (ts ++ [c])) (.array rows) := by
  refine .primary fun depth rest _ _ => ?_
  have hk : o.kind = .symbol .leftBrace := by
    unfold Token.symbol? at ho
    split at ho <;> simp_all
  rw [List.cons_append, List.append_assoc, List.singleton_append, Parser.primary, hk]
  exact arrayConstant_eq_ok h hc

/-- Every phrase of the grammar is read. -/
theorem derives_reads (h : Derives l ts e) : ReadsAt l ts e := by
  have htoken {t : Token} {k : TokenKind} {e : Expr} (hk : t.kind = k)
      (he : ∀ nested rest, Parser.primary nested (⟨k, t.lexeme, t.place, t.spaceBefore⟩ :: rest) =
        .ok (e, rest)) : ReadsAt .primary [t] e := by
    refine .primary fun depth rest _ _ => ?_
    cases t
    cases hk
    exact he _ _
  induction h with
  | tighter hl h ih => exact ih.tighter hl h
  | operator hl ht _ hf ih₁ ih₂ => exact ih₁.operator hl ht hf ih₂
  | power ht _ hf ih₁ ih₂ => exact .power ht hf ih₁ ih₂
  | plus ht h ih => exact .sign (by rw [ht]; rfl) h ih
  | negate ht h ih => exact .sign (by rw [ht]; rfl) h ih
  | percent ht _ ih => exact ih.percent ht
  | intersect hu hs hc hr _ _ ih₁ ih₂ => exact .intersect hu hs hc hr ih₁ ih₂
  | cells ht hs _ hf ih₁ ih₂ => exact .colon ht hf (joinRange_cells hs) ih₁ ih₂
  | range ht hr hr' hc _ hf ih₁ ih₂ =>
    exact .colon ht hf (joinRange_references hr hr' hc) ih₁ ih₂
  | number ht => exact htoken ht fun _ _ => rfl
  | text ht => exact htoken ht fun _ _ => rfl
  | boolean ht => exact htoken ht fun _ _ => rfl
  | error ht => exact htoken ht fun _ _ => rfl
  | cell ht => exact htoken ht fun _ _ => rfl
  | area ht => exact htoken ht fun _ _ => rfl
  | sheetCell hs ht =>
    refine .primary fun depth rest _ _ => ?_
    rw [List.cons_append, Parser.primary, hs, List.singleton_append]
    dsimp only
    rw [onSheet, ht]
  | sheetArea hs ht =>
    refine .primary fun depth rest _ _ => ?_
    rw [List.cons_append, Parser.primary, hs, List.singleton_append]
    dsimp only
    rw [onSheet, ht]
  | name ht => exact .ident ht
  | callEmpty ht ho hc => exact .callEmpty ht ho hc
  | call ht ho hc hts hj homitted hgiven ih => exact .call ht ho hc hts hj homitted hgiven ih
  | parens ho hc h ih => exact .parens ho hc h ih
  | union ho hc hlen hj hr h ih => exact .union ho hc hlen hj hr h ih
  | array ho hc h => exact .array ho hc h

theorem formula_eq_ok_of_derives (h : Derives .comparison ts e) : formula ts = .ok e := by
  have hread := derives_reads h
  cases ts with
  | nil => exact absurd rfl h.ne_nil
  | cons t ts =>
    have hlast : ¬ CallStarts (t :: ts) [] := by
      rintro ⟨-, hhead⟩
      cases hhead
    have hok := hread.parser_eq_ok (Nat.le_refl (ts.length + 1)) (.nil _) (.nil _) hlast
    rw [List.append_nil] at hok
    rw [formula, List.length_cons, expression, levels_eq, hok]
    rfl

/-- The parser accepts exactly the formulas that have a derivation, each with its only tree. -/
theorem formula_eq_ok_iff (ts : List Token) (e : Expr) :
    (formula ts = .ok e ↔ Derives .comparison ts e) ∧
      ∀ f, Derives .comparison ts e → Derives .comparison ts f → f = e := by
  refine ⟨⟨derives_of_formula_eq_ok, formula_eq_ok_of_derives⟩, fun f he hf => ?_⟩
  have he' := formula_eq_ok_of_derives he
  have hf' := formula_eq_ok_of_derives hf
  rw [he'] at hf'
  exact (Except.ok.inj hf').symm

end Parser

theorem parseFormula_eq_ok_iff :
    parseFormula text = .ok e ↔
      ∃ lexed, tokenize text = .ok lexed ∧ Derives .comparison lexed.tokens e := by
  unfold parseFormula
  constructor
  · intro h
    split at h
    · cases h
    · next lexed hl =>
      split at h
      · next f hf =>
        obtain rfl := Except.ok.inj h
        exact ⟨lexed, hl, Parser.derives_of_formula_eq_ok hf⟩
      · cases h
  · rintro ⟨lexed, hl, hd⟩
    rw [hl]
    dsimp only
    rw [Parser.formula_eq_ok_of_derives hd]

end Spreadsheet
