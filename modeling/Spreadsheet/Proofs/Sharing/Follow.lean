import Spreadsheet.Proofs.Grammar.Soundness
import Spreadsheet.Proofs.Sharing.Moved

/-!
A derivation leads the same way over tokens that have moved.
-/

namespace Spreadsheet

namespace Grammar

/-- The tokens of the second list are those of the first moved. -/
abbrev Follows (rows cols : Int) : List Token → List Token → Prop :=
  List.Forall₂ (Token.MovesTo rows cols)

namespace Follows

variable {ts us vs : List Token}

theorem append_left (h : Follows rows cols (ts ++ us) vs) :
    ∃ ts' us', vs = ts' ++ us' ∧ Follows rows cols ts ts' ∧ Follows rows cols us us' := by
  induction ts generalizing vs with
  | nil => exact ⟨[], vs, rfl, .nil, h⟩
  | cons t ts ih =>
    obtain ⟨t', vs, ht, hvs, rfl⟩ := List.forall₂_cons_left_iff.1 h
    obtain ⟨ts', us', rfl, hts, hus⟩ := ih hvs
    exact ⟨t' :: ts', us', rfl, .cons ht hts, hus⟩

theorem cons_left (h : Follows rows cols (t :: ts) vs) :
    ∃ t' ts', vs = t' :: ts' ∧ Token.MovesTo rows cols t t' ∧ Follows rows cols ts ts' := by
  obtain ⟨t', ts', ht, hts, rfl⟩ := List.forall₂_cons_left_iff.1 h
  exact ⟨t', ts', rfl, ht, hts⟩

theorem singleton_left (h : Follows rows cols [t] vs) :
    ∃ t', vs = [t'] ∧ Token.MovesTo rows cols t t' := by
  obtain ⟨t', ts', rfl, ht, hts⟩ := h.cons_left
  obtain rfl := List.forall₂_nil_left_iff.1 hts
  exact ⟨t', rfl, ht⟩

theorem between_left (h : Follows rows cols (ts ++ t :: us) vs) :
    ∃ ts' t' us', vs = ts' ++ t' :: us' ∧ Follows rows cols ts ts' ∧
      Token.MovesTo rows cols t t' ∧ Follows rows cols us us' := by
  obtain ⟨ts', us', rfl, hts, hus⟩ := h.append_left
  obtain ⟨t', us', rfl, ht, hus⟩ := hus.cons_left
  exact ⟨ts', t', us', rfl, hts, ht, hus⟩

theorem enclosed_left (h : Follows rows cols (t :: (ts ++ [u])) vs) :
    ∃ t' ts' u', vs = t' :: (ts' ++ [u']) ∧ Token.MovesTo rows cols t t' ∧
      Follows rows cols ts ts' ∧ Token.MovesTo rows cols u u' := by
  obtain ⟨t', vs, rfl, ht, hvs⟩ := h.cons_left
  obtain ⟨ts', us', rfl, hts, hus⟩ := hvs.append_left
  obtain ⟨u', rfl, hu⟩ := hus.singleton_left
  exact ⟨t', ts', u', rfl, ht, hts, hu⟩

theorem endsInName (h : Follows rows cols ts ts') (hn : EndsInName ts') : EndsInName ts := by
  rcases List.eq_nil_or_concat ts with rfl | ⟨us, t, rfl⟩
  · obtain rfl := List.forall₂_nil_left_iff.1 h
    obtain ⟨t, ht, -⟩ := hn
    cases ht
  · rw [List.concat_eq_append] at h ⊢
    obtain ⟨us', vs', rfl, -, hvs⟩ := h.append_left
    obtain ⟨t', rfl, ht⟩ := hvs.singleton_left
    obtain ⟨u, hu, name, hname⟩ := hn
    rw [List.getLast?_concat, Option.mem_some_iff] at hu
    subst hu
    refine ⟨t, by rw [List.getLast?_concat, Option.mem_some_iff], name, ?_⟩
    rw [ht.kind] at hname
    cases hk : t.kind with
    | ident n => rwa [hk] at hname
    | _ => rw [hk] at hname; cases hname

end Follows

theorem Joined.follow (h : Joined s tss ts) (hf : Follows rows cols ts ts') :
    ∃ tss', List.Forall₂ (Follows rows cols) tss tss' ∧ Joined s tss' ts' := by
  induction h generalizing ts' with
  | one => exact ⟨[ts'], .cons hf .nil, .one⟩
  | cons ht _ ih =>
    obtain ⟨us', t', vs', rfl, hus, htt, hvs⟩ := hf.between_left
    obtain ⟨tss', htss, hj⟩ := ih hvs
    exact ⟨us' :: tss', .cons hus htss, .cons (htt.symbol?_eq.trans ht) hj⟩

theorem Element.follow (h : Element ts l) (hf : Follows rows cols ts ts') : Element ts' l := by
  induction h generalizing ts' with
  | number ht =>
    obtain ⟨t', rfl, h⟩ := hf.singleton_left
    exact .number (h.kind_eq ht)
  | text ht =>
    obtain ⟨t', rfl, h⟩ := hf.singleton_left
    exact .text (h.kind_eq ht)
  | boolean ht =>
    obtain ⟨t', rfl, h⟩ := hf.singleton_left
    exact .boolean (h.kind_eq ht)
  | error ht =>
    obtain ⟨t', rfl, h⟩ := hf.singleton_left
    exact .error (h.kind_eq ht)
  | plus hs _ ih =>
    obtain ⟨s', ts', rfl, hss, hts⟩ := hf.cons_left
    obtain ⟨t', rfl, -⟩ := hts.singleton_left
    exact .plus (hss.symbol?_eq.trans hs) (ih hts)
  | minus hs ht =>
    obtain ⟨s', ts', rfl, hss, hts⟩ := hf.cons_left
    obtain ⟨t', rfl, h⟩ := hts.singleton_left
    exact .minus (hss.symbol?_eq.trans hs) (h.kind_eq ht)

theorem forall₂_follow {P : List Token → α → Prop} {tss tss' : List (List Token)} {xs : List α}
    (hP : ∀ ts ts' x, P ts x → Follows rows cols ts ts' → P ts' x)
    (h : List.Forall₂ P tss xs) (hf : List.Forall₂ (Follows rows cols) tss tss') :
    List.Forall₂ P tss' xs := by
  induction h generalizing tss' with
  | nil =>
    obtain rfl := List.forall₂_nil_left_iff.1 hf
    exact .nil
  | cons hx _ ih =>
    obtain ⟨ts', tss', hts, htss, rfl⟩ := List.forall₂_cons_left_iff.1 hf
    exact .cons (hP _ _ _ hx hts) (ih htss)

theorem Row.follow (h : Row ts row) (hf : Follows rows cols ts ts') : Row ts' row := by
  obtain ⟨elements, he, hj⟩ := h
  obtain ⟨elements', hee, hj⟩ := hj.follow hf
  exact ⟨elements', forall₂_follow (fun _ _ _ h => h.follow) he hee, hj⟩

theorem Rows.follow (h : Rows ts values) (hf : Follows rows cols ts ts') : Rows ts' values := by
  obtain ⟨⟨texts, hr, hj⟩, hlen⟩ := h
  obtain ⟨texts', htt, hj⟩ := hj.follow hf
  exact ⟨⟨texts', forall₂_follow (fun _ _ _ h => h.follow) hr htt, hj⟩, hlen⟩

theorem exists_parts {parts : List (List Token × Expr)} {Q : List Token × Expr → Prop}
    (hf : List.Forall₂ (Follows rows cols) (parts.map Prod.fst) tss')
    (h : ∀ part ∈ parts, ∀ ts', Follows rows cols part.1 ts' →
      ∃ e', Q (ts', e') ∧ part.2.MovesTo rows cols e') :
    ∃ parts' : List (List Token × Expr), parts'.map Prod.fst = tss' ∧ (∀ part ∈ parts', Q part) ∧
      List.Forall₂ (Expr.MovesTo rows cols) (parts.map Prod.snd) (parts'.map Prod.snd) := by
  induction parts generalizing tss' with
  | nil =>
    obtain rfl := List.forall₂_nil_left_iff.1 hf
    exact ⟨[], rfl, fun part hpart => absurd hpart List.not_mem_nil, .nil⟩
  | cons part parts ih =>
    obtain ⟨ts', tss', hts, htss, rfl⟩ := List.forall₂_cons_left_iff.1 hf
    obtain ⟨hpart, hparts⟩ := List.forall_mem_cons.1 h
    obtain ⟨e', hq, he⟩ := hpart ts' hts
    obtain ⟨parts', rfl, hall, hm⟩ := ih htss hparts
    exact ⟨(ts', e') :: parts', rfl, List.forall_mem_cons.2 ⟨hq, hall⟩, .cons he hm⟩

/-- A derivation leads the same way over moved tokens, to the formula moved. -/
theorem Derives.follow (h : Derives l ts e) (hf : Follows rows cols ts ts') :
    ∃ e', Derives l ts' e' ∧ e.MovesTo rows cols e' := by
  induction h generalizing ts' with
  | tighter hl _ ih =>
    obtain ⟨e', he, hm⟩ := ih hf
    exact ⟨e', .tighter hl he, hm⟩
  | operator hl ht _ _ ih₁ ih₂ =>
    obtain ⟨us', t', vs', rfl, hus, htt, hvs⟩ := hf.between_left
    obtain ⟨e', he, hem⟩ := ih₁ hus
    obtain ⟨f', hf, hfm⟩ := ih₂ hvs
    exact ⟨_, .operator hl (by rw [htt.symbol?_eq, ht]) he hf, .binary hem hfm⟩
  | power ht _ _ ih₁ ih₂ =>
    obtain ⟨us', t', vs', rfl, hus, htt, hvs⟩ := hf.between_left
    obtain ⟨e', he, hem⟩ := ih₁ hus
    obtain ⟨f', hf, hfm⟩ := ih₂ hvs
    exact ⟨_, .power (htt.symbol?_eq.trans ht) he hf, .binary hem hfm⟩
  | plus ht _ ih =>
    obtain ⟨t', us', rfl, htt, hus⟩ := hf.cons_left
    obtain ⟨e', he, hem⟩ := ih hus
    exact ⟨_, .plus (htt.symbol?_eq.trans ht) he, .sign hem⟩
  | negate ht _ ih =>
    obtain ⟨t', us', rfl, htt, hus⟩ := hf.cons_left
    obtain ⟨e', he, hem⟩ := ih hus
    exact ⟨_, .negate (htt.symbol?_eq.trans ht) he, .sign hem⟩
  | percent ht _ ih =>
    obtain ⟨us', vs', rfl, hus, hvs⟩ := hf.append_left
    obtain ⟨t', rfl, htt⟩ := hvs.singleton_left
    obtain ⟨e', he, hem⟩ := ih hus
    exact ⟨_, .percent (htt.symbol?_eq.trans ht) he, .percent hem⟩
  | intersect hu hs hc hr _ _ ih₁ ih₂ =>
    obtain ⟨us', vs', rfl, hus, hvs⟩ := hf.append_left
    obtain ⟨u', vs', rfl, huu, hvs'⟩ := hvs.cons_left
    obtain ⟨e', he, hem⟩ := ih₁ hus
    obtain ⟨f', hf, hfm⟩ := ih₂ hvs
    refine ⟨_, .intersect (huu.spaceBefore.trans hu) (huu.startsReference_eq.trans hs) ?_
      (hem.isReference_eq.trans hr) he hf, .binary hem hfm⟩
    rintro ⟨hname, hparen⟩
    exact hc ⟨hus.endsInName hname, huu.symbol?_eq.symm.trans hparen⟩
  | cells ht hs _ _ ih₁ ih₂ =>
    obtain ⟨us', t', vs', rfl, hus, htt, hvs⟩ := hf.between_left
    obtain ⟨e', he, hem⟩ := ih₁ hus
    obtain ⟨f', hf, hfm⟩ := ih₂ hvs
    obtain rfl := hem.eq_cell
    obtain rfl := hfm.eq_cell
    refine ⟨_, .cells (htt.symbol?_eq.trans ht) ?_ he hf, .range_ofCorners⟩
    exact hs
  | range ht hr hr' hc _ _ ih₁ ih₂ =>
    obtain ⟨us', t', vs', rfl, hus, htt, hvs⟩ := hf.between_left
    obtain ⟨e', he, hem⟩ := ih₁ hus
    obtain ⟨f', hf, hfm⟩ := ih₂ hvs
    refine ⟨_, .range (htt.symbol?_eq.trans ht) (hem.isReference_eq.trans hr)
      (hfm.isReference_eq.trans hr') ?_ he hf, .binary hem hfm⟩
    rintro a b ⟨rfl, rfl⟩
    obtain ⟨a, rfl⟩ := hem.cell_iff.2 ⟨a, rfl⟩
    obtain ⟨b, rfl⟩ := hfm.cell_iff.2 ⟨b, rfl⟩
    exact hc a b ⟨rfl, rfl⟩
  | number ht =>
    obtain ⟨t', rfl, h⟩ := hf.singleton_left
    exact ⟨_, .number (h.kind_eq ht), rfl⟩
  | text ht =>
    obtain ⟨t', rfl, h⟩ := hf.singleton_left
    exact ⟨_, .text (h.kind_eq ht), rfl⟩
  | boolean ht =>
    obtain ⟨t', rfl, h⟩ := hf.singleton_left
    exact ⟨_, .boolean (h.kind_eq ht), rfl⟩
  | error ht =>
    obtain ⟨t', rfl, h⟩ := hf.singleton_left
    exact ⟨_, .error (h.kind_eq ht), rfl⟩
  | cell ht =>
    obtain ⟨t', rfl, h⟩ := hf.singleton_left
    exact ⟨_, .cell (h.kind_eq ht), rfl⟩
  | area ht =>
    obtain ⟨t', rfl, h⟩ := hf.singleton_left
    exact ⟨_, .area (h.kind_eq ht), rfl⟩
  | sheetCell hs ht =>
    obtain ⟨s', us', rfl, hss, hus⟩ := hf.cons_left
    obtain ⟨t', rfl, h⟩ := hus.singleton_left
    exact ⟨_, .sheetCell (hss.kind_eq hs) (h.kind_eq ht), rfl⟩
  | sheetArea hs ht =>
    obtain ⟨s', us', rfl, hss, hus⟩ := hf.cons_left
    obtain ⟨t', rfl, h⟩ := hus.singleton_left
    exact ⟨_, .sheetArea (hss.kind_eq hs) (h.kind_eq ht), rfl⟩
  | name ht =>
    obtain ⟨t', rfl, h⟩ := hf.singleton_left
    exact ⟨_, .name (h.kind_eq ht), rfl⟩
  | callEmpty ht ho hc =>
    obtain ⟨t', us', rfl, htt, hus⟩ := hf.cons_left
    obtain ⟨o', vs', rfl, hoo, hvs⟩ := hus.cons_left
    obtain ⟨c', rfl, hcc⟩ := hvs.singleton_left
    exact ⟨_, .callEmpty (htt.kind_eq ht) (hoo.symbol?_eq.trans ho)
      (hcc.symbol?_eq.trans hc), rfl⟩
  | @call t n o c ts slots ht ho hc hts hj homitted hgiven ih =>
    obtain ⟨t', us', rfl, htt, hus⟩ := hf.cons_left
    obtain ⟨o', us', c', rfl, hoo, hus, hcc⟩ := hus.enclosed_left
    obtain ⟨tss', hfs, hj⟩ := hj.follow hus
    have hslot : ∀ slot ∈ slots, ∀ ts', Follows rows cols slot.1 ts' → ∃ e',
        ((ts' = [] → e' = .omitted) ∧ (ts' ≠ [] → Derives .comparison ts' e')) ∧
          slot.2.MovesTo rows cols e' := by
      intro slot hslot ts' hs
      by_cases hnil : slot.1 = []
      · rw [hnil] at hs
        obtain rfl := List.forall₂_nil_left_iff.1 hs
        exact ⟨.omitted, ⟨fun _ => rfl, fun h => absurd rfl h⟩, by
          rw [homitted slot hslot hnil]; rfl⟩
      · obtain ⟨e', he, hem⟩ := ih slot hslot hnil hs
        exact ⟨e', ⟨fun h => absurd h he.ne_nil, fun _ => he⟩, hem⟩
    obtain ⟨slots', rfl, hslots, hm⟩ :=
      exists_parts (Q := fun slot => (slot.1 = [] → slot.2 = .omitted) ∧
        (slot.1 ≠ [] → Derives .comparison slot.1 slot.2)) hfs hslot
    refine ⟨_, .call (htt.kind_eq ht) (hoo.symbol?_eq.trans ho)
      (hcc.symbol?_eq.trans hc) ?_ hj (fun slot h => (hslots slot h).1)
      (fun slot h => (hslots slot h).2), .call hm⟩
    rintro rfl
    exact hts (List.forall₂_nil_right_iff.1 hus)
  | parens ho hc _ ih =>
    obtain ⟨o', us', c', rfl, hoo, hus, hcc⟩ := hf.enclosed_left
    obtain ⟨e', he, hem⟩ := ih hus
    exact ⟨e', .parens (hoo.symbol?_eq.trans ho) (hcc.symbol?_eq.trans hc) he, hem⟩
  | @union o c ts parts ho hc hlen hj hr _ ih =>
    obtain ⟨o', us', c', rfl, hoo, hus, hcc⟩ := hf.enclosed_left
    obtain ⟨tss', hfs, hj⟩ := hj.follow hus
    have hpart : ∀ part ∈ parts, ∀ ts', Follows rows cols part.1 ts' → ∃ e',
        (e'.isReference = true ∧ Derives .comparison ts' e') ∧ part.2.MovesTo rows cols e' := by
      intro part hpart ts' hs
      obtain ⟨e', he, hem⟩ := ih part hpart hs
      exact ⟨e', ⟨hem.isReference_eq.trans (hr part hpart), he⟩, hem⟩
    obtain ⟨parts', rfl, hparts, hm⟩ :=
      exists_parts (Q := fun part => part.2.isReference = true ∧
        Derives .comparison part.1 part.2) hfs hpart
    have hlen' := hm.length_eq
    rw [List.length_map, List.length_map] at hlen'
    exact ⟨_, .union (hoo.symbol?_eq.trans ho) (hcc.symbol?_eq.trans hc) (hlen' ▸ hlen) hj
      (fun part h => (hparts part h).1) (fun part h => (hparts part h).2), .union hm⟩
  | array ho hc h =>
    obtain ⟨o', us', c', rfl, hoo, hus, hcc⟩ := hf.enclosed_left
    exact ⟨_, .array (hoo.symbol?_eq.trans ho) (hcc.symbol?_eq.trans hc) (h.follow hus), rfl⟩

end Grammar

end Spreadsheet
