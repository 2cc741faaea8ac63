import Mathlib.Data.List.Chain
import Spreadsheet.Proofs.Grammar.Soundness

/-!
Which tokens stand side by side in a formula.
-/

namespace Spreadsheet.Grammar

/-- Tokens that the grammar lets stand side by side: one is a symbol or the first the name of a
sheet, or white space is between them, and no range starts at a number. -/
def Neighbours (t u : Token) : Prop :=
  (t.symbol?.isSome ∨ (∃ name, t.kind = .sheet name) ∨ u.symbol?.isSome ∨ u.spaceBefore = true) ∧
    ¬ ((∃ x, t.kind = .number x) ∧ u.symbol? = some .colon)

namespace Neighbours

theorem of_left (ht : t.symbol? = some s) : Neighbours t u := by
  refine ⟨.inl (by rw [ht]; rfl), ?_⟩
  rintro ⟨⟨x, hx⟩, -⟩
  rw [Token.symbol?, hx] at ht
  cases ht

theorem of_right (hu : u.symbol? = some s) (hs : s ≠ .colon) : Neighbours t u := by
  refine ⟨.inr (.inr (.inl (by rw [hu]; rfl))), ?_⟩
  rintro ⟨-, hcolon⟩
  exact hs (Option.some.inj (hu.symm.trans hcolon))

end Neighbours

abbrev Chained (ts : List Token) : Prop := List.IsChain Neighbours ts

theorem Chained.cons (ht : t.symbol? = some s) (h : Chained ts) : Chained (t :: ts) :=
  List.isChain_cons.2 ⟨fun _ _ => .of_left ht, h⟩

theorem Chained.between (ht : t.symbol? = some s) (hs : s ≠ .colon) (h : Chained ts)
    (h' : Chained us) : Chained (ts ++ t :: us) :=
  h.append (h'.cons ht) fun _ _ u hu => by
    obtain rfl := Option.some.inj hu
    exact .of_right ht hs

theorem Chained.concat (hc : c.symbol? = some s) (hs : s ≠ .colon) (h : Chained ts) :
    Chained (ts ++ [c]) :=
  h.between hc hs .nil

theorem Joined.chained (h : Joined s tss ts) (hs : s ≠ .colon) (hall : ∀ us ∈ tss, Chained us) :
    Chained ts := by
  induction h with
  | one => exact hall _ (List.mem_singleton_self _)
  | cons ht _ ih =>
    obtain ⟨hus, htss⟩ := List.forall_mem_cons.1 hall
    exact hus.between ht hs (ih htss)

theorem Element.chained (h : Element ts l) : Chained ts := by
  induction h with
  | plus hs _ ih => exact Chained.cons hs ih
  | minus hs _ => exact Chained.cons hs (List.isChain_singleton _)
  | _ => exact List.isChain_singleton _

theorem forall_mem_of_forall₂ {P : α → β → Prop} {Q : α → Prop} (hP : ∀ x y, P x y → Q x)
    (h : List.Forall₂ P xs ys) : ∀ x ∈ xs, Q x := by
  induction h with
  | nil => exact fun x hx => absurd hx List.not_mem_nil
  | cons hx _ ih => exact List.forall_mem_cons.2 ⟨hP _ _ hx, ih⟩

theorem Rows.chained (h : Rows ts rows) : Chained ts := by
  obtain ⟨⟨texts, hrows, hj⟩, -⟩ := h
  refine hj.chained (by decide) (forall_mem_of_forall₂ ?_ hrows)
  rintro us row ⟨elements, he, hj⟩
  exact hj.chained (by decide) (forall_mem_of_forall₂ (fun _ _ h => h.chained) he)

theorem startsReference_of_symbol (ht : t.symbol? = some s) (hs : s ≠ .leftParen) :
    Parser.startsReference t = false := by
  unfold Token.symbol? at ht
  unfold Parser.startsReference
  cases hk : t.kind with
  | symbol s' =>
    rw [hk] at ht
    obtain rfl := Option.some.inj ht
    cases s' with
    | leftParen => exact absurd rfl hs
    | _ => rfl
  | number | text | boolean | error => rfl
  | cell | area | sheet | ident =>
    rw [hk] at ht
    cases ht

theorem operator?_colon (l : Level) : l.operator? .colon = none := by cases l <;> rfl

/-- A number ends no reference, and what is as tight as a range ends in one only if it is one. -/
theorem Derives.of_last_number (h : Derives l ts e) (ht : t ∈ ts.getLast?)
    (hk : t.kind = .number x) :
    e.isReference = false ∧ (l = .range ∨ l = .primary → ts = [t]) := by
  have hsymbol {u : Token} {s : Symbol} (us : List Token) (hu : u.symbol? = some s)
      (ht : t ∈ (us ++ [u]).getLast?) : False := by
    rw [List.getLast?_concat, Option.mem_some_iff] at ht
    rw [ht, Token.symbol?, hk] at hu
    cases hu
  induction h with
  | @tighter l m ts e hl _ ih =>
    obtain ⟨hr, hone⟩ := ih ht
    refine ⟨hr, ?_⟩
    rintro (rfl | rfl)
    · exact hone (.inr (Option.some.inj hl).symm)
    · cases hl
  | operator _ hop =>
    obtain ⟨s, -, hs⟩ := Option.bind_eq_some_iff.1 hop
    refine ⟨rfl, ?_⟩
    rintro (rfl | rfl) <;> cases hs
  | power => exact ⟨rfl, by simp⟩
  | plus => exact ⟨rfl, by simp⟩
  | negate => exact ⟨rfl, by simp⟩
  | percent hs => exact (hsymbol _ hs ht).elim
  | intersect hu hs _ _ _ _ _ ih =>
    rw [List.getLast?_append_of_ne_nil _ (List.cons_ne_nil _ _)] at ht
    obtain ⟨-, hone⟩ := ih ht
    obtain ⟨rfl, -⟩ := List.cons.inj (hone (.inl rfl))
    rw [Parser.startsReference, hk] at hs
    cases hs
  | cells _ _ _ hf _ ih =>
    rw [List.append_cons, List.getLast?_append_of_ne_nil _ hf.ne_nil] at ht
    cases (ih ht).1
  | range _ _ hr' _ _ hf _ ih =>
    rw [List.append_cons, List.getLast?_append_of_ne_nil _ hf.ne_nil] at ht
    rw [(ih ht).1] at hr'
    cases hr'
  | number =>
    obtain rfl := Option.some.inj ht
    exact ⟨rfl, fun _ => rfl⟩
  | callEmpty _ _ hc => exact (hsymbol [_, _] hc ht).elim
  | @call t o c ts n slots _ _ hc => 
    rw [← List.cons_append, ← List.cons_append] at ht
    exact (hsymbol _ hc ht).elim
  | parens _ hc => exact (hsymbol (_ :: _) hc ht).elim
  | union _ hc => exact (hsymbol (_ :: _) hc ht).elim
  | array _ hc => exact (hsymbol (_ :: _) hc ht).elim
  | text h | boolean h | error h | cell h | area h | name h | sheetCell _ h | sheetArea _ h =>
    obtain rfl := Option.some.inj ht
    have hkind := hk.symm.trans h
    cases hkind

theorem Derives.neighbours_colon (h : Derives l ts e) (hr : e.isReference = true)
    (hu : u.symbol? = some .colon) : ∀ t ∈ ts.getLast?, Neighbours t u := by
  intro t ht
  refine ⟨.inr (.inr (.inl (by rw [hu]; rfl))), ?_⟩
  rintro ⟨⟨x, hx⟩, -⟩
  rw [(h.of_last_number ht hx).1] at hr
  cases hr

theorem Derives.chained_colon (h : Derives l ts e) (hr : e.isReference = true)
    (ht : t.symbol? = some .colon) (hts : Chained ts) (hus : Chained us) :
    Chained (ts ++ t :: us) := by
  refine hts.append (Chained.cons ht hus) fun v hv u hu => ?_
  obtain rfl := Option.some.inj hu
  exact h.neighbours_colon hr ht v hv

theorem Derives.chained (h : Derives l ts e) : Chained ts := by
  induction h with
  | tighter _ _ ih => exact ih
  | operator _ hop _ _ ih₁ ih₂ =>
    obtain ⟨s, hs, hop⟩ := Option.bind_eq_some_iff.1 hop
    refine ih₁.between hs ?_ ih₂
    rintro rfl
    rw [operator?_colon] at hop
    cases hop
  | power ht _ _ ih₁ ih₂ => exact ih₁.between ht (by decide) ih₂
  | plus ht _ ih => exact Chained.cons ht ih
  | negate ht _ ih => exact Chained.cons ht ih
  | percent ht _ ih => exact ih.concat ht (by decide)
  | intersect hu hs _ _ _ _ ih₁ ih₂ =>
    refine ih₁.append ih₂ fun t _ u hu' => ?_
    obtain rfl := Option.some.inj hu'
    refine ⟨.inr (.inr (.inr hu)), ?_⟩
    rintro ⟨-, hcolon⟩
    exact absurd (startsReference_of_symbol hcolon (by decide)) (by simpa using hs)
  | cells ht _ he _ ih₁ ih₂ => exact he.chained_colon rfl ht ih₁ ih₂
  | range ht hr _ _ he _ ih₁ ih₂ => exact he.chained_colon hr ht ih₁ ih₂
  | sheetCell hs | sheetArea hs =>
    refine List.isChain_pair.2 ⟨.inr (.inl ⟨_, hs⟩), ?_⟩
    rintro ⟨⟨x, hx⟩, -⟩
    exact nomatch hs.symm.trans hx
  | callEmpty _ ho hc =>
    exact List.isChain_cons_cons.2 ⟨.of_right ho (by decide),
      Chained.cons ho (List.isChain_singleton _)⟩
  | call _ ho hc _ hj _ _ ih =>
    refine List.isChain_cons_cons.2 ⟨.of_right ho (by decide),
      Chained.cons ho (Chained.concat hc (by decide) (hj.chained (by decide) fun us hus => ?_))⟩
    obtain ⟨slot, hslot, rfl⟩ := List.mem_map.1 hus
    by_cases hnil : slot.1 = []
    · rw [hnil]
      exact .nil
    · exact ih slot hslot hnil
  | parens ho hc _ ih => exact Chained.cons ho (ih.concat hc (by decide))
  | union ho hc _ hj _ _ ih =>
    refine Chained.cons ho (Chained.concat hc (by decide) (hj.chained (by decide) fun us hus => ?_))
    obtain ⟨part, hpart, rfl⟩ := List.mem_map.1 hus
    exact ih part hpart
  | array ho hc h => exact Chained.cons ho (h.chained.concat hc (by decide))
  | _ => exact List.isChain_singleton _

end Spreadsheet.Grammar
