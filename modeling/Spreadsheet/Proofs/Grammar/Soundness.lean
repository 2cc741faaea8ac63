import Mathlib.Tactic.Common
import Spreadsheet.Proofs.Grammar.Basic
import Spreadsheet.Proofs.Outcome

/-!
What the parser reads has a derivation. Each level is sound if the next tighter one is, and
primaries are sound if the parser for what stands in parentheses is.
-/

namespace Spreadsheet

open Grammar

namespace Grammar

theorem Joined.length_le (h : Joined s tss ts) : ∀ us ∈ tss, us.length ≤ ts.length := by
  induction h with
  | one => simp
  | cons _ _ ih =>
    intro us hus
    rw [List.length_append, List.length_cons]
    rcases List.mem_cons.1 hus with rfl | hus
    · omega
    · have := ih us hus
      omega

/-- Tokens before the first text belong to it. -/
theorem Joined.prepend (h : Joined s (us :: tss) ts) (before : List Token) :
    Joined s ((before ++ us) :: tss) (before ++ ts) := by
  cases h with
  | one => exact .one
  | cons ht h =>
    rw [← List.append_assoc]
    exact .cons ht h

theorem Row.single (h : Element ts l) : Row ts [l] := ⟨[ts], .cons h .nil, .one⟩

theorem Row.cons (h : Element ts l) (hc : c.symbol? = some .comma) (hr : Row us row) :
    Row (ts ++ c :: us) (l :: row) := by
  obtain ⟨elements, he, hj⟩ := hr
  exact ⟨ts :: elements, .cons h he, .cons hc hj⟩

theorem Derives.ne_nil (h : Derives l ts e) : ts ≠ [] := by
  induction h with
  | tighter _ _ ih => exact ih
  | _ => simp

/-- A name that would end the tokens is the name of a function that a parenthesis follows. -/
def CallStarts (ts rest : List Token) : Prop :=
  EndsInName ts ∧ Parser.headSymbol? rest = some .leftParen

theorem callStarts_append {us : List Token} (ts rest : List Token) (h : us ≠ []) :
    CallStarts (ts ++ us) rest ↔ CallStarts us rest := by
  unfold CallStarts EndsInName
  rw [List.getLast?_append_of_ne_nil _ h]

theorem callStarts_cons {us : List Token} (t : Token) (rest : List Token) (h : us ≠ []) :
    CallStarts (t :: us) rest ↔ CallStarts us rest :=
  callStarts_append [t] rest h

theorem not_callStarts_singleton {t : Token} (rest : List Token) (h : ∀ n, t.kind ≠ .ident n) :
    ¬ CallStarts [t] rest := by
  rintro ⟨⟨u, hu, n, hn⟩, -⟩
  cases hu
  exact h n hn

theorem ident_ne_of_symbol {t : Token} {s : Symbol} (h : t.symbol? = some s) (n : String) :
    t.kind ≠ .ident n := by
  intro hn
  simp [Token.symbol?, hn] at h

/-- Tokens that end in a symbol end in no name. -/
theorem not_callStarts_concat {t : Token} {s : Symbol} (ts rest : List Token)
    (h : t.symbol? = some s) : ¬ CallStarts (ts ++ [t]) rest := by
  rw [callStarts_append _ _ (List.cons_ne_nil _ _)]
  exact not_callStarts_singleton rest (ident_ne_of_symbol h)

end Grammar

namespace Parser

theorem headSymbol?_eq_some {ts : List Token} {s : Symbol} :
    headSymbol? ts = some s ↔ ∃ t rest, ts = t :: rest ∧ t.symbol? = some s := by
  cases ts with
  | nil => simp [headSymbol?]
  | cons t rest =>
    constructor
    · exact fun h => ⟨t, rest, rfl, h⟩
    · rintro ⟨_, _, h, h'⟩; cases h; exact h'

theorem after?_eq_some {s : Symbol} {ts rest : List Token} :
    after? s ts = some rest ↔ ∃ t, ts = t :: rest ∧ t.symbol? = some s := by
  unfold after?
  constructor
  · intro h
    split at h
    · rename_i hs
      obtain ⟨t, rest', rfl, ht⟩ := headSymbol?_eq_some.1 hs
      cases h
      exact ⟨t, rfl, ht⟩
    · cases h
  · rintro ⟨t, rfl, ht⟩
    exact if_pos ht

theorem close_eq_ok {ts rest : List Token} :
    close ts = .ok rest ↔ ∃ t, ts = t :: rest ∧ t.symbol? = some .rightParen := by
  rw [← after?_eq_some]
  unfold close
  cases after? .rightParen ts with
  | none => simp
  | some r => simp

/-- What the parser reads from the head of a list has a derivation at the level, and the tokens after
it make no call of a name at its end. -/
def Sound (p : Parser Expr) (l : Level) : Prop :=
  ∀ ⦃ts e rest⦄, p ts = .ok (e, rest) →
    ∃ used, ts = used ++ rest ∧ Derives l used e ∧ ¬ CallStarts used rest

theorem Sound.tighter (h : Sound p m) (hl : l.tighter? = some m) : Sound p l := by
  intro ts e rest hp
  obtain ⟨used, rfl, hd, hc⟩ := h hp
  exact ⟨used, rfl, .tighter hl hd, hc⟩

/-! ### Primaries -/

theorem unionParts_sound (h : Sound nested .comparison)
    (hp : unionParts nested n ts = .ok (es, rest)) :
    (es = [] ∧ rest = ts) ∨ ∃ comma, ∃ parts : List (List Token × Expr), ∃ used,
      ts = comma :: (used ++ rest) ∧ comma.symbol? = some .comma ∧
      Joined .comma (parts.map Prod.fst) used ∧ parts.map Prod.snd = es ∧ (∀ part ∈ parts, part.2.isReference = true) ∧
      ∀ part ∈ parts, Derives .comparison part.1 part.2 := by
  induction n generalizing ts es with
  | zero =>
    cases hp
    exact .inl ⟨rfl, rfl⟩
  | succ n ih =>
    unfold unionParts at hp
    cases ha : after? .comma ts with
    | none =>
      rw [ha] at hp
      cases hp
      exact .inl ⟨rfl, rfl⟩
    | some rest' =>
      obtain ⟨comma, rfl, hcomma⟩ := after?_eq_some.1 ha
      rw [ha] at hp
      obtain ⟨⟨e, rest₁⟩, he, hp⟩ := bind_eq_ok.1 hp
      obtain ⟨used, rfl, hd, -⟩ := h he
      cases hr : e.isReference with
      | false => simp [hr, throw, throwThe, MonadExceptOf.throw, bind, Except.bind] at hp
      | true =>
        simp only [hr, Bool.not_true, Bool.false_eq_true, ↓reduceIte] at hp
        obtain ⟨⟨es', rest₂⟩, hes, hp⟩ := bind_eq_ok.1 hp
        cases hp
        rcases ih hes with ⟨rfl, rfl⟩ | ⟨comma', parts, used', rfl, hcomma', hj, rfl, hrs, hds⟩
        · refine .inr ⟨comma, [(used, e)], used, rfl, hcomma, .one, rfl, ?_, ?_⟩
          · simpa using hr
          · simpa using hd
        · refine .inr ⟨comma, (used, e) :: parts, used ++ comma' :: used', ?_, hcomma,
            .cons hcomma' hj, rfl, ?_, ?_⟩
          · simp
          · simpa [hr] using hrs
          · simpa [hd] using hds

theorem parenthesized_sound (h : Sound nested .comparison)
    (hp : parenthesized nested ts = .ok (e, rest)) (ho : o.symbol? = some .leftParen) :
    ∃ used, o :: ts = used ++ rest ∧ Derives .primary used e ∧ ¬ CallStarts used rest := by
  unfold parenthesized at hp
  obtain ⟨⟨first, rest₁⟩, hfirst, hp₁⟩ := bind_eq_ok.1 hp
  obtain ⟨⟨es, rest₂⟩, hes, hp₂⟩ := bind_eq_ok.1 hp₁
  dsimp only at hes hp₂
  obtain ⟨used, rfl, hd, -⟩ := h hfirst
  rcases unionParts_sound h hes with ⟨rfl, rfl⟩ |
    ⟨comma, parts, used', rfl, hcomma, hj, rfl, hrs, hds⟩
  · obtain ⟨rest₃, hclose, hp₃⟩ := bind_eq_ok.1 hp₂
    cases hp₃
    obtain ⟨c, rfl, hc⟩ := close_eq_ok.1 hclose
    exact ⟨o :: (used ++ [c]), by simp, .parens ho hc hd, not_callStarts_concat (o :: used) _ hc⟩
  · have hne : (parts.map Prod.snd).isEmpty = false := by
      cases parts with
      | nil => cases hj
      | cons => rfl
    simp only [hne, Bool.false_eq_true, ↓reduceIte] at hp₂
    cases hr : first.isReference with
    | false => simp [hr, throw, throwThe, MonadExceptOf.throw] at hp₂
    | true =>
      simp only [hr, Bool.not_true, Bool.false_eq_true, ↓reduceIte] at hp₂
      obtain ⟨rest₃, hclose, hp₃⟩ := bind_eq_ok.1 hp₂
      cases hp₃
      obtain ⟨c, rfl, hc⟩ := close_eq_ok.1 hclose
      have hj' : Joined .comma (((used, first) :: parts).map Prod.fst)
          (used ++ comma :: used') := .cons hcomma hj
      refine ⟨o :: ((used ++ comma :: used') ++ [c]), by simp,
        .union ho hc ?_ hj' ?_ ?_, not_callStarts_concat (o :: (used ++ comma :: used')) _ hc⟩
      · cases parts with
        | nil => cases hj
        | cons => simp
      · simpa [hr] using hrs
      · simpa [hd] using hds

/-- A slot among the arguments of a call, which may be empty. -/
def slot (nested : Parser Expr) : Parser Expr := fun ts =>
  if headSymbol? ts = some .comma ∨ headSymbol? ts = some .rightParen then .ok (.omitted, ts)
  else nested ts

theorem arguments_succ (nested : Parser Expr) (n : Nat) (ts : List Token) :
    arguments nested (n + 1) ts = slot nested ts >>= fun (arg, rest) =>
      match after? .comma rest, after? .rightParen rest with
      | some rest, _ => arguments nested n rest >>= fun (args, rest) => .ok (arg :: args, rest)
      | none, some rest => .ok ([arg], rest)
      | none, none => unexpected rest := by
  rw [arguments, slot]
  by_cases hs : headSymbol? ts = some .comma ∨ headSymbol? ts = some .rightParen
  · simp only [hs, ↓reduceIte]
    rfl
  · simp only [hs, ↓reduceIte]
    rfl

/-- An empty slot and a given argument are read alike. -/
theorem slot_sound (h : Sound nested .comparison) (hp : slot nested ts = .ok (arg, rest)) :
    ∃ used, ts = used ++ rest ∧ (used = [] → arg = .omitted) ∧
      (used ≠ [] → Derives .comparison used arg) := by
  unfold slot at hp
  split at hp
  · cases hp
    exact ⟨[], rfl, fun _ => rfl, fun hne => absurd rfl hne⟩
  · obtain ⟨used, rfl, hd, -⟩ := h hp
    exact ⟨used, rfl, fun hnil => absurd hnil hd.ne_nil, fun _ => hd⟩

theorem arguments_sound (h : Sound nested .comparison)
    (hp : arguments nested n ts = .ok (args, rest)) :
    ∃ slots : List (List Token × Expr), ∃ used c, ts = used ++ c :: rest ∧
      c.symbol? = some .rightParen ∧ Joined .comma (slots.map Prod.fst) used ∧
      slots.map Prod.snd = args ∧ (∀ slot ∈ slots, slot.1 = [] → slot.2 = .omitted) ∧
      ∀ slot ∈ slots, slot.1 ≠ [] → Derives .comparison slot.1 slot.2 := by
  induction n generalizing ts args with
  | zero => cases hp
  | succ n ih =>
    rw [arguments_succ] at hp
    obtain ⟨⟨arg, rest₁⟩, harg, hp₁⟩ := bind_eq_ok.1 hp
    obtain ⟨used, rfl, homitted, hgiven⟩ := slot_sound h harg
    dsimp only at hp₁
    cases hcomma : after? .comma rest₁ with
    | some rest₂ =>
      obtain ⟨comma, rfl, hcomma'⟩ := after?_eq_some.1 hcomma
      rw [hcomma] at hp₁
      obtain ⟨⟨args', rest₃⟩, hargs, hp₂⟩ := bind_eq_ok.1 hp₁
      cases hp₂
      obtain ⟨slots, used', c, rfl, hc, hj, rfl, ho, hg⟩ := ih hargs
      refine ⟨(used, arg) :: slots, used ++ comma :: used', c, by simp, hc, .cons hcomma' hj,
        rfl, ?_, ?_⟩
      · simpa using ⟨homitted, fun a b hab => ho (a, b) hab⟩
      · simpa using ⟨hgiven, fun a b hab => hg (a, b) hab⟩
    | none =>
      rw [hcomma] at hp₁
      cases hclose : after? .rightParen rest₁ with
      | none =>
        rw [hclose] at hp₁
        cases hp₁
      | some rest₂ =>
        obtain ⟨c, rfl, hc⟩ := after?_eq_some.1 hclose
        rw [hclose] at hp₁
        cases hp₁
        refine ⟨[(used, arg)], used, c, rfl, hc, .one, rfl, ?_, ?_⟩
        · simpa using homitted
        · simpa using hgiven

theorem call_sound (h : Sound nested .comparison) (ht : t.kind = .ident n)
    (ho : o.symbol? = some .leftParen) (hp : call nested n ts = .ok (e, rest)) :
    ∃ used, t :: o :: ts = used ++ rest ∧ Derives .primary used e ∧ ¬ CallStarts used rest := by
  unfold call at hp
  dsimp only at hp
  cases hclose : after? .rightParen ts with
  | some rest₁ =>
    obtain ⟨c, rfl, hc⟩ := after?_eq_some.1 hclose
    rw [hclose] at hp
    cases hp
    exact ⟨[t, o, c], rfl, .callEmpty ht ho hc, not_callStarts_concat [t, o] _ hc⟩
  | none =>
    rw [hclose] at hp
    obtain ⟨⟨args, rest₁⟩, hargs, hp₁⟩ := bind_eq_ok.1 hp
    cases hp₁
    obtain ⟨slots, used, c, rfl, hc, hj, rfl, homitted, hgiven⟩ := arguments_sound h hargs
    have hne : used ≠ [] := by
      rintro rfl
      rw [List.nil_append, after?_eq_some.2 ⟨c, rfl, hc⟩] at hclose
      cases hclose
    exact ⟨t :: o :: (used ++ [c]), by simp, .call ht ho hc hne hj homitted hgiven,
      not_callStarts_concat (t :: o :: used) _ hc⟩

/-! ### Array constants -/

/-- The literal at the head, which a minus may stand before. -/
def literalAt (negative : Bool) : Parser Literal
  | [] => .error ⟨.notLiteral, []⟩
  | t :: rest =>
    match literal? negative t with
    | some l => .ok (l, rest)
    | none => .error ⟨.notLiteral, t :: rest⟩

theorem element_eq (ts : List Token) :
    element ts =
      if headSymbol? ts = some .minus then literalAt true ts.tail
      else if headSymbol? ts = some .plus then literalAt false ts.tail
      else literalAt false ts := by
  unfold element literalAt
  by_cases hminus : headSymbol? ts = some .minus
  · simp only [hminus, decide_true, true_or, ↓reduceIte]
    cases ts.tail <;> rfl
  · by_cases hplus : headSymbol? ts = some .plus
    · simp only [hplus, Option.some.injEq, reduceCtorEq, decide_false, or_true, ↓reduceIte]
      cases ts.tail <;> rfl
    · simp only [hminus, hplus, decide_false, or_self, ↓reduceIte]
      cases ts <;> rfl

theorem literalAt_eq_ok {negative : Bool} :
    literalAt negative ts = .ok (l, rest) ↔ ∃ t, ts = t :: rest ∧ literal? negative t = some l := by
  cases ts with
  | nil => simp [literalAt]
  | cons t us =>
    unfold literalAt
    cases hl : literal? negative t with
    | none => simp [hl]
    | some l' => simp [hl, and_comm]

theorem literal?_true_eq_some {t : Token} :
    literal? true t = some l ↔ ∃ x, t.kind = .number x ∧ l = .number (-x) := by
  unfold literal?
  cases t.kind <;> simp [eq_comm]

theorem literal?_false_eq_some {t : Token} : literal? false t = some l ↔ Element [t] l := by
  constructor
  · intro h
    unfold literal? at h
    split at h <;> cases h
    · exact .number ‹_›
    · exact .text ‹_›
    · exact .boolean ‹_›
    · exact .error ‹_›
  · intro h
    cases h <;> simp [literal?, *]

theorem element_sound (hp : element ts = .ok (l, rest)) :
    ∃ used, ts = used ++ rest ∧ Element used l := by
  rw [element_eq] at hp
  split at hp
  · rename_i hminus
    obtain ⟨s, us, rfl, hs⟩ := headSymbol?_eq_some.1 hminus
    obtain ⟨t, rfl, ht⟩ := literalAt_eq_ok.1 hp
    obtain ⟨x, hx, rfl⟩ := literal?_true_eq_some.1 ht
    exact ⟨[s, t], rfl, .minus hs hx⟩
  · split at hp
    · rename_i hplus
      obtain ⟨s, us, rfl, hs⟩ := headSymbol?_eq_some.1 hplus
      obtain ⟨t, rfl, ht⟩ := literalAt_eq_ok.1 hp
      exact ⟨[s, t], rfl, .plus hs (literal?_false_eq_some.1 ht)⟩
    · obtain ⟨t, rfl, ht⟩ := literalAt_eq_ok.1 hp
      exact ⟨[t], rfl, literal?_false_eq_some.1 ht⟩

theorem arrayRows_sound (hp : arrayRows n ts = .ok (rows, rest)) :
    ∃ texts used c, ts = used ++ c :: rest ∧ c.symbol? = some .rightBrace ∧
      List.Forall₂ Row texts rows ∧ Joined .semicolon texts used := by
  induction n generalizing ts rows with
  | zero => cases hp
  | succ n ih =>
    unfold arrayRows at hp
    obtain ⟨⟨l, rest₁⟩, hl, hp₁⟩ := bind_eq_ok.1 hp
    obtain ⟨used, rfl, he⟩ := element_sound hl
    dsimp only at hp₁
    split at hp₁
    · rename_i hcomma
      obtain ⟨comma, us, rfl, hc⟩ := headSymbol?_eq_some.1 hcomma
      obtain ⟨⟨rows', rest₂⟩, hrows, hp₂⟩ := bind_eq_ok.1 hp₁
      cases hp₂
      obtain ⟨texts, used', c, hus, hc', hr, hj⟩ := ih hrows
      cases hr with
      | nil => cases hj
      | @cons text row texts rows hrow hr =>
        refine ⟨(used ++ comma :: text) :: texts, used ++ comma :: used', c, ?_, hc',
          .cons (.cons he hc hrow) hr, ?_⟩
        · simp only [List.tail_cons] at hus
          simp [hus]
        · simpa using hj.prepend (used ++ [comma])
    · rename_i hsemicolon
      obtain ⟨semicolon, us, rfl, hs⟩ := headSymbol?_eq_some.1 hsemicolon
      obtain ⟨⟨rows', rest₂⟩, hrows, hp₂⟩ := bind_eq_ok.1 hp₁
      cases hp₂
      obtain ⟨texts, used', c, hus, hc', hr, hj⟩ := ih hrows
      refine ⟨used :: texts, used ++ semicolon :: used', c, ?_, hc', .cons (.single he) hr,
        .cons hs hj⟩
      simp only [List.tail_cons] at hus
      simp [hus]
    · rename_i hbrace
      obtain ⟨c, us, rfl, hc⟩ := headSymbol?_eq_some.1 hbrace
      cases hp₁
      exact ⟨[used], used, c, rfl, hc, .cons (.single he) .nil, .one⟩
    · cases hp₁

theorem equalRows_iff {rows : List (List α)} :
    equalRows rows = true ↔ ∀ row ∈ rows, ∀ row' ∈ rows, row.length = row'.length := by
  unfold equalRows
  rw [List.all_eq_true]
  constructor
  · intro h row hrow row' hrow'
    have h₁ := beq_iff_eq.1 (h row hrow)
    have h₂ := beq_iff_eq.1 (h row' hrow')
    rw [h₁, h₂]
  · intro h row hrow
    cases rows with
    | nil => cases hrow
    | cons first rows => exact beq_iff_eq.2 (h row hrow first (List.mem_cons_self ..))

theorem arrayConstant_sound (ho : o.symbol? = some .leftBrace)
    (hp : arrayConstant (o :: ts) = .ok (e, rest)) :
    ∃ used, o :: ts = used ++ rest ∧ Derives .primary used e ∧ ¬ CallStarts used rest := by
  unfold arrayConstant at hp
  obtain ⟨⟨rows, rest₁⟩, hrows, hp₁⟩ := bind_eq_ok.1 hp
  obtain ⟨texts, used, c, hts, hc, hr, hj⟩ := arrayRows_sound hrows
  rw [List.tail_cons] at hts
  subst hts
  dsimp only at hp₁
  split at hp₁
  · rename_i heq
    cases hp₁
    exact ⟨o :: (used ++ [c]), by simp, .array ho hc ⟨⟨texts, hr, hj⟩, equalRows_iff.1 heq⟩,
      not_callStarts_concat (o :: used) _ hc⟩
  · cases hp₁

theorem onSheet_sound (hs : s.kind = .sheet sheet) (hp : onSheet sheet ts = .ok (e, rest)) :
    ∃ used, s :: ts = used ++ rest ∧ Derives .primary used e ∧ ¬ CallStarts used rest := by
  cases ts with
  | nil => cases hp
  | cons t ts =>
    have hc (hi : ∀ n, t.kind ≠ .ident n) : ¬ CallStarts [s, t] rest := by
      rw [callStarts_cons _ _ (List.cons_ne_nil _ _)]
      exact not_callStarts_singleton rest hi
    unfold onSheet at hp
    dsimp only at hp
    split at hp <;> cases hp
    · rename_i a hk
      exact ⟨[s, t], rfl, .sheetCell hs hk, hc fun n hn => by simp [hn] at hk⟩
    · rename_i r hk
      exact ⟨[s, t], rfl, .sheetArea hs hk, hc fun n hn => by simp [hn] at hk⟩

theorem primary_sound (h : Sound nested .comparison) : Sound (primary nested) .primary := by
  intro ts e rest hp
  cases ts with
  | nil => cases hp
  | cons t ts =>
    have hsingle (hd : Derives .primary [t] e) (hi : ∀ n, t.kind ≠ .ident n) :
        ∃ used, t :: rest = used ++ rest ∧ Derives .primary used e ∧ ¬ CallStarts used rest :=
      ⟨[t], rfl, hd, not_callStarts_singleton rest hi⟩
    unfold primary at hp
    dsimp only at hp
    split at hp
    case h_1 x hk => cases hp; exact hsingle (.number hk) fun n hn => by simp [hn] at hk
    case h_2 s hk => cases hp; exact hsingle (.text hk) fun n hn => by simp [hn] at hk
    case h_3 b hk => cases hp; exact hsingle (.boolean hk) fun n hn => by simp [hn] at hk
    case h_4 err hk => cases hp; exact hsingle (.error hk) fun n hn => by simp [hn] at hk
    case h_5 a hk => cases hp; exact hsingle (.cell hk) fun n hn => by simp [hn] at hk
    case h_6 r hk => cases hp; exact hsingle (.area hk) fun n hn => by simp [hn] at hk
    case h_7 sheet hk => exact onSheet_sound hk hp
    case h_8 name hk =>
      cases ha : after? .leftParen ts with
      | some us =>
        obtain ⟨o, rfl, ho⟩ := after?_eq_some.1 ha
        rw [ha] at hp
        exact call_sound h hk ho hp
      | none =>
        rw [ha] at hp
        cases hp
        refine ⟨[t], rfl, .name hk, ?_⟩
        rintro ⟨-, hhead⟩
        obtain ⟨o, us, rfl, ho⟩ := headSymbol?_eq_some.1 hhead
        rw [after?_eq_some.2 ⟨o, rfl, ho⟩] at ha
        cases ha
    case h_9 hk => exact parenthesized_sound h hp (by simp [Token.symbol?, hk])
    case h_10 hk => exact arrayConstant_sound (by simp [Token.symbol?, hk]) hp
    case h_11 => cases hp

/-! ### Operators -/

theorem joinRange_eq_ok (hp : joinRange e f = .ok g) (ht : t.symbol? = some .colon)
    (he : Derives .range ts e) (hf : Derives .primary us f) : Derives .range (ts ++ t :: us) g := by
  unfold joinRange at hp
  split at hp
  · rename_i a b
    split at hp
    · cases hp
    · rename_i hs
      cases hp
      refine .cells ht ?_ he hf
      intro s hs₁ s' hs₂
      rw [Option.mem_def] at hs₁ hs₂
      simpa [sheetsDiffer, hs₁, hs₂] using hs
  · rename_i hcells
    split at hp
    · rename_i hr
      rw [Bool.and_eq_true] at hr
      cases hp
      exact .range ht hr.1 hr.2 (fun a b hab => hcells a b hab.1 hab.2) he hf
    · cases hp

theorem rangeChain_sound (h : Sound next .primary) (hd : Derives .range used e)
    (hc : ¬ CallStarts used ts) (hp : rangeChain next n e ts = .ok (f, rest)) :
    ∃ more, ts = more ++ rest ∧ Derives .range (used ++ more) f ∧
      ¬ CallStarts (used ++ more) rest := by
  induction n generalizing used e ts with
  | zero =>
    cases hp
    exact ⟨[], rfl, by simpa using hd, by simpa using hc⟩
  | succ n ih =>
    unfold rangeChain at hp
    cases ha : after? .colon ts with
    | none =>
      rw [ha] at hp
      cases hp
      exact ⟨[], rfl, by simpa using hd, by simpa using hc⟩
    | some us =>
      obtain ⟨t, rfl, ht⟩ := after?_eq_some.1 ha
      rw [ha] at hp
      obtain ⟨⟨g, rest₁⟩, hg, hp₁⟩ := bind_eq_ok.1 hp
      obtain ⟨used', rfl, hd', hc'⟩ := h hg
      dsimp only at hp₁
      split at hp₁
      · rename_i joined hjoin
        have hne : t :: used' ≠ [] := List.cons_ne_nil _ _
        have hc₁ : ¬ CallStarts (used ++ t :: used') rest₁ := by
          rwa [callStarts_append _ _ hne, callStarts_cons _ _ hd'.ne_nil]
        obtain ⟨more, rfl, hd₂, hc₂⟩ := ih (joinRange_eq_ok hjoin ht hd hd') hc₁ hp₁
        exact ⟨t :: (used' ++ more), by simp, by simpa using hd₂, by simpa using hc₂⟩
      · cases hp₁

theorem rangeLevel_sound (h : Sound next .primary) : Sound (rangeLevel next) .range := by
  intro ts e rest hp
  obtain ⟨⟨left, rest₁⟩, hleft, hp₁⟩ := bind_eq_ok.1 hp
  obtain ⟨used, rfl, hd, hc⟩ := h hleft
  obtain ⟨more, rfl, hd', hc'⟩ := rangeChain_sound h (.tighter rfl hd) hc hp₁
  exact ⟨used ++ more, by simp, hd', hc'⟩

theorem intersectChain_sound (h : Sound next .range) (hd : Derives .intersection used e)
    (hc : ¬ CallStarts used ts) (hp : intersectChain next n e ts = .ok (f, rest)) :
    ∃ more, ts = more ++ rest ∧ Derives .intersection (used ++ more) f ∧
      ¬ CallStarts (used ++ more) rest := by
  induction n generalizing used e ts with
  | zero =>
    cases hp
    exact ⟨[], rfl, by simpa using hd, by simpa using hc⟩
  | succ n ih =>
    unfold intersectChain at hp
    split at hp
    · rename_i hstart
      rw [Bool.and_eq_true] at hstart
      obtain ⟨hr, hhead⟩ := hstart
      cases ts with
      | nil => cases hhead
      | cons t ts =>
        simp only [List.head?_cons, Option.any_some, Bool.and_eq_true] at hhead
        obtain ⟨⟨g, rest₁⟩, hg, hp₁⟩ := bind_eq_ok.1 hp
        obtain ⟨used', hts, hd', hc'⟩ := h hg
        cases used' with
        | nil => exact absurd rfl hd'.ne_nil
        | cons u us =>
          cases hts
          have hc₁ : ¬ CallStarts (used ++ t :: us) rest₁ := by
            rwa [callStarts_append _ _ (List.cons_ne_nil _ _)]
          obtain ⟨more, rfl, hd₂, hc₂⟩ :=
            ih (.intersect hhead.1 hhead.2 hc hr hd hd') hc₁ hp₁
          exact ⟨t :: (us ++ more), by simp, by simpa using hd₂, by simpa using hc₂⟩
    · cases hp
      exact ⟨[], rfl, by simpa using hd, by simpa using hc⟩

theorem intersectLevel_sound (h : Sound next .range) :
    Sound (intersectLevel next) .intersection := by
  intro ts e rest hp
  obtain ⟨⟨left, rest₁⟩, hleft, hp₁⟩ := bind_eq_ok.1 hp
  obtain ⟨used, rfl, hd, hc⟩ := h hleft
  obtain ⟨more, rfl, hd', hc'⟩ := intersectChain_sound h (.tighter rfl hd) hc hp₁
  exact ⟨used ++ more, by simp, hd', hc'⟩

theorem percents_sound (hd : Derives .percent used e) (hc : ¬ CallStarts used ts) :
    ∃ more, ts = more ++ (percents e ts).2 ∧ Derives .percent (used ++ more) (percents e ts).1 ∧
      ¬ CallStarts (used ++ more) (percents e ts).2 := by
  induction ts generalizing used e with
  | nil => exact ⟨[], rfl, by simpa [percents] using hd, by simpa [percents] using hc⟩
  | cons t ts ih =>
    unfold percents
    split
    · rename_i ht
      obtain ⟨more, hts, hd', hc'⟩ := ih (.percent ht hd) (not_callStarts_concat used ts ht)
      exact ⟨t :: more, congrArg (t :: ·) hts, by simpa using hd', by simpa using hc'⟩
    · exact ⟨[], rfl, by simpa using hd, by simpa using hc⟩

theorem percentLevel_sound (h : Sound next .intersection) :
    Sound (percentLevel next) .percent := by
  intro ts e rest hp
  obtain ⟨⟨f, rest₁⟩, hf, he⟩ := map_eq_ok.1 hp
  obtain ⟨used, rfl, hd, hc⟩ := h hf
  obtain ⟨more, hts, hd', hc'⟩ := percents_sound (.tighter rfl hd) hc
  dsimp only at he
  rw [he] at hts hd' hc'
  exact ⟨used ++ more, by simp [hts], hd', hc'⟩

theorem signLevel_sound (h : Sound next .percent) : Sound (signLevel next) .sign := by
  intro ts
  induction ts with
  | nil => exact fun e rest hp => h.tighter rfl hp
  | cons t ts ih =>
    intro e rest hp
    unfold signLevel at hp
    split at hp
    · rename_i op hop
      obtain ⟨⟨f, rest₁⟩, hf, he⟩ := map_eq_ok.1 hp
      cases he
      obtain ⟨used, rfl, hd, hc⟩ := ih hf
      have hc' : ¬ CallStarts (t :: used) rest := by rwa [callStarts_cons _ _ hd.ne_nil]
      obtain ⟨s, hs, hop⟩ := Option.bind_eq_some_iff.1 hop
      refine ⟨t :: used, rfl, ?_, hc'⟩
      cases s <;> cases hop
      · exact .plus hs hd
      · exact .negate hs hd
    · exact h.tighter rfl hp

theorem powerChain_sound (h : Sound next .sign) : Sound (powerChain next n) .power := by
  induction n with
  | zero => exact h.tighter rfl
  | succ n ih =>
    intro ts e rest hp
    obtain ⟨⟨base, rest₁⟩, hbase, hp₁⟩ := bind_eq_ok.1 hp
    obtain ⟨used, rfl, hd, hc⟩ := h hbase
    dsimp only at hp₁
    cases ha : after? .caret rest₁ with
    | none =>
      rw [ha] at hp₁
      cases hp₁
      exact ⟨used, rfl, .tighter rfl hd, hc⟩
    | some us =>
      obtain ⟨t, rfl, ht⟩ := after?_eq_some.1 ha
      rw [ha] at hp₁
      obtain ⟨⟨exponent, rest₂⟩, hexp, hp₂⟩ := bind_eq_ok.1 hp₁
      cases hp₂
      obtain ⟨used', rfl, hd', hc'⟩ := ih hexp
      refine ⟨used ++ t :: used', by simp, .power ht hd hd', ?_⟩
      rwa [callStarts_append _ _ (List.cons_ne_nil _ _), callStarts_cons _ _ hd'.ne_nil]

theorem leftChain_sound (hl : l.tighter? = some m) (h : Sound next m) (hd : Derives l used e)
    (hc : ¬ CallStarts used ts) (hp : leftChain l.operator? next n e ts = .ok (f, rest)) :
    ∃ more, ts = more ++ rest ∧ Derives l (used ++ more) f ∧
      ¬ CallStarts (used ++ more) rest := by
  induction n generalizing used e ts with
  | zero =>
    cases hp
    exact ⟨[], rfl, by simpa using hd, by simpa using hc⟩
  | succ n ih =>
    unfold leftChain at hp
    split at hp
    · cases hp
      exact ⟨[], rfl, by simpa using hd, by simpa using hc⟩
    · rename_i op hop
      obtain ⟨s, hs, hs'⟩ := Option.bind_eq_some_iff.1 hop
      obtain ⟨t, us, rfl, ht⟩ := headSymbol?_eq_some.1 hs
      obtain ⟨⟨g, rest₁⟩, hg, hp₁⟩ := bind_eq_ok.1 hp
      obtain ⟨used', rfl, hd', hc'⟩ := h hg
      have hc₁ : ¬ CallStarts (used ++ t :: used') rest₁ := by
        rwa [callStarts_append _ _ (List.cons_ne_nil _ _), callStarts_cons _ _ hd'.ne_nil]
      have hop' : t.symbol?.bind l.operator? = some op := by rw [ht]; exact hs'
      obtain ⟨more, rfl, hd₂, hc₂⟩ := ih (.operator hl hop' hd hd') hc₁ hp₁
      exact ⟨t :: (used' ++ more), by simp, by simpa using hd₂, by simpa using hc₂⟩

theorem leftLevel_sound (hl : l.tighter? = some m) (h : Sound next m) :
    Sound (leftLevel l.operator? next) l := by
  intro ts e rest hp
  obtain ⟨⟨left, rest₁⟩, hleft, hp₁⟩ := bind_eq_ok.1 hp
  obtain ⟨used, rfl, hd, hc⟩ := h hleft
  obtain ⟨more, rfl, hd', hc'⟩ := leftChain_sound hl h (.tighter hl hd) hc hp₁
  exact ⟨used ++ more, by simp, hd', hc'⟩

theorem compareOp?_eq : compareOp? = Level.comparison.operator? := by
  funext s
  cases s <;> rfl

theorem concatOp?_eq : concatOp? = Level.concatenation.operator? := by
  funext s
  cases s <;> rfl

theorem addOp?_eq : addOp? = Level.sum.operator? := by
  funext s
  cases s <;> rfl

theorem multiplyOp?_eq : multiplyOp? = Level.product.operator? := by
  funext s
  cases s <;> rfl

theorem levels_sound (h : Sound nested .comparison) : Sound (levels nested) .comparison := by
  unfold levels
  rw [compareOp?_eq, concatOp?_eq, addOp?_eq, multiplyOp?_eq]
  have hpercent := percentLevel_sound <| intersectLevel_sound <| rangeLevel_sound <|
    primary_sound h
  have hpower : Sound (powerLevel _) .power := fun ts _ _ hp =>
    powerChain_sound (n := ts.length) (signLevel_sound hpercent) hp
  exact leftLevel_sound rfl <| leftLevel_sound rfl <| leftLevel_sound rfl <| leftLevel_sound rfl
    hpower

/-- Whatever the depth allowed, an expression that is read has a derivation. -/
theorem expression_sound (depth : Nat) : Sound (expression depth) .comparison := by
  induction depth with
  | zero => intro ts e rest hp; cases hp
  | succ depth ih => exact levels_sound ih

theorem derives_of_formula_eq_ok (h : formula ts = .ok e) : Derives .comparison ts e := by
  obtain ⟨⟨f, rest⟩, hf, h₁⟩ := bind_eq_ok.1 h
  obtain ⟨used, rfl, hd, -⟩ := expression_sound _ hf
  cases rest with
  | nil =>
    cases h₁
    simpa using hd
  | cons t rest => cases h₁

end Parser

end Spreadsheet
