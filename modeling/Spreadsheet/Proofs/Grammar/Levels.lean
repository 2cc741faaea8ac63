import Spreadsheet.Proofs.Grammar.Soundness

/-!
The parsers of the levels on phrases of known shape: when they stop, what a list of slots, parts or
rows is read as, and how a level resumes after an operand.
-/

namespace Spreadsheet

open Grammar Spreadsheet.Parser

namespace Level

def rank : Level → Nat
  | comparison => 0
  | concatenation => 1
  | sum => 2
  | product => 3
  | power => 4
  | sign => 5
  | percent => 6
  | intersection => 7
  | range => 8
  | primary => 9

/-- A symbol goes on with an operand of the level. -/
def goesOnAt : Level → Symbol → Bool
  | power, .caret | percent, .percent | range, .colon => true
  | l, s => (l.operator? s).isSome

/-- A token goes on with an operand of the level. -/
def goesOnWith (l : Level) (t : Token) : Bool :=
  t.symbol?.any l.goesOnAt || (l == intersection && (t.spaceBefore && startsReference t))

/-- The parser of a level. -/
def parser (nested : Parser Expr) (l : Level) : Parser Expr :=
  let range := rangeLevel (Parser.primary nested)
  let intersection := intersectLevel range
  let percent := percentLevel intersection
  let sign := signLevel percent
  let power := powerLevel sign
  let product := leftLevel Level.product.operator? power
  let sum := leftLevel Level.sum.operator? product
  let concatenation := leftLevel Level.concatenation.operator? sum
  match l with
  | .comparison => leftLevel Level.comparison.operator? concatenation
  | .concatenation => concatenation
  | .sum => sum
  | .product => product
  | .power => power
  | .sign => sign
  | .percent => percent
  | .intersection => intersection
  | .range => range
  | .primary => Parser.primary nested

/-- What the parser of a level does after it has read an operand, with some fuel. -/
def resume (nested : Parser Expr) (l : Level) (n : Nat) (e : Expr) : Parser Expr :=
  match l with
  | .comparison => leftChain Level.comparison.operator? (parser nested .concatenation) n e
  | .concatenation => leftChain Level.concatenation.operator? (parser nested .sum) n e
  | .sum => leftChain Level.sum.operator? (parser nested .product) n e
  | .product => leftChain Level.product.operator? (parser nested .power) n e
  | .percent => fun ts => .ok (percents e ts)
  | .intersection => intersectChain (parser nested .range) n e
  | .range => rangeChain (parser nested .primary) n e
  | .power | .sign | .primary => fun ts => .ok (e, ts)

/-- The loosest level whose operators must not follow for the parser to resume with what it has. -/
def inner : Level → Level
  | comparison => concatenation
  | concatenation => sum
  | sum => product
  | product => power
  | power => power
  | sign => sign
  | percent => intersection
  | intersection => range
  | range => primary
  | primary => primary

end Level

theorem levels_eq (nested : Parser Expr) :
    levels nested = Level.parser nested .comparison := by
  unfold levels
  rw [compareOp?_eq, concatOp?_eq, addOp?_eq, multiplyOp?_eq]
  rfl

namespace Grammar

/-- No token at the head goes on with an operand of the level or of a tighter one. -/
def Stops (l : Level) (rest : List Token) : Prop :=
  ∀ t ∈ rest.head?, ∀ m : Level, l.rank ≤ m.rank → m.goesOnWith t = false

theorem Stops.mono (h : Stops l rest) (hm : l.rank ≤ m.rank) : Stops m rest :=
  fun t ht k hk => h t ht k (Nat.le_trans hm hk)

theorem Stops.nil (l : Level) : Stops l [] := by
  intro t ht
  cases ht

theorem goesOnWith_symbol {t : Token} {s : Symbol} (ht : t.symbol? = some s)
    (hs : s ≠ .leftParen) (l : Level) : l.goesOnWith t = l.goesOnAt s := by
  have hstart : startsReference t = false := by
    have hk : t.kind = .symbol s := by
      unfold Token.symbol? at ht
      split at ht <;> simp_all
    unfold startsReference
    rw [hk]
    cases s <;> first | rfl | exact absurd rfl hs
  simp [Level.goesOnWith, ht, hstart]

/-- A symbol that goes on with nothing from the level on stops it. -/
theorem Stops.symbol {t : Token} {s : Symbol} (ht : t.symbol? = some s) (hs : s ≠ .leftParen)
    (h : ∀ m : Level, l.rank ≤ m.rank → m.goesOnAt s = false) : Stops l (t :: rest) := by
  intro u hu m hm
  cases hu
  rw [goesOnWith_symbol ht hs]
  exact h m hm

theorem Stops.of_operator {l m : Level} {t : Token} (hl : l.tighter? = some m)
    (ht : t.symbol?.bind l.operator? = some op) : Stops m (t :: rest) := by
  obtain ⟨s, hs, hop⟩ := Option.bind_eq_some_iff.1 ht
  refine .symbol hs ?_ fun k hk => ?_
  · rintro rfl
    cases l <;> cases hop
  · cases l <;> cases hl <;> cases s <;> cases hop <;> cases k <;>
      first | rfl | exact absurd hk (by decide)

theorem Stops.comma {t : Token} (ht : t.symbol? = some .comma) (l : Level) :
    Stops l (t :: rest) :=
  .symbol ht (by decide) fun m _ => by cases m <;> rfl

theorem Stops.rightParen {t : Token} (ht : t.symbol? = some .rightParen) (l : Level) :
    Stops l (t :: rest) :=
  .symbol ht (by decide) fun m _ => by cases m <;> rfl

/-- The symbols that an expression of a level may start with. -/
def StartsWith (l : Level) : Symbol → Prop
  | .leftParen | .leftBrace => True
  | .plus | .minus => l.rank ≤ Level.sign.rank
  | _ => False

/-- The tokens start with such a symbol or with a token that is no symbol. -/
def Starts (l : Level) (ts : List Token) : Prop :=
  ∃ t us, ts = t :: us ∧ ∀ s, t.symbol? = some s → StartsWith l s

theorem Starts.tighter {l m : Level} (hl : l.tighter? = some m) (h : Starts m ts) :
    Starts l ts := by
  obtain ⟨t, us, rfl, ht⟩ := h
  have hrank : m.rank = l.rank + 1 := by cases l <;> cases hl <;> rfl
  refine ⟨t, us, rfl, fun s hs => ?_⟩
  have h := ht s hs
  cases s <;> first | trivial | exact h | exact Nat.le_trans (by omega) h

theorem Starts.append (h : Starts l ts) (us : List Token) : Starts l (ts ++ us) := by
  obtain ⟨t, ts, rfl, ht⟩ := h
  exact ⟨t, ts ++ us, rfl, ht⟩

theorem Starts.of_symbol {t : Token} (ht : t.symbol? = some s) (hs : StartsWith l s) :
    Starts l (t :: us) := by
  refine ⟨t, us, rfl, fun s' hs' => ?_⟩
  rw [ht] at hs'
  cases hs'
  exact hs

theorem Starts.of_kind {t : Token} (h : ∀ s, t.kind ≠ .symbol s) : Starts l (t :: us) := by
  refine ⟨t, us, rfl, fun s hs => ?_⟩
  unfold Token.symbol? at hs
  split at hs
  · exact absurd ‹_› (h _)
  · cases hs

theorem Derives.starts (h : Derives l ts e) : Starts l ts := by
  induction h with
  | tighter hl _ ih => exact ih.tighter hl
  | operator _ _ _ _ ih _ => exact ih.append _
  | power _ _ _ ih _ => exact (ih.tighter (l := .power) rfl).append _
  | plus ht _ _ => exact .of_symbol ht (Nat.le_refl _)
  | negate ht _ _ => exact .of_symbol ht (Nat.le_refl _)
  | percent _ _ ih => exact ih.append _
  | intersect _ _ _ _ _ _ ih _ => exact ih.append _
  | cells _ _ _ _ ih _ => exact ih.append _
  | range _ _ _ _ _ _ ih _ => exact ih.append _
  | number ht => exact .of_kind (by simp [ht])
  | text ht => exact .of_kind (by simp [ht])
  | boolean ht => exact .of_kind (by simp [ht])
  | error ht => exact .of_kind (by simp [ht])
  | cell ht => exact .of_kind (by simp [ht])
  | area ht => exact .of_kind (by simp [ht])
  | sheetCell hs _ => exact .of_kind (by simp [hs])
  | sheetArea hs _ => exact .of_kind (by simp [hs])
  | name ht => exact .of_kind (by simp [ht])
  | callEmpty ht _ _ => exact .of_kind (by simp [ht])
  | call ht => exact .of_kind (by simp [ht])
  | parens ho _ _ _ => exact .of_symbol ho trivial
  | union ho => exact .of_symbol ho trivial
  | array ho _ _ => exact .of_symbol ho trivial

/-- An expression does not start with a token that ends a slot. -/
theorem Derives.head_ne (h : Derives l ts e) (hs : ¬ StartsWith l s) (rest : List Token) :
    headSymbol? (ts ++ rest) ≠ some s := by
  obtain ⟨t, us, rfl, ht⟩ := h.starts
  exact fun hh => hs (ht s hh)

end Grammar

namespace Parser

/-! ### Primaries -/

/-- The parser reads the tokens as the expression where a comma or a closing parenthesis follows. -/
def Reads (nested : Parser Expr) (ts : List Token) (e : Expr) : Prop :=
  ∀ t rest, t.symbol? = some .comma ∨ t.symbol? = some .rightParen →
    nested (ts ++ t :: rest) = .ok (e, t :: rest)

theorem after?_eq_none {s s' : Symbol} {t : Token} (ht : t.symbol? = some s) (hs : s ≠ s') :
    after? s' (t :: rest) = none := by
  refine if_neg fun h => hs ?_
  have h' : t.symbol? = some s' := h
  rw [ht] at h'
  exact Option.some.inj h'

theorem unionParts_stop (nested : Parser Expr) (n : Nat) {c : Token}
    (hc : c.symbol? = some .rightParen) :
    unionParts nested n (c :: rest) = .ok ([], c :: rest) := by
  cases n with
  | zero => rfl
  | succ n =>
    unfold unionParts
    rw [after?_eq_none hc (by decide)]

theorem unionParts_eq_ok {parts : List (List Token × Expr)} {t c : Token}
    (hj : Joined .comma (parts.map Prod.fst) ts) (hn : ts.length < n)
    (hread : ∀ part ∈ parts, Reads nested part.1 part.2)
    (hr : ∀ part ∈ parts, part.2.isReference = true)
    (ht : t.symbol? = some .comma) (hc : c.symbol? = some .rightParen) :
    unionParts nested n (t :: (ts ++ c :: rest)) = .ok (parts.map Prod.snd, c :: rest) := by
  generalize htss : parts.map Prod.fst = tss at hj
  induction hj generalizing parts n t with
  | @one us =>
    obtain ⟨⟨_, e⟩, rfl, rfl⟩ := List.map_eq_singleton_iff.1 htss
    cases n with
    | zero => cases hn
    | succ n =>
      have hreads := hread _ (List.mem_singleton_self _)
      unfold unionParts
      rw [after?_eq_some.2 ⟨t, rfl, ht⟩]
      dsimp only
      rw [hreads c rest (.inr hc)]
      simp only [bind, Except.bind, hr _ (List.mem_singleton_self _), Bool.not_true,
        Bool.false_eq_true, ↓reduceIte, unionParts_stop nested n hc]
      rfl
  | @cons t' ts us tss ht' hj ih =>
    obtain ⟨⟨_, e⟩, parts, rfl, rfl, rfl⟩ := List.map_eq_cons_iff.1 htss
    cases n with
    | zero => cases hn
    | succ n =>
      have hreads := hread _ (List.mem_cons_self ..)
      have hlen : us.length < n := by
        simp only [List.length_append, List.length_cons] at hn
        omega
      unfold unionParts
      rw [after?_eq_some.2 ⟨t, rfl, ht⟩]
      dsimp only
      rw [List.append_assoc, List.cons_append, hreads t' _ (.inl ht')]
      simp only [bind, Except.bind, hr _ (List.mem_cons_self ..), Bool.not_true,
        Bool.false_eq_true, ↓reduceIte,
        ih hlen (fun p hp => hread p (List.mem_cons_of_mem _ hp))
          (fun p hp => hr p (List.mem_cons_of_mem _ hp)) ht' rfl]
      rfl

theorem slot_eq_ok {t : Token} {arg : Expr} (homitted : ts = [] → arg = .omitted)
    (hgiven : ts ≠ [] → Derives .comparison ts arg) (hread : ts ≠ [] → Reads nested ts arg)
    (ht : t.symbol? = some .comma ∨ t.symbol? = some .rightParen) :
    slot nested (ts ++ t :: rest) = .ok (arg, t :: rest) := by
  unfold slot
  by_cases hts : ts = []
  · subst hts
    rw [homitted rfl]
    exact if_pos ht
  · have hd := hgiven hts
    have hends : ¬ (headSymbol? (ts ++ t :: rest) = some .comma ∨
        headSymbol? (ts ++ t :: rest) = some .rightParen) := by
      rintro (h | h)
      · exact hd.head_ne id _ h
      · exact hd.head_ne id _ h
    rw [if_neg hends]
    exact hread hts t rest ht

theorem arguments_eq_ok {slots : List (List Token × Expr)} {c : Token}
    (hj : Joined .comma (slots.map Prod.fst) ts) (hn : ts.length < n)
    (homitted : ∀ s ∈ slots, s.1 = [] → s.2 = .omitted)
    (hgiven : ∀ s ∈ slots, s.1 ≠ [] → Derives .comparison s.1 s.2)
    (hread : ∀ s ∈ slots, s.1 ≠ [] → Reads nested s.1 s.2)
    (hc : c.symbol? = some .rightParen) :
    arguments nested n (ts ++ c :: rest) = .ok (slots.map Prod.snd, rest) := by
  generalize htss : slots.map Prod.fst = tss at hj
  induction hj generalizing slots n with
  | @one ts =>
    obtain ⟨⟨_, e⟩, rfl, rfl⟩ := List.map_eq_singleton_iff.1 htss
    have hmem := List.mem_singleton_self (α := List Token × Expr)
    cases n with
    | zero => cases hn
    | succ n =>
      rw [arguments_succ, slot_eq_ok (homitted _ (hmem _)) (hgiven _ (hmem _))
        (hread _ (hmem _)) (.inr hc)]
      simp only [bind, Except.bind, after?_eq_none hc (by decide : Symbol.rightParen ≠ .comma),
        after?_eq_some.2 ⟨c, rfl, hc⟩]
      rfl
  | @cons t ts us tss ht hj ih =>
    obtain ⟨⟨_, e⟩, slots, rfl, rfl, rfl⟩ := List.map_eq_cons_iff.1 htss
    cases n with
    | zero => cases hn
    | succ n =>
      have hlen : us.length < n := by
        simp only [List.length_append, List.length_cons] at hn
        omega
      have htail := ih hlen (fun s hs => homitted s (List.mem_cons_of_mem _ hs))
        (fun s hs => hgiven s (List.mem_cons_of_mem _ hs))
        (fun s hs => hread s (List.mem_cons_of_mem _ hs)) rfl
      rw [List.append_assoc, List.cons_append, arguments_succ,
        slot_eq_ok (homitted _ (List.mem_cons_self ..)) (hgiven _ (List.mem_cons_self ..))
          (hread _ (List.mem_cons_self ..)) (.inl ht)]
      simp only [bind, Except.bind, after?_eq_some.2 ⟨t, rfl, ht⟩, htail]
      rfl

/-! ### Array constants -/

theorem element_eq_ok (h : Element ts l) (rest : List Token) :
    element (ts ++ rest) = .ok (l, rest) := by
  have hkind {t : Token} (hs : ∀ s, t.kind ≠ .symbol s) (s : Symbol) :
      headSymbol? (t :: rest) ≠ some s := by
    intro h
    have h' : t.symbol? = some s := h
    unfold Token.symbol? at h'
    split at h'
    · exact hs _ ‹_›
    · cases h'
  have hplain {t : Token} (hs : ∀ s, t.kind ≠ .symbol s) (he : Element [t] l) :
      element (t :: rest) = .ok (l, rest) := by
    rw [element_eq, if_neg (hkind hs _), if_neg (hkind hs _)]
    exact literalAt_eq_ok.2 ⟨t, rfl, literal?_false_eq_some.2 he⟩
  cases h with
  | number ht => exact hplain (by simp [ht]) (.number ht)
  | text ht => exact hplain (by simp [ht]) (.text ht)
  | boolean ht => exact hplain (by simp [ht]) (.boolean ht)
  | error ht => exact hplain (by simp [ht]) (.error ht)
  | @plus _ s t hs he =>
    have hhead : headSymbol? (s :: t :: rest) = some .plus := hs
    have hne : headSymbol? (s :: t :: rest) ≠ some .minus := by simp [hhead]
    rw [List.cons_append, List.cons_append, List.nil_append, element_eq, if_neg hne, if_pos hhead]
    exact literalAt_eq_ok.2 ⟨t, rfl, literal?_false_eq_some.2 he⟩
  | @minus x s t hs ht =>
    have hhead : headSymbol? (s :: t :: rest) = some .minus := hs
    rw [List.cons_append, List.cons_append, List.nil_append, element_eq, if_pos hhead]
    exact literalAt_eq_ok.2 ⟨t, rfl, literal?_true_eq_some.2 ⟨x, ht, rfl⟩⟩

/-- The rows of an array constant element by element, in the order in which they are read. -/
inductive RowsRead : List Token → List (List Literal) → List Token → Prop
  | last (h : Element ts l) (hc : c.symbol? = some .rightBrace) :
      RowsRead (ts ++ c :: rest) [[l]] rest
  | comma (h : Element ts l) (ht : t.symbol? = some .comma) (hr : RowsRead us rows rest) :
      RowsRead (ts ++ t :: us) (consElement l rows) rest
  | semicolon (h : Element ts l) (ht : t.symbol? = some .semicolon)
      (hr : RowsRead us rows rest) : RowsRead (ts ++ t :: us) ([l] :: rows) rest

theorem arrayRows_eq_ok (h : RowsRead ts rows rest) (hn : ts.length ≤ n) :
    arrayRows n ts = .ok (rows, rest) := by
  have hfuel {k : Nat} {ts us : List Token} {t : Token} (h : (ts ++ t :: us).length ≤ k) :
      ∃ k', k = k' + 1 ∧ us.length ≤ k' := by
    simp only [List.length_append, List.length_cons] at h
    exact ⟨k - 1, by omega, by omega⟩
  induction h generalizing n with
  | last h hc =>
    obtain ⟨k, rfl, -⟩ := hfuel hn
    unfold arrayRows
    simp only [element_eq_ok h, bind, Except.bind, headSymbol?, List.head?_cons, Option.bind_some,
      hc]
    rfl
  | comma h ht hr ih =>
    obtain ⟨k, rfl, hk⟩ := hfuel hn
    unfold arrayRows
    simp only [element_eq_ok h, bind, Except.bind, headSymbol?, List.head?_cons, Option.bind_some,
      ht, List.tail_cons, ih hk]
    rfl
  | semicolon h ht hr ih =>
    obtain ⟨k, rfl, hk⟩ := hfuel hn
    unfold arrayRows
    simp only [element_eq_ok h, bind, Except.bind, headSymbol?, List.head?_cons, Option.bind_some,
      ht, List.tail_cons, ih hk]
    rfl

/-- A row is read if its last element can be. -/
theorem RowsRead.of_row (h : Row ts row)
    (hlast : ∀ {us l}, Element us l → RowsRead (us ++ more) ([l] :: rows) rest) :
    RowsRead (ts ++ more) (row :: rows) rest := by
  obtain ⟨elements, he, hj⟩ := h
  induction hj generalizing row with
  | one =>
    obtain ⟨l, _, hl, hnil, rfl⟩ := List.forall₂_cons_left_iff.1 he
    cases hnil
    exact hlast hl
  | cons ht hj ih =>
    obtain ⟨l, row, hl, hrow, rfl⟩ := List.forall₂_cons_left_iff.1 he
    rw [List.append_assoc, List.cons_append]
    exact .comma hl ht (ih hrow)

theorem RowsRead.of_rows {c : Token} (hr : List.Forall₂ Row texts rows)
    (hj : Joined .semicolon texts ts) (hc : c.symbol? = some .rightBrace) :
    RowsRead (ts ++ c :: rest) rows rest := by
  induction hj generalizing rows with
  | one =>
    obtain ⟨row, _, hrow, hnil, rfl⟩ := List.forall₂_cons_left_iff.1 hr
    cases hnil
    exact .of_row hrow fun h => .last h hc
  | cons ht hj ih =>
    obtain ⟨row, rows, hrow, hrows, rfl⟩ := List.forall₂_cons_left_iff.1 hr
    rw [List.append_assoc, List.cons_append]
    exact .of_row hrow fun h => .semicolon h ht (ih hrows)

theorem arrayConstant_eq_ok {o c : Token} (h : Rows ts rows)
    (hc : c.symbol? = some .rightBrace) :
    arrayConstant (o :: (ts ++ c :: rest)) = .ok (.array rows, rest) := by
  obtain ⟨⟨texts, hr, hj⟩, heq⟩ := h
  have hread := arrayRows_eq_ok (.of_rows hr hj hc) (Nat.le_succ (ts ++ c :: rest).length)
  unfold arrayConstant
  simp only [List.tail_cons, List.length_cons, hread, bind, Except.bind, equalRows_iff.2 heq,
    ↓reduceIte]
  rfl

/-! ### Operators -/

theorem after?_of_stops {l : Level} {s : Symbol} (h : Stops l rest)
    (hs : ∃ m : Level, l.rank ≤ m.rank ∧ m.goesOnAt s = true) : after? s rest = none := by
  obtain ⟨m, hm, hgo⟩ := hs
  cases ha : after? s rest with
  | none => rfl
  | some us =>
    obtain ⟨t, rfl, ht⟩ := after?_eq_some.1 ha
    have hstop := h t rfl m hm
    simp [Level.goesOnWith, ht, hgo] at hstop

theorem leftChain_of_stops {l : Level} (h : Stops l rest) (next : Parser Expr) (n : Nat)
    (e : Expr) : leftChain l.operator? next n e rest = .ok (e, rest) := by
  cases n with
  | zero => rfl
  | succ n =>
    have hnone : (headSymbol? rest).bind l.operator? = none := by
      cases hhead : headSymbol? rest with
      | none => rfl
      | some s =>
        obtain ⟨t, us, rfl, ht⟩ := headSymbol?_eq_some.1 hhead
        have hstop := h t rfl l (Nat.le_refl _)
        cases hop : l.operator? s with
        | none => exact hop
        | some op =>
          have hgo : l.goesOnAt s = true := by
            unfold Level.goesOnAt
            split <;> simp [hop]
          simp [Level.goesOnWith, ht, hgo] at hstop
    unfold leftChain
    rw [hnone]

theorem intersectChain_of_stops (h : Stops .intersection rest) (next : Parser Expr) (n : Nat)
    (e : Expr) : intersectChain next n e rest = .ok (e, rest) := by
  cases n with
  | zero => rfl
  | succ n =>
    unfold intersectChain
    refine if_neg fun hgo => ?_
    rw [Bool.and_eq_true] at hgo
    cases rest with
    | nil => cases hgo.2
    | cons t rest =>
      have hstop := h t rfl .intersection (Nat.le_refl _)
      have hgo' : (t.spaceBefore && startsReference t) = true := hgo.2
      simp [Level.goesOnWith, hgo'] at hstop

theorem rangeChain_of_stops (h : Stops .range rest) (next : Parser Expr) (n : Nat) (e : Expr) :
    rangeChain next n e rest = .ok (e, rest) := by
  cases n with
  | zero => rfl
  | succ n =>
    unfold rangeChain
    rw [after?_of_stops h ⟨.range, Nat.le_refl _, rfl⟩]

theorem percents_of_stops (h : Stops .percent rest) (e : Expr) : percents e rest = (e, rest) := by
  cases rest with
  | nil => rfl
  | cons t rest =>
    unfold percents
    refine if_neg fun ht => ?_
    have hstop := h t rfl .percent (Nat.le_refl _)
    simp [Level.goesOnWith, ht, Level.goesOnAt] at hstop

theorem resume_of_stops {l : Level} (h : Stops l rest) (nested : Parser Expr) (n : Nat)
    (e : Expr) : l.resume nested n e rest = .ok (e, rest) := by
  cases l with
  | comparison => exact leftChain_of_stops h _ n e
  | concatenation => exact leftChain_of_stops h _ n e
  | sum => exact leftChain_of_stops h _ n e
  | product => exact leftChain_of_stops h _ n e
  | power => rfl
  | sign => rfl
  | percent => exact congrArg Except.ok (percents_of_stops h e)
  | intersection => exact intersectChain_of_stops h _ n e
  | range => exact rangeChain_of_stops h _ n e
  | primary => rfl

/-- More fuel gives the same power, if no exponent is left to read. -/
theorem powerChain_mono (h : powerChain next n ts = .ok (e, rest))
    (hrest : after? .caret rest = none) (hn : n ≤ k) : powerChain next k ts = .ok (e, rest) := by
  induction n generalizing k ts e with
  | zero =>
    cases k with
    | zero => exact h
    | succ k =>
      have hnext : next ts = .ok (e, rest) := h
      unfold powerChain
      simp only [hnext, bind, Except.bind, hrest]
      rfl
  | succ n ih =>
    cases k with
    | zero => cases hn
    | succ k =>
      unfold powerChain at h ⊢
      obtain ⟨⟨base, rest₁⟩, hbase, h₁⟩ := bind_eq_ok.1 h
      simp only [hbase, bind, Except.bind]
      dsimp only at h₁
      cases ha : after? .caret rest₁ with
      | none => rw [ha] at h₁; exact h₁
      | some us =>
        rw [ha] at h₁
        obtain ⟨⟨exponent, rest₂⟩, hexp, h₂⟩ := bind_eq_ok.1 h₁
        cases h₂
        simp only [ih hexp (Nat.le_of_succ_le_succ hn)]
        rfl

/-- A level reads what the next tighter one does, and may resume from there. -/
theorem parser_of_tighter {l m : Level} (hl : l.tighter? = some m)
    (h : m.parser nested (ts ++ rest) = .ok (e, rest)) (hstarts : Starts m ts)
    (hs : Stops l.inner rest) :
    ∃ n, rest.length ≤ n ∧ l.parser nested (ts ++ rest) = l.resume nested n e rest := by
  refine ⟨rest.length, Nat.le_refl _, ?_⟩
  have hbind (p : Expr × List Token → Except Fault (Expr × List Token)) :
      (m.parser nested (ts ++ rest) >>= p) = p (e, rest) := by
    rw [h]
    rfl
  cases l <;> cases hl
  case comparison => exact hbind _
  case concatenation => exact hbind _
  case sum => exact hbind _
  case product => exact hbind _
  case power =>
    exact powerChain_mono (n := 0) h (after?_of_stops hs ⟨.power, Nat.le_refl _, rfl⟩)
      (Nat.zero_le _)
  case sign =>
    obtain ⟨t, us, rfl, ht⟩ := hstarts
    have hsign : t.symbol?.bind signOp? = none := by
      cases hsym : t.symbol? with
      | none => rfl
      | some s =>
        have hs := ht s hsym
        cases s <;> first | rfl | exact hs.elim | exact absurd hs (by unfold StartsWith; decide)
    show signLevel _ (t :: (us ++ rest)) = _
    unfold signLevel
    rw [hsign]
    exact h
  case percent => exact map_eq_ok.2 ⟨(e, rest), h, rfl⟩
  case intersection => exact hbind _
  case range => exact hbind _

theorem resume_operator {l m : Level} {t : Token} (hl : l.tighter? = some m)
    (ht : t.symbol?.bind l.operator? = some op) (h : m.parser nested us = .ok (f, rest)) :
    l.resume nested (n + 1) e (t :: us) = l.resume nested n (.binary (.value op) e f) rest := by
  have hstep (next : Parser Expr) (hnext : next us = .ok (f, rest)) :
      leftChain l.operator? next (n + 1) e (t :: us) =
        leftChain l.operator? next n (.binary (.value op) e f) rest := by
    have hop : (headSymbol? (t :: us)).bind l.operator? = some op := ht
    rw [leftChain]
    simp only [hop, List.tail_cons, hnext]
    rfl
  obtain ⟨s, -, hop⟩ := Option.bind_eq_some_iff.1 ht
  cases l <;> cases hl
  case comparison => exact hstep _ h
  case concatenation => exact hstep _ h
  case sum => exact hstep _ h
  case product => exact hstep _ h
  all_goals cases hop

theorem resume_intersect {u : Token} (hr : e.isReference = true) (hu : u.spaceBefore = true)
    (hs : startsReference u = true)
    (h : Level.range.parser nested (u :: us) = .ok (f, rest)) :
    Level.intersection.resume nested (n + 1) e (u :: us) =
      Level.intersection.resume nested n (.binary (.reference .intersect) e f) rest := by
  have hgo : (e.isReference &&
      (u :: us).head?.any (fun t => t.spaceBefore && startsReference t)) = true := by
    simp [hr, hu, hs]
  show intersectChain _ (n + 1) e (u :: us) = intersectChain _ n _ rest
  rw [intersectChain, if_pos hgo, h]
  rfl

theorem resume_colon {t : Token} (ht : t.symbol? = some .colon)
    (h : Level.primary.parser nested us = .ok (f, rest)) (hj : joinRange e f = .ok g) :
    Level.range.resume nested (n + 1) e (t :: us) = Level.range.resume nested n g rest := by
  show rangeChain _ (n + 1) e (t :: us) = rangeChain _ n g rest
  rw [rangeChain, after?_eq_some.2 ⟨t, rfl, ht⟩]
  dsimp only
  rw [h]
  simp only [bind, Except.bind, hj]

theorem joinRange_cells (h : SheetsAgree a.sheet b.sheet) :
    joinRange (.cell a) (.cell b) =
      .ok (.range ⟨a.sheet <|> b.sheet, .ofCorners a.address b.address⟩) := by
  refine if_neg fun hd => ?_
  unfold sheetsDiffer at hd
  split at hd
  · rename_i s s' hs hs'
    rw [h s hs s' hs'] at hd
    cases hd
  · cases hd

theorem joinRange_references (hr : e.isReference = true) (hr' : f.isReference = true)
    (hc : ∀ a b, ¬ (e = .cell a ∧ f = .cell b)) :
    joinRange e f = .ok (.binary (.reference .range) e f) := by
  unfold joinRange
  split
  · exact absurd ⟨rfl, rfl⟩ (hc _ _)
  · rw [hr, hr']
    rfl

end Parser

end Spreadsheet
