import Spreadsheet.Proofs.Grammar.Constants
import Spreadsheet.Proofs.Sharing.Moved

/-!
Formulas and tokens with `#REF!` in place of the addresses that an offset takes off the sheet. A
derivation leads the same way over such tokens unless an address is lost where only a reference can
stand.
-/

namespace Spreadsheet

variable {rows cols : Int}

/-- The axis lies between 1 and a bound where it comes to. -/
def Axis.Stays (n : Int) (bound : Nat) (x : Axis) : Prop :=
  1 ≤ (if x.absolute then (x.index : Int) else x.index + n) ∧
    (if x.absolute then (x.index : Int) else x.index + n) ≤ bound

theorem Axis.forall_inOrder {p : Axis → Prop} {x y : Axis} :
    p (inOrder x y).1 ∧ p (inOrder x y).2 ↔ p x ∧ p y := by
  unfold inOrder
  split
  · exact Iff.rfl
  · exact and_comm

namespace Address

variable {a b : Address}

/-- The address does not leave the sheet. -/
def Stays (rows cols : Int) (a : Address) : Prop := (a.move? rows cols).isSome = true

instance : Decidable (Stays rows cols a) := inferInstanceAs (Decidable (_ = true))

theorem stays_of_move? (h : a.move? rows cols = some b) : a.Stays rows cols :=
  Option.isSome_of_mem h

theorem stays_iff :
    a.Stays rows cols ↔ a.rowAxis.Stays rows maxRow ∧ a.colAxis.Stays cols maxCol := by
  rw [Stays, move?]
  simp only [Option.isSome_ite, Axis.Stays, rowAxis, colAxis, and_assoc]
  exact Iff.rfl

end Address

namespace Range

/-- No corner of the range leaves the sheet. -/
def Stays (rows cols : Int) (r : Range) : Prop :=
  r.topLeft.Stays rows cols ∧ r.bottomRight.Stays rows cols

theorem stays_ofCorners {a b : Address} :
    (ofCorners a b).Stays rows cols ↔ a.Stays rows cols ∧ b.Stays rows cols := by
  have hrow := rowAxes_ofCorners a b ▸ Axis.forall_inOrder (p := Axis.Stays rows maxRow)
    (x := a.rowAxis) (y := b.rowAxis)
  have hcol := colAxes_ofCorners a b ▸ Axis.forall_inOrder (p := Axis.Stays cols maxCol)
    (x := a.colAxis) (y := b.colAxis)
  simp only [rowAxes] at hrow
  simp only [colAxes] at hcol
  rw [Stays, Address.stays_iff, Address.stays_iff, Address.stays_iff, Address.stays_iff,
    and_and_and_comm, hrow, hcol, and_and_and_comm]

end Range

namespace Expr

mutual

/-- The formula with `#REF!` for every address that leaves the sheet. -/
def pruned (rows cols : Int) : Expr → Expr
  | cell ref => if ref.address.Stays rows cols then cell ref else literal (.error .ref)
  | union parts => union (prunedOf rows cols parts)
  | sign op operand => sign op (operand.pruned rows cols)
  | percent operand => percent (operand.pruned rows cols)
  | binary op left right => binary op (left.pruned rows cols) (right.pruned rows cols)
  | call function args => call function (prunedOf rows cols args)
  | range ref => range ref
  | literal value => literal value
  | array rows => array rows
  | name n => name n
  | omitted => omitted

def prunedOf (rows cols : Int) : List Expr → List Expr
  | [] => []
  | e :: rest => e.pruned rows cols :: prunedOf rows cols rest

end

theorem prunedOf_eq (es : List Expr) : prunedOf rows cols es = es.map (pruned rows cols) := by
  induction es with
  | nil => rfl
  | cons e es ih => rw [prunedOf, ih, List.map_cons]

variable {d e l r : Expr} {args : List Expr} {function : String}

/-- A cell that leaves the sheet. -/
def Lost (rows cols : Int) (e : Expr) : Prop :=
  ∃ ref : CellRef, e = .cell ref ∧ ¬ ref.address.Stays rows cols

theorem isReference_pruned (h : ¬ Lost rows cols e) :
    (e.pruned rows cols).isReference = e.isReference := by
  cases e with
  | cell ref =>
    have hstays : ref.address.Stays rows cols := by_contra fun hstays => h ⟨ref, rfl, hstays⟩
    rw [pruned, if_pos hstays]
  | binary op => cases op <;> rw [pruned] <;> rfl
  | _ => rw [pruned] <;> rfl

/-- No cell leaves the sheet with the name of the sheet before it, beside a colon or a space that
takes references, or in a union; and no range leaves it. -/
structure Prunable (rows cols : Int) (e : Expr) : Prop where
  sheet : ∀ ref, Occurs (.cell ref) e → ref.sheet ≠ none → ref.address.Stays rows cols
  range : ∀ ref, Occurs (.range ref) e → ref.range.Stays rows cols
  operand : ∀ op left right, Occurs (.binary (.reference op) left right) e →
    ¬ left.Lost rows cols ∧ ¬ right.Lost rows cols
  part : ∀ parts, Occurs (.union parts) e → ∀ p ∈ parts, ¬ Lost rows cols p

theorem Prunable.of_occurs (h : e.Prunable rows cols) (hd : Occurs d e) : d.Prunable rows cols where
  sheet ref ho := h.sheet ref (ho.trans hd)
  range ref ho := h.range ref (ho.trans hd)
  operand op left right ho := h.operand op left right (ho.trans hd)
  part parts ho := h.part parts (ho.trans hd)

theorem pruned_cell (h : ref.address.Stays rows cols) : (cell ref).pruned rows cols = cell ref := by
  rw [pruned, if_pos h]

theorem prunable_cell (h : ref.address.Stays rows cols) : (cell ref).Prunable rows cols := by
  refine ⟨?_, nofun, nofun, nofun⟩
  rintro _ ⟨⟩ -
  exact h

/-- Without the name of a sheet, a cell can leave the sheet. -/
theorem prunable_bare (a : Address) : (cell ⟨none, a⟩).Prunable rows cols := by
  refine ⟨?_, nofun, nofun, nofun⟩
  rintro _ ⟨⟩ hsheet
  exact absurd rfl hsheet

theorem prunable_value {op : ValueOp} (hl : l.Prunable rows cols) (hr : r.Prunable rows cols) :
    (binary (.value op) l r).Prunable rows cols := by
  constructor
  · intro ref ho
    cases ho with
    | left ho => exact hl.sheet ref ho
    | right ho => exact hr.sheet ref ho
  · intro ref ho
    cases ho with
    | left ho => exact hl.range ref ho
    | right ho => exact hr.range ref ho
  · intro op left right ho
    cases ho with
    | left ho => exact hl.operand op left right ho
    | right ho => exact hr.operand op left right ho
  · intro parts ho
    cases ho with
    | left ho => exact hl.part parts ho
    | right ho => exact hr.part parts ho

theorem eq_cell_of_pruned (h : e.pruned rows cols = cell ref) : e = cell ref := by
  cases e with
  | cell ref' =>
    rw [pruned] at h
    split at h
    · exact h
    · cases h
  | _ => rw [pruned] at h; cases h

/-- No cell and no range leaves the sheet. -/
structure StaysInSheet (rows cols : Int) (e : Expr) : Prop where
  cell : ∀ ref, Occurs (.cell ref) e → ref.address.Stays rows cols
  range : ∀ ref, Occurs (.range ref) e → ref.range.Stays rows cols

theorem staysInSheet_cell {ref : CellRef} (h : ref.address.Stays rows cols) :
    (cell ref).StaysInSheet rows cols := by
  refine ⟨?_, nofun⟩
  rintro _ ⟨⟩
  exact h

theorem staysInSheet_range {ref : RangeRef} (h : ref.range.Stays rows cols) :
    (range ref).StaysInSheet rows cols := by
  refine ⟨nofun, ?_⟩
  rintro _ ⟨⟩
  exact h

theorem staysInSheet_call (h : ∀ a ∈ args, StaysInSheet rows cols a) :
    (call function args).StaysInSheet rows cols := by
  constructor
  · intro ref ho
    cases ho with
    | call ha ho => exact (h _ ha).cell ref ho
  · intro ref ho
    cases ho with
    | call ha ho => exact (h _ ha).range ref ho

theorem StaysInSheet.not_lost (h : e.StaysInSheet rows cols) (hd : Occurs d e) :
    ¬ d.Lost rows cols := by
  rintro ⟨ref, rfl, hlost⟩
  exact hlost (h.cell ref hd)

theorem StaysInSheet.prunable (h : e.StaysInSheet rows cols) : e.Prunable rows cols where
  sheet ref ho _ := h.cell ref ho
  range := h.range
  operand _ _ _ ho := ⟨h.not_lost (.trans (.left (.self _)) ho),
    h.not_lost (.trans (.right (.self _)) ho)⟩
  part _ ho p hp := h.not_lost (.trans (.union hp (.self p)) ho)

end Expr

/-! ### Tokens -/

/-- The token, or `#REF!` for an address that leaves the sheet. -/
def TokenKind.pruned (rows cols : Int) : TokenKind → TokenKind
  | .cell a => if a.Stays rows cols then .cell a else .error .ref
  | kind => kind

def Token.pruned (rows cols : Int) (t : Token) : Token :=
  { t with kind := t.kind.pruned rows cols }

theorem Token.kind_pruned {t : Token} {kind : TokenKind} (ht : t.kind = kind) :
    (t.pruned rows cols).kind = kind.pruned rows cols :=
  congrArg (TokenKind.pruned rows cols) ht

theorem Token.symbol?_pruned (t : Token) : (t.pruned rows cols).symbol? = t.symbol? := by
  obtain ⟨kind, _, _, _⟩ := t
  cases kind with
  | cell a => by_cases h : a.Stays rows cols <;> simp [symbol?, pruned, TokenKind.pruned, h]
  | _ => rfl

theorem Token.pruned_eq_self {t : Token} (h : ∀ a, t.kind = .cell a → a.Stays rows cols) :
    t.pruned rows cols = t := by
  obtain ⟨kind, _, _, _⟩ := t
  cases kind with
  | cell a => rw [pruned, TokenKind.pruned, if_pos (h a rfl)]
  | _ => rfl

theorem TokenKind.pruned_eq_ident {kind : TokenKind} :
    kind.pruned rows cols = .ident n ↔ kind = .ident n := by
  cases kind with
  | cell a =>
    rw [pruned]
    split <;> exact ⟨nofun, nofun⟩
  | _ => exact Iff.rfl

namespace Grammar

theorem EndsInName.of_pruned (h : EndsInName (ts.map (Token.pruned rows cols))) :
    EndsInName ts := by
  obtain ⟨t, ht, n, hn⟩ := h
  rw [List.getLast?_map] at ht
  obtain ⟨u, hu, rfl⟩ := Option.map_eq_some_iff.1 ht
  exact ⟨u, hu, n, TokenKind.pruned_eq_ident.1 hn⟩

theorem Joined.map {f : Token → Token} (hf : ∀ t, (f t).symbol? = t.symbol?)
    (h : Joined s tss ts) : Joined s (tss.map (List.map f)) (ts.map f) := by
  induction h with
  | one => exact .one
  | cons ht _ ih =>
    rw [List.map_append, List.map_cons, List.map_cons]
    exact .cons ((hf _).trans ht) ih

theorem Element.pruned (h : Element ts l) : Element (ts.map (Token.pruned rows cols)) l := by
  induction h with
  | number ht => exact .number (Token.kind_pruned ht)
  | text ht => exact .text (Token.kind_pruned ht)
  | boolean ht => exact .boolean (Token.kind_pruned ht)
  | error ht => exact .error (Token.kind_pruned ht)
  | plus hs _ ih => exact .plus ((Token.symbol?_pruned _).trans hs) ih
  | minus hs ht =>
    exact .minus ((Token.symbol?_pruned _).trans hs) (Token.kind_pruned ht)

theorem Row.pruned (h : Row ts row) : Row (ts.map (Token.pruned rows cols)) row := by
  obtain ⟨elements, he, hj⟩ := h
  refine ⟨_, ?_, hj.map Token.symbol?_pruned⟩
  rw [List.forall₂_map_left_iff]
  exact he.imp fun _ _ h => h.pruned

theorem Rows.pruned (h : Rows ts values) : Rows (ts.map (Token.pruned rows cols)) values := by
  obtain ⟨⟨texts, hr, hj⟩, hlen⟩ := h
  refine ⟨⟨_, ?_, hj.map Token.symbol?_pruned⟩, hlen⟩
  rw [List.forall₂_map_left_iff]
  exact hr.imp fun _ _ h => h.pruned

variable {rows cols : Int}

/-- What is as tight as a range does not start with an address that leaves the sheet, unless that
address is all of it. -/
theorem Derives.head_stays (h : Derives l ts e) (hl : l = .range ∨ l = .primary)
    (hp : e.Prunable rows cols) (hlost : ¬ e.Lost rows cols) :
    ∀ t ∈ ts.head?, ∀ a, t.kind = .cell a → a.Stays rows cols := by
  have hother {t : Token} {us : List Token} (hk : ∀ a, t.kind ≠ .cell a) :
      ∀ u ∈ (t :: us).head?, ∀ a, u.kind = .cell a → a.Stays rows cols := by
    intro u hu a ha
    obtain rfl := Option.some.inj hu
    exact absurd ha (hk a)
  have hsymbol {t : Token} {s : Symbol} (hs : t.symbol? = some s) (a : Address) :
      t.kind ≠ .cell a := by
    intro ha
    rw [Token.symbol?, ha] at hs
    cases hs
  induction h with
  | tighter hm _ ih =>
    rcases hl with rfl | rfl
    · exact ih (.inr (Option.some.inj hm).symm) hp hlost
    · cases hm
  | cells _ _ he _ ih =>
    have hstays := Range.stays_ofCorners.1 (hp.range _ (.self _))
    rw [List.head?_append_of_ne_nil _ he.ne_nil]
    refine ih (.inl rfl) (Expr.prunable_cell hstays.1) ?_
    rintro ⟨_, ⟨⟩, hlost⟩
    exact hlost hstays.1
  | range _ _ _ _ he _ ih =>
    rw [List.head?_append_of_ne_nil _ he.ne_nil]
    exact ih (.inl rfl) (hp.of_occurs (.left (.self _))) (hp.operand _ _ _ (.self _)).1
  | cell ht =>
    intro u hu b hb
    obtain rfl := Option.some.inj hu
    rw [ht] at hb
    cases hb
    exact by_contra fun hstays => hlost ⟨_, rfl, hstays⟩
  | parens ho | union ho | array ho => exact hother (hsymbol ho)
  | number ht | text ht | boolean ht | error ht | area ht | sheetCell ht | sheetArea ht | name ht
  | callEmpty ht | call ht => exact hother (by simp [ht])
  | operator _ hop =>
    obtain ⟨s, -, hs⟩ := Option.bind_eq_some_iff.1 hop
    rcases hl with rfl | rfl <;> cases hs
  | power | plus | negate | percent | intersect => rcases hl with hl | hl <;> cases hl

theorem map_fst_parts {f : α → α'} (g : β → β') (parts : List (α × β)) :
    (parts.map (Prod.map f g)).map Prod.fst = (parts.map Prod.fst).map f := by
  rw [List.map_map, List.map_map]
  rfl

theorem map_snd_parts (f : α → α') {g : β → β'} (parts : List (α × β)) :
    (parts.map (Prod.map f g)).map Prod.snd = (parts.map Prod.snd).map g := by
  rw [List.map_map, List.map_map]
  rfl

/-- A derivation leads the same way over tokens with `#REF!` for the addresses that leave the
sheet. -/
theorem Derives.pruned (h : Derives l ts e) (hp : e.Prunable rows cols) :
    Derives l (ts.map (Token.pruned rows cols)) (e.pruned rows cols) := by
  induction h with
  | tighter hl _ ih => exact .tighter hl (ih hp)
  | operator hl ht _ _ ih₁ ih₂ =>
    rw [List.map_append, List.map_cons, Expr.pruned]
    exact .operator hl (by rw [Token.symbol?_pruned, ht]) (ih₁ (hp.of_occurs (.left (.self _))))
      (ih₂ (hp.of_occurs (.right (.self _))))
  | power ht _ _ ih₁ ih₂ =>
    rw [List.map_append, List.map_cons, Expr.pruned]
    exact .power ((Token.symbol?_pruned _).trans ht) (ih₁ (hp.of_occurs (.left (.self _))))
      (ih₂ (hp.of_occurs (.right (.self _))))
  | plus ht _ ih =>
    exact .plus ((Token.symbol?_pruned _).trans ht) (ih (hp.of_occurs (.sign (.self _))))
  | negate ht _ ih =>
    exact .negate ((Token.symbol?_pruned _).trans ht) (ih (hp.of_occurs (.sign (.self _))))
  | percent ht _ ih =>
    rw [List.map_append]
    exact .percent ((Token.symbol?_pruned _).trans ht) (ih (hp.of_occurs (.percent (.self _))))
  | intersect hu hs hc hr _ hf ih₁ ih₂ =>
    obtain ⟨hlost, hlost'⟩ := hp.operand _ _ _ (.self _)
    have hp' := hp.of_occurs (.right (.self _))
    have hself := Token.pruned_eq_self (hf.head_stays (.inl rfl) hp' hlost' _ rfl)
    rw [List.map_append, List.map_cons, Expr.pruned]
    refine .intersect hu (by rwa [hself]) ?_ ((Expr.isReference_pruned hlost).trans hr)
      (ih₁ (hp.of_occurs (.left (.self _)))) (ih₂ hp')
    rintro ⟨hname, hparen⟩
    exact hc ⟨hname.of_pruned, (Token.symbol?_pruned _).symm.trans hparen⟩
  | cells ht hs _ _ ih₁ ih₂ =>
    obtain ⟨hstays, hstays'⟩ := Range.stays_ofCorners.1 (hp.range _ (.self _))
    have he := ih₁ (Expr.prunable_cell hstays)
    have hf := ih₂ (Expr.prunable_cell hstays')
    rw [Expr.pruned_cell hstays] at he
    rw [Expr.pruned_cell hstays'] at hf
    rw [List.map_append, List.map_cons, Expr.pruned]
    exact .cells ((Token.symbol?_pruned _).trans ht) hs he hf
  | range ht hr hr' hc _ _ ih₁ ih₂ =>
    obtain ⟨hlost, hlost'⟩ := hp.operand _ _ _ (.self _)
    rw [List.map_append, List.map_cons, Expr.pruned]
    refine .range ((Token.symbol?_pruned _).trans ht) ((Expr.isReference_pruned hlost).trans hr)
      ((Expr.isReference_pruned hlost').trans hr') ?_ (ih₁ (hp.of_occurs (.left (.self _))))
      (ih₂ (hp.of_occurs (.right (.self _))))
    rintro a b ⟨he, hf⟩
    exact hc a b ⟨Expr.eq_cell_of_pruned he, Expr.eq_cell_of_pruned hf⟩
  | number ht => exact .number (Token.kind_pruned ht)
  | text ht => exact .text (Token.kind_pruned ht)
  | boolean ht => exact .boolean (Token.kind_pruned ht)
  | error ht => exact .error (Token.kind_pruned ht)
  | area ht => exact .area (Token.kind_pruned ht)
  | name ht => exact .name (Token.kind_pruned ht)
  | sheetArea hs ht =>
    exact .sheetArea (Token.kind_pruned hs) (Token.kind_pruned ht)
  | cell ht =>
    rw [Expr.pruned]
    split
    · next hstays => exact .cell ((Token.kind_pruned ht).trans (if_pos hstays))
    · next hstays => exact .error ((Token.kind_pruned ht).trans (if_neg hstays))
  | sheetCell hs ht =>
    have hstays := hp.sheet _ (.self _) nofun
    rw [Expr.pruned_cell hstays]
    exact .sheetCell (Token.kind_pruned hs) ((Token.kind_pruned ht).trans (if_pos hstays))
  | callEmpty ht ho hc =>
    exact .callEmpty (Token.kind_pruned ht) ((Token.symbol?_pruned _).trans ho)
      ((Token.symbol?_pruned _).trans hc)
  | @call t n o c ts slots ht ho hc hts hj homitted _ ih =>
    have hj : Joined .comma _ (List.map (Token.pruned rows cols) _) :=
      hj.map Token.symbol?_pruned
    rw [← map_fst_parts (Expr.pruned rows cols)] at hj
    rw [List.map_cons, List.map_cons, List.map_append, Expr.pruned, Expr.prunedOf_eq,
      ← map_snd_parts (List.map (Token.pruned rows cols))]
    refine .call (Token.kind_pruned ht) ((Token.symbol?_pruned _).trans ho)
      ((Token.symbol?_pruned _).trans hc) (by simpa using hts) hj ?_ ?_
    · intro slot hslot hnil
      obtain ⟨slot, hmem, rfl⟩ := List.mem_map.1 hslot
      have homitted := homitted slot hmem (List.map_eq_nil_iff.1 hnil)
      rw [Prod.map_snd, homitted]
      rfl
    · intro slot hslot hne
      obtain ⟨slot, hmem, rfl⟩ := List.mem_map.1 hslot
      have hne : slot.1 ≠ [] := fun hnil => hne (List.map_eq_nil_iff.2 hnil)
      exact ih slot hmem hne (hp.of_occurs (.call (List.mem_map_of_mem hmem) (.self _)))
  | parens ho hc _ ih =>
    rw [List.map_cons, List.map_append]
    exact .parens ((Token.symbol?_pruned _).trans ho) ((Token.symbol?_pruned _).trans hc) (ih hp)
  | @union o c ts parts ho hc hlen hj hr _ ih =>
    have hj : Joined .comma _ (List.map (Token.pruned rows cols) _) :=
      hj.map Token.symbol?_pruned
    have hlost := hp.part _ (.self _)
    rw [← map_fst_parts (Expr.pruned rows cols)] at hj
    rw [List.map_cons, List.map_append, Expr.pruned, Expr.prunedOf_eq,
      ← map_snd_parts (List.map (Token.pruned rows cols))]
    refine .union ((Token.symbol?_pruned _).trans ho) ((Token.symbol?_pruned _).trans hc)
      (by rwa [List.length_map]) hj ?_ ?_
    · intro part hpart
      obtain ⟨part, hmem, rfl⟩ := List.mem_map.1 hpart
      exact (Expr.isReference_pruned (hlost _ (List.mem_map_of_mem hmem))).trans (hr part hmem)
    · intro part hpart
      obtain ⟨part, hmem, rfl⟩ := List.mem_map.1 hpart
      exact ih part hmem (hp.of_occurs (.union (List.mem_map_of_mem hmem) (.self _)))
  | array ho hc h =>
    rw [List.map_cons, List.map_append]
    exact .array ((Token.symbol?_pruned _).trans ho) ((Token.symbol?_pruned _).trans hc) h.pruned

end Grammar

end Spreadsheet
