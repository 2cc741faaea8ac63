import Mathlib.Data.List.Forall2
import Spreadsheet.Expr.Parser

/-!
Addresses, ranges, formulas and tokens that move by a number of rows and columns. Where the corners
of a range come to coincide, the order in which they were put decides which of them keeps which `$`
flag; formulas are compared up to that.
-/

namespace Spreadsheet

/-- A row or a column with its `$` flag. -/
structure Axis where
  index : Nat
  absolute : Bool

namespace Axis

/-- An absolute axis stays where it is. -/
def moved (n : Int) (x : Axis) : Axis :=
  if x.absolute then x else { x with index := (x.index + n).toNat }

theorem moved_zero (x : Axis) : x.moved 0 = x := by
  unfold moved
  split <;> rfl

theorem fixed_of_moved_eq {n : Int} {x : Axis} (h : x.moved n = x) (hx : 1 ≤ x.index) :
    x.absolute = true ∨ n = 0 := by
  unfold moved at h
  split at h
  · next habs => exact .inl habs
  · have hindex := congrArg index h
    change ((x.index : Int) + n).toNat = x.index at hindex
    exact .inr (by omega)

theorem absolute_moved (n : Int) (x : Axis) : (x.moved n).absolute = x.absolute := by
  unfold moved
  split <;> rfl

def inOrder (x y : Axis) : Axis × Axis := if x.index ≤ y.index then (x, y) else (y, x)

/-- Two axes of one index can carry their flags either way round; this is one way for both. -/
def settled (p : Axis × Axis) : Axis × Axis :=
  if p.1.index = p.2.index then
    ({ p.1 with absolute := p.1.absolute && p.2.absolute },
      { p.2 with absolute := p.1.absolute || p.2.absolute })
  else p

theorem settled_eq (p : Axis × Axis) :
    settled p = ({ p.1 with absolute := (settled p).1.absolute },
      { p.2 with absolute := (settled p).2.absolute }) := by
  unfold settled
  split <;> rfl

/-- Axes of one index are both absolute or both not. -/
def Even (p : Axis × Axis) : Prop := p.1.index = p.2.index → p.1.absolute = p.2.absolute

theorem eq_of_settled_eq {p q : Axis × Axis} (h : settled p = settled q) (hq : Even q) :
    p = q := by
  have hq' : settled q = q := by
    unfold settled
    split
    · next hindex =>
      obtain ⟨⟨i, a⟩, ⟨j, b⟩⟩ := q
      obtain rfl : a = b := hq hindex
      cases a <;> rfl
    · rfl
  rw [hq'] at h
  subst h
  obtain ⟨⟨i, a⟩, ⟨j, b⟩⟩ := p
  by_cases hindex : i = j
  · subst hindex
    simp only [Even, settled, if_true] at hq ⊢
    have hflags := hq trivial
    cases a <;> cases b <;> first | rfl | cases hflags
  · exact (if_neg hindex).symm

theorem settled_inOrder_comm (x y : Axis) : settled (inOrder x y) = settled (inOrder y x) := by
  unfold inOrder
  rcases Nat.lt_trichotomy x.index y.index with h | h | h
  · rw [if_pos (Nat.le_of_lt h), if_neg (Nat.not_le.2 h)]
  · rw [if_pos (Nat.le_of_eq h), if_pos (Nat.le_of_eq h.symm)]
    simp only [settled, h, if_true, Bool.and_comm, Bool.or_comm]
  · rw [if_neg (Nat.not_le.2 h), if_pos (Nat.le_of_lt h)]

/-- Axes can be put in order before they move or only after it. -/
theorem settled_inOrder_map (f : Axis → Axis) (x y : Axis) :
    settled (inOrder (f (inOrder x y).1) (f (inOrder x y).2)) = settled (inOrder (f x) (f y)) := by
  by_cases h : x.index ≤ y.index
  · have hxy : inOrder x y = (x, y) := if_pos h
    rw [hxy]
  · have hxy : inOrder x y = (y, x) := if_neg h
    rw [hxy, settled_inOrder_comm]

end Axis

namespace Address

def rowAxis (a : Address) : Axis := ⟨a.row, a.rowAbs⟩

def colAxis (a : Address) : Axis := ⟨a.col, a.colAbs⟩

def ofAxes (row col : Axis) : Address := ⟨row.index, col.index, row.absolute, col.absolute⟩

def moved (rows cols : Int) (a : Address) : Address :=
  ofAxes (a.rowAxis.moved rows) (a.colAxis.moved cols)

@[simp]
theorem rowAxis_moved (a : Address) : (a.moved rows cols).rowAxis = a.rowAxis.moved rows := rfl

@[simp]
theorem colAxis_moved (a : Address) : (a.moved rows cols).colAxis = a.colAxis.moved cols := rfl

theorem moved_zero (a : Address) : a.moved 0 0 = a := by
  rw [moved, Axis.moved_zero, Axis.moved_zero]
  rfl

/-- The address lies in the sheet. -/
def InSheet (a : Address) : Prop := 1 ≤ a.row ∧ a.row ≤ maxRow ∧ 1 ≤ a.col ∧ a.col ≤ maxCol

theorem move?_eq_some {a b : Address} {rows cols : Int} (h : a.move? rows cols = some b) :
    b = a.moved rows cols ∧ b.InSheet := by
  obtain ⟨row, col, rowAbs, colAbs⟩ := a
  simp only [move?, Option.ite_none_right_eq_some, Option.some.injEq] at h
  obtain ⟨hin, rfl⟩ := h
  refine ⟨?_, by simp only [InSheet]; omega⟩
  cases rowAbs <;> cases colAbs <;> rfl

theorem move?_eq_self {a : Address} (h : a.InSheet) (hrow : a.rowAbs = true ∨ rows = 0)
    (hcol : a.colAbs = true ∨ cols = 0) : a.move? rows cols = some a := by
  obtain ⟨hminRow, hmaxRow, hminCol, hmaxCol⟩ := h
  have hrow : (if a.rowAbs then (a.row : Int) else a.row + rows) = a.row := by
    rcases hrow with hrow | rfl
    · exact if_pos hrow
    · rw [Int.add_zero, ite_self]
  have hcol : (if a.colAbs then (a.col : Int) else a.col + cols) = a.col := by
    rcases hcol with hcol | rfl
    · exact if_pos hcol
    · rw [Int.add_zero, ite_self]
  simp only [move?, hrow, hcol, Int.toNat_natCast]
  exact if_pos (by omega)

theorem move?_of_moved_eq {a : Address} (h : a.InSheet) (hm : a.moved rows cols = a) :
    a.move? rows cols = some a :=
  move?_eq_self h (Axis.fixed_of_moved_eq (congrArg rowAxis hm) h.1)
    (Axis.fixed_of_moved_eq (congrArg colAxis hm) h.2.2.1)

end Address

namespace Range

def rowAxes (r : Range) : Axis × Axis := (r.topLeft.rowAxis, r.bottomRight.rowAxis)

def colAxes (r : Range) : Axis × Axis := (r.topLeft.colAxis, r.bottomRight.colAxis)

theorem rowAxes_ofCorners (a b : Address) :
    (ofCorners a b).rowAxes = Axis.inOrder a.rowAxis b.rowAxis := by
  by_cases h : a.row ≤ b.row
  · simp [rowAxes, ofCorners, Axis.inOrder, Address.rowAxis, h]
  · simp [rowAxes, ofCorners, Axis.inOrder, Address.rowAxis, h, Nat.le_of_not_le h]

theorem colAxes_ofCorners (a b : Address) :
    (ofCorners a b).colAxes = Axis.inOrder a.colAxis b.colAxis := by
  by_cases h : a.col ≤ b.col
  · simp [colAxes, ofCorners, Axis.inOrder, Address.colAxis, h]
  · simp [colAxes, ofCorners, Axis.inOrder, Address.colAxis, h, Nat.le_of_not_le h]

/-- Both corners move, and the range lies between them where they have come to. -/
def moved (rows cols : Int) (r : Range) : Range :=
  .ofCorners (r.topLeft.moved rows cols) (r.bottomRight.moved rows cols)

/-- The range with the flags of coinciding coordinates the one way round. -/
def settled (r : Range) : Range :=
  { r with
    topLeft :=
      { r.topLeft with
        rowAbs := (Axis.settled r.rowAxes).1.absolute
        colAbs := (Axis.settled r.colAxes).1.absolute }
    bottomRight :=
      { r.bottomRight with
        rowAbs := (Axis.settled r.rowAxes).2.absolute
        colAbs := (Axis.settled r.colAxes).2.absolute } }

theorem rowAxes_settled (r : Range) : r.settled.rowAxes = Axis.settled r.rowAxes :=
  (Axis.settled_eq r.rowAxes).symm

theorem colAxes_settled (r : Range) : r.settled.colAxes = Axis.settled r.colAxes :=
  (Axis.settled_eq r.colAxes).symm

theorem eq_of_axes_eq {r s : Range} (hr : r.rowAxes = s.rowAxes) (hc : r.colAxes = s.colAxes) :
    r = s := by
  obtain ⟨⟨_, _, _, _⟩, ⟨_, _, _, _⟩, _, _⟩ := r
  obtain ⟨⟨_, _, _, _⟩, ⟨_, _, _, _⟩, _, _⟩ := s
  cases hr
  cases hc
  rfl

/-- Coinciding coordinates of the corners are both absolute or both not. -/
def Even (r : Range) : Prop := Axis.Even r.rowAxes ∧ Axis.Even r.colAxes

theorem eq_of_settled_eq {r s : Range} (h : r.settled = s.settled) (hs : s.Even) : r = s := by
  have hrow := congrArg rowAxes h
  have hcol := congrArg colAxes h
  rw [rowAxes_settled, rowAxes_settled] at hrow
  rw [colAxes_settled, colAxes_settled] at hcol
  exact eq_of_axes_eq (Axis.eq_of_settled_eq hrow hs.1) (Axis.eq_of_settled_eq hcol hs.2)

theorem moved_zero (r : Range) : r.moved 0 0 = r := by
  apply eq_of_axes_eq
  · rw [moved, rowAxes_ofCorners, Address.moved_zero, Address.moved_zero]
    exact if_pos r.row_le
  · rw [moved, colAxes_ofCorners, Address.moved_zero, Address.moved_zero]
    exact if_pos r.col_le

/-- A range moves as the corners do that it is made from, up to the flags of coinciding ones. -/
theorem settled_moved_ofCorners (rows cols : Int) (a b : Address) :
    ((ofCorners a b).moved rows cols).settled =
      (ofCorners (a.moved rows cols) (b.moved rows cols)).settled := by
  apply eq_of_axes_eq
  · rw [rowAxes_settled, rowAxes_settled, moved, rowAxes_ofCorners, rowAxes_ofCorners]
    have h := Axis.settled_inOrder_map (Axis.moved rows) a.rowAxis b.rowAxis
    rw [← rowAxes_ofCorners] at h
    exact h
  · rw [colAxes_settled, colAxes_settled, moved, colAxes_ofCorners, colAxes_ofCorners]
    have h := Axis.settled_inOrder_map (Axis.moved cols) a.colAxis b.colAxis
    rw [← colAxes_ofCorners] at h
    exact h

end Range

namespace Expr

mutual

/-- The formula with its addresses and its ranges replaced. -/
def mapReferences (f : Address → Address) (g : Range → Range) : Expr → Expr
  | cell ref => cell { ref with address := f ref.address }
  | range ref => range { ref with range := g ref.range }
  | union parts => union (mapReferencesOf f g parts)
  | sign op operand => sign op (operand.mapReferences f g)
  | percent operand => percent (operand.mapReferences f g)
  | binary op left right => binary op (left.mapReferences f g) (right.mapReferences f g)
  | call function args => call function (mapReferencesOf f g args)
  | literal value => literal value
  | array rows => array rows
  | name n => name n
  | omitted => omitted

def mapReferencesOf (f : Address → Address) (g : Range → Range) : List Expr → List Expr
  | [] => []
  | e :: rest => e.mapReferences f g :: mapReferencesOf f g rest

end

/-- Every address and every corner of a range moves. -/
def moved (rows cols : Int) : Expr → Expr :=
  mapReferences (Address.moved rows cols) (Range.moved rows cols)

def settled : Expr → Expr := mapReferences id Range.settled

mutual

theorem eq_of_settled_eq {e f : Expr} (h : e.settled = f.settled)
    (hf : ∀ r, Reference.range r ∈ f.references → r.range.Even) : e = f := by
  cases f with
  | literal | array | name | omitted =>
    cases e with
    | literal | array | name | omitted => exact h
    | _ => cases h
  | cell ref =>
    cases e with
    | cell => exact h
    | _ => cases h
  | range ref =>
    cases e with
    | range ref' =>
      obtain ⟨hsheet, hr⟩ := RangeRef.mk.inj (range.inj h)
      have hr := Range.eq_of_settled_eq hr (hf ref (List.mem_singleton_self _))
      exact congrArg₂ (fun sheet r => range ⟨sheet, r⟩) hsheet hr
    | _ => cases h
  | union parts =>
    cases e with
    | union => rw [eq_of_settledOf_eq (union.inj h) hf]
    | _ => cases h
  | sign op operand =>
    cases e with
    | sign => rw [(sign.inj h).1, eq_of_settled_eq (sign.inj h).2 hf]
    | _ => cases h
  | percent operand =>
    cases e with
    | percent => rw [eq_of_settled_eq (percent.inj h) hf]
    | _ => cases h
  | binary op left right =>
    cases e with
    | binary =>
      obtain ⟨hop, hleft, hright⟩ := binary.inj h
      rw [hop, eq_of_settled_eq hleft fun r hr => hf r (List.mem_append_left _ hr),
        eq_of_settled_eq hright fun r hr => hf r (List.mem_append_right _ hr)]
    | _ => cases h
  | call function args =>
    cases e with
    | call => rw [(call.inj h).1, eq_of_settledOf_eq (call.inj h).2 hf]
    | _ => cases h

theorem eq_of_settledOf_eq {es fs : List Expr}
    (h : mapReferencesOf id Range.settled es = mapReferencesOf id Range.settled fs)
    (hf : ∀ r, Reference.range r ∈ referencesOf fs → r.range.Even) : es = fs := by
  cases fs with
  | nil =>
    cases es with
    | nil => rfl
    | cons => cases h
  | cons f fs =>
    cases es with
    | nil => cases h
    | cons e es =>
      obtain ⟨h, hs⟩ := List.cons.inj h
      rw [eq_of_settled_eq h fun r hr => hf r (List.mem_append_left _ hr),
        eq_of_settledOf_eq hs fun r hr => hf r (List.mem_append_right _ hr)]

end

/-- The second formula is the first one moved, up to the flags of coinciding corners. -/
def MovesTo (rows cols : Int) (e e' : Expr) : Prop := e'.settled = (e.moved rows cols).settled

namespace MovesTo

theorem of_list {es es' : List Expr} (h : List.Forall₂ (MovesTo rows cols) es es') :
    mapReferencesOf id Range.settled es' = mapReferencesOf id Range.settled
      (mapReferencesOf (Address.moved rows cols) (Range.moved rows cols) es) := by
  induction h with
  | nil => rfl
  | cons he _ ih =>
    rw [mapReferencesOf, mapReferencesOf, mapReferencesOf, ih]
    exact congrArg (· :: _) he

theorem isReference_eq (h : MovesTo rows cols e e') : e'.isReference = e.isReference := by
  have hmap (f : Address → Address) (g : Range → Range) (e : Expr) :
      (e.mapReferences f g).isReference = e.isReference := by
    cases e with
    | binary op => cases op <;> rw [mapReferences] <;> rfl
    | _ => rw [mapReferences] <;> rfl
  rw [← hmap id Range.settled e', ← hmap (.moved rows cols) (.moved rows cols) e,
    ← hmap id Range.settled (e.mapReferences _ _)]
  exact congrArg isReference h

theorem eq_cell (h : MovesTo rows cols (.cell a) e') :
    e' = .cell { a with address := a.address.moved rows cols } := by
  cases e' with
  | cell b =>
    have hb : b = { a with address := a.address.moved rows cols } := cell.inj h
    rw [hb]
  | _ => cases h

theorem cell_iff (h : MovesTo rows cols e e') : (∃ a, e = .cell a) ↔ ∃ a, e' = .cell a := by
  constructor
  · rintro ⟨a, rfl⟩
    exact ⟨_, h.eq_cell⟩
  · rintro ⟨a, rfl⟩
    cases e with
    | cell b => exact ⟨b, rfl⟩
    | _ => cases h

theorem binary {op : BinaryOp} (he : MovesTo rows cols e e') (hf : MovesTo rows cols f f') :
    MovesTo rows cols (.binary op e f) (.binary op e' f') :=
  congrArg₂ (Expr.binary op) he hf

theorem sign {op : SignOp} (h : MovesTo rows cols e e') :
    MovesTo rows cols (.sign op e) (.sign op e') :=
  congrArg (Expr.sign op) h

theorem percent (h : MovesTo rows cols e e') : MovesTo rows cols (.percent e) (.percent e') :=
  congrArg Expr.percent h

theorem union (h : List.Forall₂ (MovesTo rows cols) es es') :
    MovesTo rows cols (.union es) (.union es') :=
  congrArg Expr.union (of_list h)

theorem call (h : List.Forall₂ (MovesTo rows cols) es es') :
    MovesTo rows cols (.call function es) (.call function es') :=
  congrArg (Expr.call function) (of_list h)

theorem range_ofCorners {a b : Address} {sheet : Option String} :
    MovesTo rows cols (.range ⟨sheet, .ofCorners a b⟩)
      (.range ⟨sheet, .ofCorners (a.moved rows cols) (b.moved rows cols)⟩) :=
  congrArg (fun r => Expr.range ⟨sheet, r⟩) (Range.settled_moved_ofCorners rows cols a b).symm

end MovesTo

end Expr

def TokenKind.moved (rows cols : Int) : TokenKind → TokenKind
  | .cell a => .cell (a.moved rows cols)
  | .area r => .area (r.moved rows cols)
  | kind => kind

theorem TokenKind.moved_zero (kind : TokenKind) : kind.moved 0 0 = kind := by
  cases kind with
  | cell a => exact congrArg cell a.moved_zero
  | area r => exact congrArg area r.moved_zero
  | _ => rfl

/-- The second token is the first one moved, wherever it stands and however it is written. -/
structure Token.MovesTo (rows cols : Int) (t t' : Token) : Prop where
  kind : t'.kind = t.kind.moved rows cols
  spaceBefore : t'.spaceBefore = t.spaceBefore

theorem Token.MovesTo.kind_eq {kind : TokenKind} (h : Token.MovesTo rows cols t t')
    (ht : t.kind = kind) : t'.kind = kind.moved rows cols :=
  h.kind.trans (congrArg (TokenKind.moved rows cols) ht)

theorem Token.MovesTo.symbol?_eq (h : Token.MovesTo rows cols t t') : t'.symbol? = t.symbol? := by
  rw [symbol?, symbol?, h.kind]
  cases t.kind <;> rfl

theorem Token.MovesTo.startsReference_eq (h : Token.MovesTo rows cols t t') :
    Parser.startsReference t' = Parser.startsReference t := by
  rw [Parser.startsReference, Parser.startsReference, h.kind]
  cases t.kind <;> rfl

end Spreadsheet
