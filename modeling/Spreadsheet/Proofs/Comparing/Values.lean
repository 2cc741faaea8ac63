import Spreadsheet.Proofs.Comparing.Numbers
import Spreadsheet.Proofs.Evaluation.Pointwise

/-!
The order of values. Values that are neither blank nor NaN are ordered by their kinds, and within a
kind by a number, a text or a boolean. The comparison operators read their answers off this order.
-/

namespace Spreadsheet

open Std Float.Model

namespace Value

/-! ### Keys -/

/-- Zero for what is no number. -/
def float : Value → UnpackedFloat
  | number x => x.toModel.unpack
  | _ => .zero .positive

/-- The code points by which a text is ordered, none for what is no text. -/
def codePoints : Value → List Nat
  | text s => (Unicode.lower s.toList).map Char.toNat
  | _ => []

/-- Zero for what is no boolean. -/
def truth : Value → Nat
  | boolean b => b.toNat
  | _ => 0

/-- The order by kinds, and then by what a value holds. -/
def compareKeys : Value → Value → Ordering :=
  compareLex (compareOn rank) <|
    compareLex (fun v w => FloatOrder.compare v.float w.float) <|
      compareLex (compareOn codePoints) (compareOn truth)

instance : TransCmp fun v w : Value => FloatOrder.compare v.float w.float where
  eq_swap := OrientedCmp.eq_swap
  isLE_trans := TransCmp.isLE_trans

instance : TransCmp compareKeys :=
  inferInstanceAs (TransCmp (compareLex (compareOn rank) (compareLex _
    (compareLex (compareOn codePoints) (compareOn truth)))))

/-- A value that has a place in the order: no blank, no NaN and no array. -/
def Ordered : Value → Prop
  | number x => x.isNaN = false
  | empty | array _ => False
  | _ => True

theorem compareScalars_eq {v w : Value} (hv : v.Ordered) (hw : w.Ordered) :
    compareScalars v w = compareKeys v w := by
  cases v with
  | empty | array rows => exact hv.elim
  | number x =>
    cases w with
    | empty | array rows => exact hw.elim
    | number y =>
      rw [compareScalars, compareNumbers_eq hv hw]
      exact Ordering.then_eq.symm
    | text t => rfl
    | boolean b => rfl
    | error e => rfl
    | reference r => rfl
  | text s =>
    cases w with
    | empty | array rows => exact hw.elim
    | text t =>
      rw [compareScalars, compareText_eq]
      exact Ordering.then_eq.symm
    | number y => rfl
    | boolean b => rfl
    | error e => rfl
    | reference r => rfl
  | boolean a => cases w <;> rfl
  | error e => cases w <;> rfl
  | reference r => cases w <;> rfl

theorem order_eq {v w : Value} (hv : v.Ordered) (hw : w.Ordered) : v.order w = compareKeys v w := by
  rw [← compareScalars_eq hv hw]
  cases v <;> cases w <;> first | rfl | exact hv.elim | exact hw.elim

/-- Among values that have a place in the order, what one comparison says twice it says of the
ends. -/
theorem order_trans {u v w : Value} (hu : u.Ordered) (hv : v.Ordered) (hw : w.Ordered)
    {o : Ordering} (h : u.order v = o) (h' : v.order w = o) : u.order w = o := by
  rw [order_eq hu hv] at h
  rw [order_eq hv hw] at h'
  rw [order_eq hu hw]
  cases o with
  | lt => exact TransCmp.lt_trans h h'
  | eq => exact TransCmp.eq_trans h h'
  | gt => exact TransCmp.gt_trans h h'

theorem order_isLE_trans {u v w : Value} (hu : u.Ordered) (hv : v.Ordered) (hw : w.Ordered)
    (h : (u.order v).isLE) (h' : (v.order w).isLE) : (u.order w).isLE := by
  rw [order_eq hu hv] at h
  rw [order_eq hv hw] at h'
  rw [order_eq hu hw]
  exact TransCmp.isLE_trans h h'

/-! ### All values -/

@[simp]
theorem scalar_scalar (v : Value) : v.scalar.scalar = v.scalar := by
  fun_induction scalar v with
  | case1 v row rest ih => exact ih
  | case2 => rfl
  | case3 v h h' => exact scalar.eq_3 v h h'

/-- What stands at the top left of arrays decides. -/
theorem order_scalar (v w : Value) : v.order w = v.scalar.order w.scalar := by
  rw [order, order, scalar_scalar, scalar_scalar]

theorem compareScalars_swap (v w : Value) : compareScalars w v = (compareScalars v w).swap := by
  have hrank (m n : Nat) : compare n m = (compare m n).swap := OrientedCmp.eq_swap
  cases v with
  | number x => cases w <;> first | exact compareNumbers_swap _ _ | exact hrank _ _
  | text s => cases w <;> first | exact compareText_swap _ _ | exact hrank _ _
  | boolean b => cases w <;> exact hrank _ _
  | error e | array rows | reference r | empty => cases w <;> exact hrank _ _

/-- Whichever side a value stands on, the order is the same. -/
theorem order_swap (v w : Value) : w.order v = (v.order w).swap := by
  rw [order, order]
  cases v.scalar <;> cases w.scalar <;> first | rfl | exact compareScalars_swap _ _

theorem number_order_text (x : Float) (s : String) : (number x).order (text s) = .lt := rfl

theorem text_order_boolean (s : String) (b : Bool) : (text s).order (boolean b) = .lt := rfl

theorem number_order_boolean (x : Float) (b : Bool) : (number x).order (boolean b) = .lt := rfl

end Value

/-! ### Operators -/

/-- The comparison that holds where the given one does not. -/
def Comparison.negation : Comparison → Comparison
  | .equal => .notEqual
  | .notEqual => .equal
  | .less => .greaterEqual
  | .lessEqual => .greater
  | .greater => .lessEqual
  | .greaterEqual => .less

/-- The comparison that holds of things in the given order, and of no others. -/
def Comparison.ofOrdering : Ordering → Comparison
  | .lt => .less
  | .eq => .equal
  | .gt => .greater

namespace Comparison

theorem accepts_negation (op : Comparison) (o : Ordering) :
    op.negation.accepts o = !op.accepts o := by
  cases op <;> cases o <;> rfl

theorem accepts_ofOrdering (o o' : Ordering) : (ofOrdering o).accepts o' = true ↔ o' = o := by
  cases o <;> cases o' <;> decide

/-- The comparisons of which exactly one holds. -/
def strict : List Comparison := [.less, .equal, .greater]

theorem mem_strict_iff {op : Comparison} : op ∈ strict ↔ ∃ o, op = ofOrdering o := by
  constructor
  · intro h
    cases op with
    | less => exact ⟨.lt, rfl⟩
    | equal => exact ⟨.eq, rfl⟩
    | greater => exact ⟨.gt, rfl⟩
    | notEqual | lessEqual | greaterEqual => exact absurd h (by decide)
  · rintro ⟨o, rfl⟩
    cases o <;> decide

theorem existsUnique_strict (o : Ordering) : ∃! op, op ∈ strict ∧ op.accepts o = true := by
  refine ⟨ofOrdering o, ⟨mem_strict_iff.2 ⟨o, rfl⟩, (accepts_ofOrdering o o).2 rfl⟩, ?_⟩
  rintro op ⟨hmem, h⟩
  obtain ⟨o', rfl⟩ := mem_strict_iff.1 hmem
  rw [(accepts_ofOrdering o' o).1 h]

end Comparison

/-- Whether a formula that compares two values says `TRUE`, of an array at its top left. -/
def Value.Compares (v : Value) (op : Comparison) (w : Value) : Prop :=
  ((ValueOp.comparison op).apply v w).scalar = .boolean true

namespace ValueOp

theorem onScalars_comparison {v w : Value} (hv : v.error? = none) (hw : w.error? = none)
    (op : Comparison) : (comparison op).onScalars v w = .boolean (op.accepts (v.order w)) := by
  rw [onScalars, hv, hw]
  rfl

theorem apply_comparison {v w : Value} (hv : v.isArray = false) (hw : w.isArray = false)
    (hev : v.error? = none) (hew : w.error? = none) (op : Comparison) :
    (comparison op).apply v w = .boolean (op.accepts (v.order w)) := by
  rw [apply_of_not_array _ hv hw, onScalars_comparison hev hew]

end ValueOp

namespace Value

theorem error?_eq_none_of_scalar {v : Value} (h : v.scalar.error? = none) : v.error? = none := by
  cases v with
  | error e => exact absurd h nofun
  | _ => rfl

theorem ne_empty_of_scalar {v : Value} (h : v.scalar ≠ .empty) : v ≠ .empty := by
  rintro rfl
  exact h rfl

theorem compares_iff_of_not_array {v w : Value} (hv : v.isArray = false) (hw : w.isArray = false)
    (hev : v.error? = none) (hew : w.error? = none) (op : Comparison) :
    v.Compares op w ↔ op.accepts (v.order w) = true := by
  rw [Compares, ValueOp.apply_comparison hv hw hev hew]
  exact (boolean.injEq ..).to_iff

/-- A formula compares a value with a scalar as the order does, of an array its top left. -/
theorem compares_iff {v w : Value} (hempty : v.scalar ≠ .empty) (herror : v.scalar.error? = none)
    (hw : w.isArray = false) (hew : w.error? = none) (op : Comparison) :
    v.Compares op w ↔ op.accepts (v.order w) = true := by
  cases v with
  | array rows =>
    match rows with
    | [] | [] :: _ => exact absurd rfl hempty
    | (v :: row) :: rest =>
      rw [scalar] at herror
      rw [Compares, ValueOp.apply_array_left _ hw, order_scalar, scalar, ← order_scalar]
      change ((ValueOp.comparison op).onScalars v w).scalar = _ ↔ _
      rw [ValueOp.onScalars_comparison (error?_eq_none_of_scalar herror) hew]
      exact (boolean.injEq ..).to_iff
  | _ => exact compares_iff_of_not_array rfl hw (error?_eq_none_of_scalar herror) hew op

end Value

end Spreadsheet
