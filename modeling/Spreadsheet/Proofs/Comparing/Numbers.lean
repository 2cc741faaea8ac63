import Mathlib
import Spreadsheet.Value.Order

/-!
The order of numbers and the order of texts. Floats that are numbers are ordered by their signs,
their exponents and their digits one after the other, texts by their code points.
-/

namespace Spreadsheet

open Float.Model Std

namespace FloatOrder

/-- Where a float stands among the negative and the positive numbers and the infinities. -/
def kind : UnpackedFloat → Int
  | .infinity .negative => -2
  | .finite .negative _ _ _ => -1
  | .zero _ | .notANumber => 0
  | .finite .positive _ _ _ => 1
  | .infinity .positive => 2

/-- The exponent, which counts the other way below zero. -/
def exponent : UnpackedFloat → Int
  | .finite .negative _ e _ => -e
  | .finite .positive _ e _ => e
  | _ => 0

/-- The digits, which count the other way below zero. -/
def digits : UnpackedFloat → Int
  | .finite .negative m _ _ => -m
  | .finite .positive m _ _ => m
  | _ => 0

/-- The order of floats that are numbers. -/
def compare : UnpackedFloat → UnpackedFloat → Ordering :=
  compareLex (compareOn kind) (compareLex (compareOn exponent) (compareOn digits))

instance : TransCmp compare :=
  inferInstanceAs (TransCmp (compareLex (compareOn kind) (compareLex (compareOn exponent)
    (compareOn digits))))

theorem compare_neg (a b : Int) : Ord.compare (-a) (-b) = (Ord.compare a b).swap := by
  rw [Int.compare_swap, Int.compare_eq_ite_lt, Int.compare_eq_ite_lt]
  simp only [Int.neg_lt_neg_iff]

theorem compare_natCast (m n : Nat) : Ord.compare (m : Int) n = Ord.compare m n := by
  rw [Int.compare_eq_ite_lt, Nat.compare_eq_ite_lt]
  simp only [Int.ofNat_lt]

/-- Floats are compared as numbers unless one of them is none. -/
theorem compare_eq {f g : UnpackedFloat} (hf : f ≠ .notANumber) (hg : g ≠ .notANumber) :
    UnpackedFloat.compare f g = some (compare f g) := by
  cases f with
  | notANumber => exact absurd rfl hf
  | infinity s =>
    cases g with
    | notANumber => exact absurd rfl hg
    | infinity s' => cases s <;> cases s' <;> rfl
    | zero s' => cases s <;> rfl
    | finite s' m e hm => cases s <;> cases s' <;> rfl
  | zero s =>
    cases g with
    | notANumber => exact absurd rfl hg
    | infinity s' => cases s' <;> rfl
    | zero s' => rfl
    | finite s' m e hm => cases s' <;> rfl
  | finite s m e hm =>
    cases g with
    | notANumber => exact absurd rfl hg
    | infinity s' => cases s <;> cases s' <;> rfl
    | zero s' => cases s <;> rfl
    | finite s' n d hn =>
      cases s with
      | negative =>
        cases s' with
        | positive => rfl
        | negative =>
          rw [UnpackedFloat.compare, Ordering.swap_then]
          simp only [compare, compareLex, compareOn, kind, exponent, digits, compare_neg,
            compare_natCast]
          rfl
      | positive =>
        cases s' with
        | negative => rfl
        | positive =>
          rw [UnpackedFloat.compare, ← compare_natCast]
          rfl

end FloatOrder

theorem lt_iff_compare (x y : Float) :
    x < y ↔ UnpackedFloat.compare x.toModel.unpack y.toModel.unpack = some .lt := by
  change decide (x.toModel < y.toModel) = true ↔ _
  rw [decide_eq_true_iff]
  exact beq_iff_eq

theorem unpack_eq_notANumber {x : Float} : x.toModel.unpack = .notANumber ↔ x.isNaN = true := by
  change _ ↔ x.toModel.unpack.isNaN = true
  cases x.toModel.unpack <;> simp [UnpackedFloat.isNaN]

/-- What is no number comes before and after nothing. -/
theorem compareNumbers_of_isNaN {x y : Float} (h : x.isNaN = true ∨ y.isNaN = true) :
    compareNumbers x y = .eq := by
  have hnone {f g : UnpackedFloat} (h : f = .notANumber ∨ g = .notANumber) :
      UnpackedFloat.compare f g = none := by
    rcases h with rfl | rfl
    · rfl
    · cases f <;> rfl
  rw [← unpack_eq_notANumber, ← unpack_eq_notANumber] at h
  unfold compareNumbers
  rw [if_neg, if_neg]
  · rw [lt_iff_compare, hnone h.symm]
    exact nofun
  · rw [lt_iff_compare, hnone h]
    exact nofun

theorem compareNumbers_eq {x y : Float} (hx : x.isNaN = false) (hy : y.isNaN = false) :
    compareNumbers x y = FloatOrder.compare x.toModel.unpack y.toModel.unpack := by
  have hne {x : Float} (h : x.isNaN = false) : x.toModel.unpack ≠ .notANumber := by
    intro hnan
    rw [unpack_eq_notANumber.1 hnan] at h
    cases h
  unfold compareNumbers
  simp only [lt_iff_compare, FloatOrder.compare_eq (hne hx) (hne hy),
    FloatOrder.compare_eq (hne hy) (hne hx), Option.some.injEq]
  have hswap : FloatOrder.compare y.toModel.unpack x.toModel.unpack =
      (FloatOrder.compare x.toModel.unpack y.toModel.unpack).swap := OrientedCmp.eq_swap
  rw [hswap]
  cases FloatOrder.compare x.toModel.unpack y.toModel.unpack <;> rfl

theorem compareNumbers_swap (x y : Float) : compareNumbers y x = (compareNumbers x y).swap := by
  cases hx : x.isNaN with
  | true => rw [compareNumbers_of_isNaN (.inr hx), compareNumbers_of_isNaN (.inl hx), Ordering.swap]
  | false =>
    cases hy : y.isNaN with
    | true =>
      rw [compareNumbers_of_isNaN (.inl hy), compareNumbers_of_isNaN (.inr hy), Ordering.swap]
    | false =>
      rw [compareNumbers_eq hx hy, compareNumbers_eq hy hx]
      exact OrientedCmp.eq_swap

/-- Texts are ordered as the lists of their code points. -/
theorem compareText_eq (as bs : List Char) :
    compareText as bs = compare (as.map Char.toNat) (bs.map Char.toNat) := by
  induction as generalizing bs with
  | nil => cases bs <;> rfl
  | cons a as ih =>
    cases bs with
    | nil => rfl
    | cons b bs => rw [compareText, ih, List.map_cons, List.map_cons, List.compare_cons_cons]

theorem compareText_swap (as bs : List Char) : compareText bs as = (compareText as bs).swap := by
  rw [compareText_eq, compareText_eq]
  exact OrientedCmp.eq_swap

end Spreadsheet
