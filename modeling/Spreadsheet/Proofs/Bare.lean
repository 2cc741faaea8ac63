import Spreadsheet.Dependency
import Spreadsheet.Eval
import Spreadsheet.Proofs.Outcome

/-!
References and formulas without their `$` flags. No operation on references looks at the flags, and
a table of dependencies does not record them.
-/

namespace Spreadsheet

def Address.bare (a : Address) : Address := .relative a.row a.col

namespace Range

def bare (r : Range) : Range := ⟨r.topLeft.bare, r.bottomRight.bare, r.row_le, r.col_le⟩

theorem bare_ofCorners (a b : Address) : (ofCorners a b).bare = ofCorners a.bare b.bare := by
  by_cases hrow : a.row ≤ b.row <;> by_cases hcol : a.col ≤ b.col <;>
    simp [ofCorners, bare, Address.bare, Address.relative, hrow, hcol]

end Range

def CellRef.bare (r : CellRef) : CellRef := ⟨r.sheet, r.address.bare⟩

def RangeRef.bare (r : RangeRef) : RangeRef := ⟨r.sheet, r.range.bare⟩

namespace Reference

mutual

def bare : Reference → Reference
  | .cell ref => .cell ref.bare
  | .range ref => .range ref.bare
  | .union parts => .union (bareParts parts)

def bareParts : List Reference → List Reference
  | [] => []
  | r :: rest => r.bare :: bareParts rest

end

mutual

theorem bare_bare : (r : Reference) → r.bare.bare = r.bare
  | .cell _ => rfl
  | .range _ => rfl
  | .union parts => congrArg union (bareParts_bareParts parts)

theorem bareParts_bareParts : (rs : List Reference) → bareParts (bareParts rs) = bareParts rs
  | [] => rfl
  | r :: rest => congrArg₂ List.cons r.bare_bare (bareParts_bareParts rest)

end

theorem bareParts_eq_map (rs : List Reference) : bareParts rs = rs.map bare := by
  induction rs with
  | nil => rfl
  | cons r rs ih => rw [bareParts, ih, List.map_cons]

theorem area?_bare (r : Reference) : r.bare.area? = r.area?.map Range.bare := by
  cases r <;> rfl

theorem sheet?_bare : (r : Reference) → r.bare.sheet? = r.sheet?
  | .cell _ => rfl
  | .range _ => rfl
  | .union [] => rfl
  | .union (part :: rest) => by
    rw [bare, bareParts, sheet?, sheet?]
    exact sheet?_bare part

theorem area?_congr {F : Range → α} (hF : ∀ a, F a.bare = F a) (r : Reference) :
    r.bare.area?.map F = r.area?.map F := by
  rw [area?_bare, Option.map_map]
  exact congrArg (r.area?.map ·) (funext hF)

end Reference

/-! ### Operators -/

namespace Value

/-- The value without the flags of the reference that it is. -/
def bare : Value → Value
  | reference r => .reference r.bare
  | v => v

theorem toReferences_bare (v : Value) :
    v.bare.toReferences = v.toReferences.map (·.map Reference.bare) := by
  cases v with
  | reference r =>
    cases r with
    | union parts => exact congrArg Except.ok (Reference.bareParts_eq_map parts)
    | _ => rfl
  | _ => rfl

end Value

namespace ReferenceOp

theorem areaOf_bare (op : ReferenceOp) (a b : Range) : op.areaOf a.bare b.bare = op.areaOf a b := by
  cases op <;> rfl

theorem join_bare (op : ReferenceOp) (r s : Reference) : op.join r.bare s.bare = op.join r s := by
  rw [join, join, Reference.area?_bare, Reference.area?_bare, Reference.sheet?_bare,
    Reference.sheet?_bare]
  cases r.area? with
  | none => rfl
  | some a =>
    cases s.area? with
    | none => rfl
    | some b =>
      change (do return .ofArea (← sharedSheet r.sheet? s.sheet?) (← op.areaOf a.bare b.bare) :
        Result Reference) = _
      rw [areaOf_bare]
      rfl

theorem apply_bare (op : ReferenceOp) (v w : Value) : op.apply v.bare w.bare = op.apply v w := by
  cases v with
  | reference r =>
    cases w with
    | reference s => exact congrArg (fun x => Value.ofResult (.reference <$> x)) (op.join_bare r s)
    | _ => rfl
  | _ => cases w <;> rfl

end ReferenceOp

/-! ### Formulas -/

namespace Expr

mutual

/-- The formula without the flags of its cells and ranges. -/
def bare : Expr → Expr
  | cell ref => .cell ref.bare
  | range ref => .range ref.bare
  | union parts => .union (bareAll parts)
  | sign op operand => .sign op operand.bare
  | binary op left right => .binary op left.bare right.bare
  | percent operand => .percent operand.bare
  | call function args => .call function (bareAll args)
  | e => e

def bareAll : List Expr → List Expr
  | [] => []
  | e :: rest => e.bare :: bareAll rest

end

mutual

theorem references_bare : (e : Expr) → e.bare.references = e.references.map Reference.bare
  | cell _ => rfl
  | range _ => rfl
  | literal _ => rfl
  | array _ => rfl
  | name _ => rfl
  | omitted => rfl
  | union parts => referencesOf_bare parts
  | sign op operand => operand.references_bare
  | percent operand => operand.references_bare
  | call function args => referencesOf_bare args
  | binary op left right => by
    rw [bare, references, references, left.references_bare, right.references_bare, List.map_append]

theorem referencesOf_bare : (es : List Expr) →
    referencesOf (bareAll es) = (referencesOf es).map Reference.bare
  | [] => rfl
  | e :: rest => by
    rw [bareAll, referencesOf, referencesOf, e.references_bare, referencesOf_bare rest,
      List.map_append]

end

end Expr

/-! ### Dependencies -/

namespace DependencyTable

mutual

theorem areas_bare (t : DependencyTable) (default : Nat) :
    (r : Reference) → t.areas default r.bare = t.areas default r
  | .cell _ => rfl
  | .range _ => rfl
  | .union parts => by
    rw [Reference.bare, Reference.bareParts_eq_map]
    exact t.areasOf_bare default parts

theorem areasOf_bare (t : DependencyTable) (default : Nat) :
    (rs : List Reference) → t.areasOf default (rs.map Reference.bare) = t.areasOf default rs
  | [] => rfl
  | r :: rest => by
    rw [List.map_cons, areasOf, areasOf, t.areas_bare default r, t.areasOf_bare default rest]

end

theorem register_bare (t : DependencyTable) (e : Expr) (cell : CellKey) :
    t.register e.bare cell = t.register e cell := by
  rw [register, register, e.references_bare, areasOf_bare, List.length_map]

end DependencyTable

end Spreadsheet
