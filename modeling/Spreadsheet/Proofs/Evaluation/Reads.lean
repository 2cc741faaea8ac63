import Spreadsheet.Eval
import Spreadsheet.Proofs.Evaluation.Plain
import Spreadsheet.Proofs.References

/-!
What a formula reads. With built-in functions alone, and with cells and names that hold no
references, it reads only cells of the references that it writes down and of the areas that it makes from them.
-/

namespace Spreadsheet

open Reference

/-- The references of a union; another reference stands for itself. -/
def Reference.flat : Reference → List Reference
  | .union parts => parts
  | r => [r]

namespace Expr

mutual

/-- The reference that an expression stands for, which no cell and no name can change. -/
def reference? : Expr → Option Reference
  | cell ref => some (.cell ref)
  | range ref => some (.range ref)
  | union parts => (unionReferences? parts).map .union
  | binary (.reference op) left right => do
    (op.join (← left.reference?) (← right.reference?)).toOption
  | _ => none

/-- The references that the parts of a union stand for, those of a union among them taken apart. -/
def unionReferences? : List Expr → Option (List Reference)
  | [] => some []
  | e :: rest => do return (← e.reference?).flat ++ (← unionReferences? rest)

end

/-- The area that `SUMIF` adds up: the third argument in the size of the first. -/
def summedArea? (function : String) : List Expr → Option Reference
  | cells :: _ :: summed :: _ =>
    if upperName function = "SUMIF" then do
      let area ← (← cells.reference?).area?
      let ref ← Conditional.sameSize? area (← summed.reference?)
      return .range ref
    else none
  | _ => none

mutual

/-- The areas that a formula makes from its references: those around the operands of a colon, and
those that `SUMIF` adds up. -/
def derived : Expr → List Reference
  | binary (.reference .range) left right =>
    left.derived ++ right.derived ++ (binary (.reference .range) left right).reference?.toList
  | binary (.reference .intersect) left right | binary (.value _) left right =>
    left.derived ++ right.derived
  | sign _ operand | percent operand => operand.derived
  | union parts => derivedOf parts
  | call function args => derivedOf args ++ (summedArea? function args).toList
  | literal _ | array _ | cell _ | range _ | name _ | omitted => []

def derivedOf : List Expr → List Reference
  | [] => []
  | e :: rest => e.derived ++ derivedOf rest

end

end Expr

/-! ### Areas -/

theorem Range.contains_of_intersect? {a b c : Range} {row col : Nat}
    (h : a.intersect? b = some c) (hc : c.contains (.relative row col) = true) :
    a.contains (.relative row col) = true ∧ b.contains (.relative row col) = true := by
  unfold intersect? at h
  split at h
  · rename_i hoverlaps
    cases h
    simp only [overlaps, Bool.and_eq_true, decide_eq_true_eq] at hoverlaps
    rw [contains_iff] at hc
    rw [contains_iff, contains_iff]
    simp only [ofIndices, ofCorners, Address.relative] at hc
    have ha := a.row_le
    have ha' := a.col_le
    have hb := b.row_le
    have hb' := b.col_le
    omega
  · cases h

namespace Reference

theorem Covered.mono {listed more : List Reference} (h : Covered listed r)
    (hsub : listed ⊆ more) : Covered more r := by
  intro sheet row col hold
  obtain ⟨s, hs, hold⟩ := h sheet row col hold
  exact ⟨s, hsub hs, hold⟩

theorem Covered.flat (h : Covered listed r) : ∀ s ∈ r.flat, Covered listed s := by
  cases r with
  | union parts => exact covered_union.1 h
  | _ => exact fun s hs => List.mem_singleton.1 hs ▸ h

theorem holds_of_area? {r : Reference} (h : r.area? = some area) :
    r.Holds sheet row col ↔ r.sheet? = sheet ∧ area.contains (.relative row col) = true := by
  cases r with
  | cell ref => cases h; simp [Holds, parts, sheet?]
  | range ref => cases h; simp [Holds, parts, sheet?]
  | union parts => cases h

theorem holds_ofArea : (ofArea sheet area).Holds sheet' row col ↔
    sheet = sheet' ∧ area.contains (.relative row col) = true := by
  unfold ofArea
  split
  · rename_i hsingle
    rw [holds_of_area? rfl]
    refine and_congr_right fun _ => ?_
    simp only [Range.isSingleCell, Address.sameCell, Bool.and_eq_true, beq_iff_eq] at hsingle
    simp only [Range.contains_iff, Range.single]
    rw [hsingle.1, hsingle.2]
  · exact holds_of_area? rfl

theorem orError_eq_ok {e : ErrorValue} {x : Option α} : orError e x = .ok a ↔ x = some a := by
  cases x with
  | none => simp [orError]
  | some b => simp [orError]

theorem sharedSheet_eq_ok {a b sheet : Option String} (h : sharedSheet a b = .ok sheet) :
    sheet = a ∨ sheet = b := by
  unfold sharedSheet at h
  split at h
  · split at h
    · exact .inl (Except.ok.inj h).symm
    · cases h
  · exact .inr (Except.ok.inj h).symm
  · exact .inl (Except.ok.inj h).symm

/-- The cells of an intersection are in the operand that names its sheet. -/
theorem join_intersect {r s t : Reference} (h : ReferenceOp.join .intersect r s = .ok t) :
    (∀ sheet row col, t.Holds sheet row col → r.Holds sheet row col) ∨
      ∀ sheet row col, t.Holds sheet row col → s.Holds sheet row col := by
  obtain ⟨a, ha, h₁⟩ := bind_eq_ok.1 h
  obtain ⟨b, hb, h₂⟩ := bind_eq_ok.1 h₁
  obtain ⟨shared, hshared, h₃⟩ := bind_eq_ok.1 h₂
  obtain ⟨c, hc, h₄⟩ := bind_eq_ok.1 h₃
  cases h₄
  have hboth {row col : Nat} (hin : c.contains (.relative row col) = true) :=
    Range.contains_of_intersect? (orError_eq_ok.1 hc) hin
  refine (sharedSheet_eq_ok hshared).imp ?_ ?_
  · rintro rfl sheet row col hold
    obtain ⟨hsheet, hin⟩ := holds_ofArea.1 hold
    exact (holds_of_area? (orError_eq_ok.1 ha)).2 ⟨hsheet, (hboth hin).1⟩
  · rintro rfl sheet row col hold
    obtain ⟨hsheet, hin⟩ := holds_ofArea.1 hold
    exact (holds_of_area? (orError_eq_ok.1 hb)).2 ⟨hsheet, (hboth hin).2⟩

end Reference

namespace Expr

theorem subset_left (rs ds rs' ds' : List Reference) : rs ++ ds ⊆ rs ++ rs' ++ (ds ++ ds') := by
  intro r hr
  simp only [List.mem_append] at hr ⊢
  tauto

theorem subset_right (rs ds rs' ds' : List Reference) :
    rs' ++ ds' ⊆ rs ++ rs' ++ (ds ++ ds') := by
  intro r hr
  simp only [List.mem_append] at hr ⊢
  tauto

mutual

/-- The cells of the reference that an expression stands for are written down or derived. -/
theorem covered_reference? : (e : Expr) → {r : Reference} → e.reference? = some r →
    Covered (e.references ++ e.derived) r
  | .cell ref, r, h => by
    cases h
    exact .of_mem (List.mem_singleton_self _)
  | .range ref, r, h => by
    cases h
    exact .of_mem (List.mem_singleton_self _)
  | .union parts, r, h => by
    rw [reference?] at h
    obtain ⟨rs, hrs, rfl⟩ := Option.map_eq_some_iff.1 h
    rw [references, derived, covered_union]
    exact covered_unionReferences? parts hrs
  | .binary (.reference .range) left right, r, h => by
    rw [derived, h]
    exact .of_mem (by simp)
  | .binary (.reference .intersect) left right, t, h => by
    rw [reference?] at h
    obtain ⟨r, hr, h₁⟩ := Option.bind_eq_some_iff.1 h
    obtain ⟨s, hs, h₂⟩ := Option.bind_eq_some_iff.1 h₁
    have hjoin : ReferenceOp.join .intersect r s = .ok t := by
      cases hj : ReferenceOp.join .intersect r s with
      | ok t' =>
        rw [hj] at h₂
        exact congrArg _ (Option.some.inj h₂)
      | error e =>
        rw [hj] at h₂
        cases h₂
    have hleft := covered_reference? left hr
    have hright := covered_reference? right hs
    rw [references, derived]
    rcases join_intersect hjoin with hin | hin
    · exact fun sheet row col hold =>
        hleft.mono (subset_left ..) sheet row col (hin sheet row col hold)
    · exact fun sheet row col hold =>
        hright.mono (subset_right ..) sheet row col (hin sheet row col hold)

theorem covered_unionReferences? : (parts : List Expr) → {rs : List Reference} →
    unionReferences? parts = some rs →
    ∀ r ∈ rs, Covered (referencesOf parts ++ derivedOf parts) r
  | [], rs, h => by
    cases h
    exact fun r hr => absurd hr List.not_mem_nil
  | e :: rest, rs, h => by
    rw [unionReferences?] at h
    obtain ⟨r, hr, h₁⟩ := Option.bind_eq_some_iff.1 h
    obtain ⟨rs', hrs, h₂⟩ := Option.bind_eq_some_iff.1 h₁
    cases h₂
    have hfirst : ∀ s ∈ r.flat, Covered (e.references ++ e.derived) s :=
      (covered_reference? e hr).flat
    have hrest := covered_unionReferences? rest hrs
    rw [referencesOf, derivedOf]
    intro s hs
    rcases List.mem_append.1 hs with hs | hs
    · exact (hfirst s hs).mono (subset_left ..)
    · exact (hrest s hs).mono (subset_right ..)

end

end Expr

end Spreadsheet
