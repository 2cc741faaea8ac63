import Spreadsheet.Reference

/-!
References as the ranges that they stand for, and the cells that those hold.
-/

namespace Spreadsheet

theorem Range.contains_iff {r : Range} {row col : Nat} :
    r.contains (.relative row col) = true ↔
      (r.topLeft.row ≤ row ∧ row ≤ r.bottomRight.row) ∧
        r.topLeft.col ≤ col ∧ col ≤ r.bottomRight.col := by
  simp only [contains, Bool.and_eq_true, decide_eq_true_eq]
  rfl

namespace Reference

mutual

/-- The ranges of a reference, each on the sheet it names; a cell is a range, unions come apart. -/
def parts : Reference → List RangeRef
  | .cell r => [⟨r.sheet, .single r.address⟩]
  | .range r => [r]
  | .union parts => partsOf parts

def partsOf : List Reference → List RangeRef
  | [] => []
  | r :: rest => r.parts ++ partsOf rest

end

/-- The reference holds a cell of a sheet, no sheet being the one that need not be named. -/
def Holds (r : Reference) (sheet : Option String) (row col : Nat) : Prop :=
  ∃ p ∈ r.parts, p.sheet = sheet ∧ p.range.contains (.relative row col) = true

instance (r : Reference) (sheet : Option String) (row col : Nat) :
    Decidable (r.Holds sheet row col) :=
  inferInstanceAs (Decidable (∃ p ∈ r.parts, _))

/-- Every cell of the reference is in one of those listed. -/
def Covered (listed : List Reference) (r : Reference) : Prop :=
  ∀ sheet row col, r.Holds sheet row col → ∃ s ∈ listed, s.Holds sheet row col

theorem mem_partsOf {rs : List Reference} {p : RangeRef} :
    p ∈ partsOf rs ↔ ∃ r ∈ rs, p ∈ r.parts := by
  induction rs with
  | nil => exact ⟨fun h => absurd h List.not_mem_nil, fun ⟨_, h, _⟩ => absurd h List.not_mem_nil⟩
  | cons r rs ih => simp [partsOf, ih]

theorem Covered.of_mem {listed : List Reference} (h : r ∈ listed) : Covered listed r :=
  fun _ _ _ hr => ⟨r, h, hr⟩

theorem holds_union {rs : List Reference} :
    (Reference.union rs).Holds sheet row col ↔ ∃ r ∈ rs, r.Holds sheet row col := by
  simp only [Holds, parts, mem_partsOf]
  constructor
  · rintro ⟨p, ⟨r, hr, hp⟩, h⟩
    exact ⟨r, hr, p, hp, h⟩
  · rintro ⟨r, hr, p, hp, h⟩
    exact ⟨p, ⟨r, hr, hp⟩, h⟩

theorem covered_union {listed rs : List Reference} :
    Covered listed (.union rs) ↔ ∀ r ∈ rs, Covered listed r := by
  simp only [Covered, holds_union]
  constructor
  · exact fun h r hr sheet row col hold => h sheet row col ⟨r, hr, hold⟩
  · rintro h sheet row col ⟨r, hr, hold⟩
    exact h r hr sheet row col hold

end Reference

end Spreadsheet
