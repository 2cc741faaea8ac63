import Spreadsheet.Proofs.Evaluation.Kinds

/-!
Values that hold no reference. Built-in functions make such values from such arguments.
-/

namespace Spreadsheet

/-- The value is no reference and holds none. -/
inductive Value.Plain : Value → Prop
  | number (x : Float) : Plain (.number x)
  | text (s : String) : Plain (.text s)
  | boolean (b : Bool) : Plain (.boolean b)
  | error (e : ErrorValue) : Plain (.error e)
  | array {rows : List (List Value)} (h : ∀ row ∈ rows, ∀ v ∈ row, Plain v) : Plain (.array rows)
  | empty : Plain .empty

attribute [simp] Value.Plain.number Value.Plain.text Value.Plain.boolean Value.Plain.error
  Value.Plain.empty

/-- Rows of values that hold no reference. -/
def PlainRows (rows : List (List Value)) : Prop := ∀ row ∈ rows, ∀ v ∈ row, v.Plain

@[simp]
theorem plain_array {rows : List (List Value)} : (Value.array rows).Plain ↔ PlainRows rows :=
  ⟨fun h => by cases h; assumption, .array⟩

theorem Value.Plain.ne_reference {v : Value} (h : v.Plain) (r : Reference) : v ≠ .reference r := by
  rintro rfl
  cases h

theorem Value.Plain.toRows {v : Value} (h : v.Plain) : PlainRows v.toRows := by
  cases h with
  | array h => exact h
  | _ => simp [PlainRows, Value.toRows]

theorem Value.Plain.elements {v : Value} (h : v.Plain) : ∀ w ∈ v.elements, w.Plain := by
  cases h with
  | array h =>
    intro w hw
    obtain ⟨row, hrow, hw⟩ := List.mem_flatten.1 hw
    exact h row hrow w hw
  | _ => simp [Value.elements]

theorem PlainRows.padRows (h : PlainRows rows) : PlainRows (padRows rows) := by
  unfold Spreadsheet.padRows
  split
  · simp [PlainRows]
  · intro row hrow v hv
    obtain ⟨row, hrow', rfl⟩ := List.mem_map.1 hrow
    rcases List.mem_append.1 hv with hv | hv
    · exact h row hrow' v hv
    · rw [List.eq_of_mem_replicate hv]
      exact .empty

theorem hasSimple_plain : HasSimple Value.Plain := by
  intro v h
  cases h <;> constructor

/-- Cells and ranges hold no references. -/
structure Source.Plain (source : Source) : Prop where
  cell : ∀ ref v, source.cell ref = .ok v → v.Plain
  range : ∀ ref rows, source.range ref = .ok rows → PlainRows rows

theorem Source.Plain.gives {source : Source} (h : source.Plain) : source.Gives Value.Plain where
  cell := h.cell
  range := fun ref rows hrows => .array (h.range ref rows hrows).padRows
  elements := fun _ hv => hv.elements
  row := fun _ hrow => .array fun _ hr => List.mem_singleton.1 hr ▸ hrow

theorem Value.Plain.readable {v : Value} {allowed : Reference → Prop} (h : v.Plain) :
    v.Readable Value.Plain source allowed :=
  .of_kind h fun r hr => absurd hr (h.ne_reference r)

/-! ### Built-in functions -/

namespace Matrix

theorem mmult_plain : Keeps Value.Plain mmult := by
  intro args _
  simp [mmult, PlainRows]

theorem transpose_plain : Keeps Value.Plain transpose :=
  transpose_maps fun _ hv => .array (transpose_values hv.toRows)

end Matrix

namespace Lookup

theorem element_plain (h : PlainRows rows) (i j : Nat) : (element rows i j).Plain := by
  refine element_has (.array h) h (fun vs hvs => .array fun row hrow w hw => ?_)
    (fun vs hvs => .array fun row hrow => List.mem_singleton.1 hrow ▸ hvs) .empty i j
  obtain ⟨v, hv, rfl⟩ := List.mem_map.1 hrow
  exact List.mem_singleton.1 hw ▸ hvs v hv

theorem index_plain : Keeps Value.Plain index :=
  index_maps fun _ hv => element_plain hv.toRows

end Lookup

theorem builtins_plain {source : Source} {allowed : Reference → Prop} :
    ∀ f ∈ builtins, f.name ≠ "SUMIF" → f.Bounded Value.Plain source allowed := by
  intro f hf hname
  rcases builtins_bounded hasSimple_plain Lookup.index_plain Matrix.mmult_plain
    Matrix.transpose_plain f hf with h | rfl
  · exact h
  · exact absurd rfl hname

end Spreadsheet
