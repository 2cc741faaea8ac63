import Spreadsheet.Proofs.Dependency.Edges

/-!
Who reads a cell. A query of a table answers, in the order of sheets, rows and columns and each
once, with exactly the cells whose recorded areas share a cell with what is asked for.
-/

namespace Spreadsheet

def OnSheet (row col : Nat) : Prop := (1 ≤ row ∧ row ≤ maxRow) ∧ 1 ≤ col ∧ col ≤ maxCol

instance : Decidable (OnSheet row col) := inferInstanceAs (Decidable (_ ∧ _))

namespace Range

/-- The corners are on the sheet, and with them all cells of the range. -/
structure OnSheet (r : Range) : Prop where
  topLeft : Spreadsheet.OnSheet r.topLeft.row r.topLeft.col
  bottomRight : Spreadsheet.OnSheet r.bottomRight.row r.bottomRight.col

/-- The ranges have a cell in common. -/
def Meets (r s : Range) : Prop :=
  ∃ row col, r.contains (.relative row col) = true ∧ s.contains (.relative row col) = true

theorem overlaps_iff {r s : Range} : r.overlaps s = true ↔ r.Meets s := by
  have hr := r.row_le
  have hr' := r.col_le
  have hs := s.row_le
  have hs' := s.col_le
  simp only [overlaps, Bool.and_eq_true, decide_eq_true_eq, Meets, contains_iff]
  constructor
  · intro h
    exact ⟨max r.topLeft.row s.topLeft.row, max r.topLeft.col s.topLeft.col, by omega, by omega⟩
  · intro h
    obtain ⟨row, col, h₁, h₂⟩ := h
    omega

end Range

def Reference.OnSheet (r : Reference) : Prop := ∀ p ∈ r.parts, p.range.OnSheet

namespace CellKey

/-- The key stands for a cell within the limits of its sheet. -/
def OnSheet (c : CellKey) : Prop :=
  ∃ row col, Spreadsheet.OnSheet row col ∧ c = .ofIndices c.sheet row col

/-- The order of cells by sheet, row and column. -/
def Before (c d : CellKey) : Prop :=
  c.sheet < d.sheet ∨ c.sheet = d.sheet ∧ (c.row < d.row ∨ c.row = d.row ∧ c.col < d.col)

theorem row_ofIndices {row col : Nat} (sheet : Nat) (h : Spreadsheet.OnSheet row col) :
    (ofIndices sheet row col).row = row := by
  unfold Spreadsheet.OnSheet maxRow maxCol at h
  simp only [CellKey.row, ofIndices, fold, rowStride]
  omega

theorem col_ofIndices {row col : Nat} (sheet : Nat) (h : Spreadsheet.OnSheet row col) :
    (ofIndices sheet row col).col = col := by
  unfold Spreadsheet.OnSheet maxRow maxCol at h
  simp only [CellKey.col, ofIndices, fold, rowStride]
  omega

theorem less_iff {c d : CellKey} :
    c.less d = true ↔ c.sheet < d.sheet ∨ c.sheet = d.sheet ∧ c.key < d.key := by
  simp only [less, Bool.or_eq_true, Bool.and_eq_true, decide_eq_true_eq, beq_iff_eq]

/-- Keys are in the order of the cells that they stand for. -/
theorem less_iff_before {c d : CellKey} (hc : c.OnSheet) (hd : d.OnSheet) :
    c.less d = true ↔ c.Before d := by
  obtain ⟨row, col, h, he⟩ := hc
  obtain ⟨row', col', h', he'⟩ := hd
  have hkey : c.key < d.key ↔ row < row' ∨ row = row' ∧ col < col' := by
    unfold Spreadsheet.OnSheet maxRow maxCol at h h'
    rw [he, he']
    simp only [ofIndices, fold, rowStride]
    omega
  have hrow : c.row = row := he ▸ row_ofIndices c.sheet h
  have hcol : c.col = col := he ▸ col_ofIndices c.sheet h
  have hrow' : d.row = row' := he' ▸ row_ofIndices d.sheet h'
  have hcol' : d.col = col' := he' ▸ col_ofIndices d.sheet h'
  rw [less_iff, Before, hkey, hrow, hcol, hrow', hcol']

/-! ### Sorted lists of cells -/

theorem less_trans {c d e : CellKey} (h : c.less d = true) (h' : d.less e = true) :
    c.less e = true := by
  rw [less_iff] at *
  omega

theorem not_less_self (c : CellKey) : ¬ c.less c = true := by
  rw [less_iff]
  omega

theorem less_of_not_less {c d : CellKey} (h : ¬ c.less d = true) (hne : c ≠ d) :
    d.less c = true := by
  rw [less_iff] at *
  obtain ⟨i, k⟩ := c
  obtain ⟨j, l⟩ := d
  simp only [ne_eq, mk.injEq] at hne
  dsimp only at *
  omega

/-- The cells come in order, each once. -/
def Increasing (cells : List CellKey) : Prop := cells.Pairwise fun c d => c.less d = true

theorem mem_insertSorted {c d : CellKey} {cells : List CellKey} :
    c ∈ insertSorted d cells ↔ c = d ∨ c ∈ cells := by
  induction cells with
  | nil => simp [insertSorted]
  | cons e cells ih =>
    rw [insertSorted]
    split
    · exact List.mem_cons
    · split
      · rename_i he
        rw [he, List.mem_cons]
        tauto
      · rw [List.mem_cons, List.mem_cons, ih]
        exact or_left_comm

theorem Increasing.insertSorted {cells : List CellKey} (h : Increasing cells) (c : CellKey) :
    Increasing (insertSorted c cells) := by
  induction cells with
  | nil => exact List.pairwise_singleton ..
  | cons d cells ih =>
    obtain ⟨hd, hcells⟩ := List.pairwise_cons.1 h
    rw [CellKey.insertSorted]
    split
    · rename_i hless
      refine List.pairwise_cons.2 ⟨?_, h⟩
      intro e he
      rcases List.mem_cons.1 he with rfl | he
      · exact hless
      · exact less_trans hless (hd e he)
    · split
      · exact h
      · rename_i hless hne
        refine List.pairwise_cons.2 ⟨?_, ih hcells⟩
        intro e he
        rcases mem_insertSorted.1 he with rfl | he
        · exact less_of_not_less hless hne
        · exact hd e he

theorem mem_sorted {c : CellKey} {cells : List CellKey} : c ∈ sorted cells ↔ c ∈ cells := by
  induction cells with
  | nil => exact Iff.rfl
  | cons d cells ih =>
    show c ∈ insertSorted d (sorted cells) ↔ _
    rw [mem_insertSorted, ih, List.mem_cons]

theorem increasing_sorted (cells : List CellKey) : Increasing (sorted cells) := by
  induction cells with
  | nil => exact List.Pairwise.nil
  | cons c cells ih => exact ih.insertSorted c

theorem Increasing.nodup {cells : List CellKey} (h : Increasing cells) : cells.Nodup := by
  refine List.Pairwise.imp ?_ h
  rintro c d hless rfl
  exact not_less_self c hless

/-- The order leaves no choice: its members make out a list. -/
theorem Increasing.ext {cells cells' : List CellKey} (h : Increasing cells)
    (h' : Increasing cells') (hmem : ∀ c, c ∈ cells ↔ c ∈ cells') : cells = cells' := by
  have hperm := (List.perm_ext_iff_of_nodup h.nodup h'.nodup).2 hmem
  refine hperm.eq_of_pairwise ?_ h h'
  intro c d _ _ hcd hdc
  exact absurd (less_trans hcd hdc) (not_less_self c)

end CellKey

namespace Area

/-- Folding the corners of a range loses nothing but the `$` flags. -/
theorem contains_range_ofRange (sheet : Nat) {r : Range} (h : r.OnSheet) :
    (ofRange sheet r).range.contains (.relative row col) = r.contains (.relative row col) := by
  have hrow := r.row_le
  have hcol := r.col_le
  have htop := CellKey.row_ofIndices sheet h.topLeft
  have hleft := CellKey.col_ofIndices sheet h.topLeft
  have hbottom := CellKey.row_ofIndices sheet h.bottomRight
  have hright := CellKey.col_ofIndices sheet h.bottomRight
  have hrange : (ofRange sheet r).range = .ofIndices r.topLeft.row r.topLeft.col
      r.bottomRight.row r.bottomRight.col := by
    calc (ofRange sheet r).range
      _ = .ofIndices (CellKey.ofIndices sheet r.topLeft.row r.topLeft.col).row
          (CellKey.ofIndices sheet r.topLeft.row r.topLeft.col).col
          (CellKey.ofIndices sheet r.bottomRight.row r.bottomRight.col).row
          (CellKey.ofIndices sheet r.bottomRight.row r.bottomRight.col).col := rfl
      _ = _ := by rw [htop, hleft, hbottom, hright]
  rw [Bool.eq_iff_iff, hrange, Range.contains_iff, Range.contains_iff]
  simp only [Range.ofIndices, Range.ofCorners, Address.relative]
  omega

theorem meets_iff {a b : Area} :
    a.meets b = true ↔ a.sheet = b.sheet ∧ a.range.Meets b.range := by
  rw [meets, Bool.and_eq_true, beq_iff_eq, Range.overlaps_iff]

theorem ofRange_inj {r s : Range} (hr : r.OnSheet) (hs : s.OnSheet) :
    ofRange i r = ofRange j s ↔ i = j ∧
      r.topLeft.sameCell s.topLeft = true ∧ r.bottomRight.sameCell s.bottomRight = true := by
  have hstride {row col : Nat} (h : OnSheet row col) : col < CellKey.rowStride :=
    Nat.lt_of_le_of_lt h.2.2 (by decide)
  have hfold {row col row' col' : Nat} (h : OnSheet row col) (h' : OnSheet row' col') :
      CellKey.fold row col = CellKey.fold row' col' ↔ row = row' ∧ col = col' :=
    DependencyTable.fold_inj (hstride h) (hstride h')
  simp only [ofRange, mk.injEq, hfold hr.topLeft hs.topLeft, hfold hr.bottomRight hs.bottomRight,
    Address.sameCell, Bool.and_eq_true, beq_iff_eq]

/-- Folded areas overlap just where the ranges do. -/
theorem meets_ofRange {r s : Range} (hr : r.OnSheet) (hs : s.OnSheet) :
    (ofRange i r).meets (ofRange j s) = true ↔ i = j ∧ r.Meets s := by
  simp only [meets_iff, Range.Meets, contains_range_ofRange i hr, contains_range_ofRange j hs]
  rfl

end Area

/-! ### Tables that stay on their sheets -/

def TableOp.OnSheet : TableOp → Prop
  | .add r cell => r.OnSheet ∧ cell.OnSheet
  | .register e cell => (∀ r ∈ e.references, r.OnSheet) ∧ cell.OnSheet
  | .remove r _ => r.OnSheet
  | .removeDependent cell => cell.OnSheet
  | .clear => True

namespace EdgeSet

/-- Every edge leads from a range on a sheet to a cell on a sheet. -/
def OnSheet (E : Finset (Area × CellKey)) : Prop :=
  ∀ edge ∈ E, (∃ sheet r, r.OnSheet ∧ edge.1 = Area.ofRange sheet r) ∧ edge.2.OnSheet

theorem OnSheet.union {E : Finset (Area × CellKey)} (h : OnSheet E) {default : Nat}
    {parts : List RangeRef} (hparts : ∀ p ∈ parts, p.range.OnSheet) (hcell : cell.OnSheet) :
    OnSheet (E ∪ (areas sheets default parts).toFinset ×ˢ {cell}) := by
  intro edge hedge
  rcases Finset.mem_union.1 hedge with hedge | hedge
  · exact h edge hedge
  · obtain ⟨harea, hc⟩ := Finset.mem_product.1 hedge
    obtain ⟨p, hp, he⟩ := List.mem_map.1 (List.mem_toFinset.1 harea)
    exact ⟨⟨_, p.range, hparts p hp, he.symm⟩, Finset.mem_singleton.1 hc ▸ hcell⟩

theorem OnSheet.filter {E : Finset (Area × CellKey)} (h : OnSheet E)
    (p : Area × CellKey → Prop) [DecidablePred p] : OnSheet (E.filter p) :=
  fun edge hedge => h edge (Finset.mem_filter.1 hedge).1

theorem OnSheet.step {E : Finset (Area × CellKey)} (h : OnSheet E) {op : TableOp}
    (hop : op.OnSheet) : OnSheet (step sheets E op).2 := by
  cases op with
  | add r cell =>
    unfold EdgeSet.step
    dsimp only
    split
    · exact h
    · exact h.union hop.1 hop.2
  | register e cell =>
    unfold EdgeSet.step
    dsimp only
    split
    · exact h
    · refine h.union ?_ hop.2
      intro p hp
      obtain ⟨r, hr, hp⟩ := Reference.mem_partsOf.1 hp
      exact hop.1 r hr p hp
  | remove r default =>
    unfold EdgeSet.step
    dsimp only
    split
    · exact h
    · exact h.filter _
  | removeDependent cell => exact h.filter _
  | clear => exact fun _ hedge => absurd hedge (Finset.notMem_empty _)

theorem OnSheet.run {E : Finset (Area × CellKey)} (h : OnSheet E) {ops : List TableOp}
    (hops : ∀ op ∈ ops, op.OnSheet) : OnSheet (run sheets E ops).2 := by
  induction ops generalizing E with
  | nil => exact h
  | cons op ops ih =>
    have hstep : OnSheet (EdgeSet.step sheets E op).2 := h.step (hops op (List.mem_cons_self ..))
    exact ih hstep fun op hop => hops op (List.mem_cons_of_mem _ hop)

end EdgeSet

/-! ### Queries -/

/-- By one of the edges the cell reads a range that has a cell in common with some part of the
reference on the sheet of that part. -/
def EdgeSet.Reads (sheets : List String) (E : Finset (Area × CellKey)) (default : Nat)
    (r : Reference) (c : CellKey) : Prop :=
  ∃ sheet range, range.OnSheet ∧ (Area.ofRange sheet range, c) ∈ E ∧
    ∃ p ∈ r.parts, sheetOf sheets default p.sheet = sheet ∧ p.range.Meets range

namespace DependencyTable

theorem mem_readers {t : DependencyTable} {wanted : List Area} :
    c ∈ t.readers wanted ↔ ∃ area, (area, c) ∈ t.edges ∧ ∃ w ∈ wanted, w.meets area = true := by
  rw [readers, CellKey.mem_sorted, List.mem_flatMap]
  simp only [mem_edges, Multimap.mem_pairs]
  constructor
  · rintro ⟨⟨area, cells⟩, hentry, hc⟩
    by_cases hany : wanted.any (·.meets area) = true
    · rw [if_pos hany] at hc
      exact ⟨area, ⟨cells, hentry, hc⟩, List.any_eq_true.1 hany⟩
    · rw [if_neg hany] at hc
      exact absurd hc List.not_mem_nil
  · rintro ⟨area, ⟨cells, hentry, hc⟩, hany⟩
    refine ⟨(area, cells), hentry, ?_⟩
    rwa [if_pos (List.any_eq_true.2 hany)]

theorem get_eq (t : DependencyTable) (r : Reference) (default : Nat) :
    t.get r default = (resolve t.sheets default r.parts).map t.readers := by
  rw [DependencyTable.get, areas_eq]
  rfl

/-- The readers of several areas are the readers of one and of the others, merged. -/
theorem readers_append (t : DependencyTable) (wanted wanted' : List Area) (cells : List CellKey)
    (h : CellKey.sorted cells = t.readers wanted') :
    t.readers (wanted ++ wanted') = CellKey.sorted (t.readers wanted ++ cells) := by
  refine (CellKey.increasing_sorted _).ext (CellKey.increasing_sorted _) fun c => ?_
  have hcells : c ∈ cells ↔ c ∈ t.readers wanted' := by rw [← h, CellKey.mem_sorted]
  show c ∈ t.readers _ ↔ _
  rw [CellKey.mem_sorted, List.mem_append, hcells]
  simp only [mem_readers, List.mem_append]
  constructor
  · rintro ⟨area, hedge, w, hw | hw, hmeets⟩
    · exact .inl ⟨area, hedge, w, hw, hmeets⟩
    · exact .inr ⟨area, hedge, w, hw, hmeets⟩
  · rintro (⟨area, hedge, w, hw, hmeets⟩ | ⟨area, hedge, w, hw, hmeets⟩)
    · exact ⟨area, hedge, w, .inl hw, hmeets⟩
    · exact ⟨area, hedge, w, .inr hw, hmeets⟩

/-- The answer for a union is the answers for its parts, merged. -/
theorem get_union (t : DependencyTable) (parts : List Reference) (default : Nat) :
    t.get (.union parts) default =
      (parts.mapM (t.get · default)).map fun lists => CellKey.sorted lists.flatten := by
  show (t.areasOf default parts).map t.readers = _
  induction parts with
  | nil => exact congrArg Except.ok (CellKey.increasing_sorted _ |>.ext .nil fun c => by
      show c ∈ t.readers [] ↔ _
      simp [mem_readers, CellKey.sorted])
  | cons r rest ih =>
    rw [areasOf, List.mapM_cons, DependencyTable.get]
    cases t.areas default r with
    | error e => rfl
    | ok here =>
      cases hmore : t.areasOf default rest with
      | error e =>
        rw [hmore] at ih
        cases hlists : rest.mapM (t.get · default) with
        | error e' =>
          rw [hlists] at ih
          cases ih
          rfl
        | ok lists =>
          rw [hlists] at ih
          cases ih
      | ok more =>
        rw [hmore] at ih
        cases hlists : rest.mapM (t.get · default) with
        | error e' =>
          rw [hlists] at ih
          cases ih
        | ok lists =>
          rw [hlists] at ih
          exact congrArg Except.ok
            (t.readers_append here more lists.flatten (Except.ok.inj ih).symm)

theorem sheets_run {t : DependencyTable} (h : t.Consistent) (ops : List TableOp) :
    (t.run ops).2.sheets = t.sheets := by
  induction ops generalizing t with
  | nil => rfl
  | cons op ops ih =>
    obtain ⟨hc, hs, -⟩ := apply_refines h op
    exact (ih hc).trans hs

theorem mem_readers_iff {t : DependencyTable} (h : EdgeSet.OnSheet t.edges) {r : Reference}
    (hr : r.OnSheet) (sheets : List String) (default : Nat) :
    c ∈ t.readers (EdgeSet.areas sheets default r.parts) ↔
      EdgeSet.Reads sheets t.edges default r c := by
  rw [mem_readers]
  constructor
  · intro hc
    obtain ⟨area, hedge, w, hw, hmeets⟩ := hc
    obtain ⟨p, hp, rfl⟩ := List.mem_map.1 hw
    obtain ⟨⟨sheet, range, hrange, he⟩, -⟩ := h _ hedge
    dsimp only at he
    subst he
    obtain ⟨hsheet, hcommon⟩ := (Area.meets_ofRange (hr p hp) hrange).1 hmeets
    exact ⟨sheet, range, hrange, hedge, p, hp, hsheet, hcommon⟩
  · intro hc
    obtain ⟨sheet, range, hrange, hedge, p, hp, hsheet, hcommon⟩ := hc
    exact ⟨_, hedge, _, List.mem_map_of_mem hp,
      (Area.meets_ofRange (hr p hp) hrange).2 ⟨hsheet, hcommon⟩⟩

theorem readers_before {t : DependencyTable} (h : EdgeSet.OnSheet t.edges) (wanted : List Area) :
    (t.readers wanted).Pairwise CellKey.Before := by
  have honSheet : ∀ c ∈ t.readers wanted, c.OnSheet := by
    intro c hc
    obtain ⟨area, hedge, -⟩ := mem_readers.1 hc
    exact (h _ hedge).2
  refine List.Pairwise.imp_of_mem ?_ (CellKey.increasing_sorted _)
  intro c d hc hd hless
  exact (CellKey.less_iff_before (honSheet c hc) (honSheet d hd)).1 hless

/-- The answer for one cell is what the cell key asks for. -/
theorem get_cell {t : DependencyTable} {default : Nat} (hs : t.sheetOr default name = .ok i)
    (a : Address) :
    t.get (.cell ⟨name, a⟩) default = .ok (t.dependentsOf (.ofIndices i a.row a.col)) := by
  rw [DependencyTable.get, areas, hs]
  rfl

/-- Queries of a table that operations on the cells of sheets have made are exact, and folding
keeps apart all cells, ranges and overlaps. -/
theorem queries_exact (sheets : List String) {ops : List TableOp}
    (hops : ∀ op ∈ ops, op.OnSheet) :
    let t := ((ofSheets sheets).run ops).2
    let E := (EdgeSet.run sheets ∅ ops).2
    (∀ (r : Reference) (default : Nat), r.OnSheet →
      match EdgeSet.unknown? sheets r.parts with
      | some name => t.get r default = .error ⟨name⟩
      | none => ∃ cells, t.get r default = .ok cells ∧ cells.Pairwise CellKey.Before ∧
          cells.Nodup ∧ ∀ c, c ∈ cells ↔ EdgeSet.Reads sheets E default r c) ∧
    (∀ (name : Option String) (default i : Nat) (a : Address),
      t.sheetOr default name = .ok i →
        t.get (.cell ⟨name, a⟩) default = .ok (t.dependentsOf (.ofIndices i a.row a.col))) ∧
    (∀ (parts : List Reference) (default : Nat), t.get (.union parts) default =
      (parts.mapM (t.get · default)).map fun lists => CellKey.sorted lists.flatten) ∧
    (∀ sheet row col, OnSheet row col → (CellKey.ofIndices sheet row col).row = row ∧
      (CellKey.ofIndices sheet row col).col = col) ∧
    ∀ (i j : Nat) (r s : Range), r.OnSheet → s.OnSheet →
      (Area.ofRange i r = Area.ofRange j s ↔ i = j ∧
        r.topLeft.sameCell s.topLeft = true ∧ r.bottomRight.sameCell s.bottomRight = true) ∧
      ((Area.ofRange i r).meets (Area.ofRange j s) = true ↔ i = j ∧ r.Meets s) := by
  intro t E
  obtain ⟨-, hrun⟩ := run_refines (.ofSheets sheets) ops
  have hE : t.edges = E := congrArg Prod.snd hrun
  have hsheets : t.sheets = sheets := sheets_run (.ofSheets sheets) ops
  have honSheet : EdgeSet.OnSheet t.edges := by
    rw [hE]
    exact EdgeSet.OnSheet.run (fun _ hedge => absurd hedge (Finset.notMem_empty _)) hops
  refine ⟨?_, ?_, t.get_union, ?_, ?_⟩
  · intro r default hr
    have hget := t.get_eq r default
    rw [hsheets, resolve] at hget
    cases hunknown : EdgeSet.unknown? sheets r.parts with
    | some name =>
      rw [hunknown] at hget
      exact hget
    | none =>
      rw [hunknown] at hget
      refine ⟨_, hget, readers_before honSheet _, (CellKey.increasing_sorted _).nodup, ?_⟩
      intro c
      rw [← hE]
      exact mem_readers_iff honSheet hr sheets default
  · intro name default i a hi
    exact get_cell hi a
  · intro sheet row col h
    exact ⟨CellKey.row_ofIndices sheet h, CellKey.col_ofIndices sheet h⟩
  · intro i j r s hr hs
    exact ⟨Area.ofRange_inj hr hs, Area.meets_ofRange hr hs⟩

theorem queries_exact_columns :
    let ops : List TableOp :=
      [.add (.range ⟨none, .columns 1 3⟩) (.ofIndices 0 1 5),
        .add (.cell ⟨some "sheet2", .relative 7 2⟩) (.ofIndices 0 2 5)]
    (∀ op ∈ ops, op.OnSheet) ∧
      ((ofSheets ["Sheet1", "Sheet2"]).run ops).2.get (.cell ⟨some "SHEET1", .relative 7 2⟩) 1 =
        .ok [.ofIndices 0 1 5] := by
  intro ops
  have hkey (row col : Nat) (h : OnSheet row col) : (CellKey.ofIndices 0 row col).OnSheet :=
    ⟨row, col, h, rfl⟩
  have hops : ∀ op ∈ ops, op.OnSheet := by
    simp only [ops, List.forall_mem_cons, TableOp.OnSheet, Reference.OnSheet, Reference.parts]
    refine ⟨⟨⟨?_, fun _ h => absurd h List.not_mem_nil⟩, hkey 1 5 (by decide)⟩,
      ⟨⟨?_, fun _ h => absurd h List.not_mem_nil⟩, hkey 2 5 (by decide)⟩,
      fun _ h => absurd h List.not_mem_nil⟩
    · exact ⟨by decide, by decide⟩
    · exact ⟨by decide, by decide⟩
  exact ⟨hops, (queries_exact _ hops).2.1 (some "SHEET1") 1 0 (.relative 7 2) rfl⟩

end DependencyTable

end Spreadsheet
