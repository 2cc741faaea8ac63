import Mathlib.Data.Finset.Prod
import Spreadsheet.Dependency
import Spreadsheet.Proofs.Dependency.Multimap
import Spreadsheet.Proofs.References

/-!
A dependency table is a plain set of edges from areas to cells. Each operation on the table is the
operation on the set, and so is every run of operations.
-/

namespace Spreadsheet

/-- What changes a dependency table. -/
inductive TableOp
  | add (r : Reference) (cell : CellKey)
  | register (e : Expr) (cell : CellKey)
  | remove (r : Reference) (default : Nat)
  | removeDependent (cell : CellKey)
  | clear

inductive TableAnswer
  | done
  | count (n : Nat)
  | unknownSheet (e : UnknownSheet)

namespace EdgeSet

/-- The first name of a sheet that no sheet has in any letter case. -/
def unknown? (sheets : List String) (parts : List RangeRef) : Option String :=
  (parts.filterMap RangeRef.sheet).find? fun name => !sheets.any (Unicode.sameAscii · name)

/-- The number of a sheet that is known or left out. -/
def sheetOf (sheets : List String) (default : Nat) : Option String → Nat
  | some name => sheets.findIdx (Unicode.sameAscii · name)
  | none => default

def areas (sheets : List String) (default : Nat) (parts : List RangeRef) : List Area :=
  parts.map fun p => .ofRange (sheetOf sheets default p.sheet) p.range

/-- An operation on a set of edges. An unknown sheet leaves the set as it is. -/
def step (sheets : List String) (E : Finset (Area × CellKey)) :
    TableOp → TableAnswer × Finset (Area × CellKey)
  | .add r cell =>
    match unknown? sheets r.parts with
    | some name => (.unknownSheet ⟨name⟩, E)
    | none => (.done, E ∪ (areas sheets cell.sheet r.parts).toFinset ×ˢ {cell})
  | .register e cell =>
    match unknown? sheets (Reference.partsOf e.references) with
    | some name => (.unknownSheet ⟨name⟩, E)
    | none =>
      (.count e.references.length,
        E ∪ (areas sheets cell.sheet (Reference.partsOf e.references)).toFinset ×ˢ {cell})
  | .remove r default =>
    match unknown? sheets r.parts with
    | some name => (.unknownSheet ⟨name⟩, E)
    | none =>
      let gone := areas sheets default r.parts
      (.count (E.filter (·.1 ∈ gone)).card, E.filter (·.1 ∉ gone))
  | .removeDependent cell => (.count (E.filter (·.2 = cell)).card, E.filter (·.2 ≠ cell))
  | .clear => (.done, ∅)

/-- Operations in turn, with the answer to each. -/
def run (sheets : List String) (E : Finset (Area × CellKey)) :
    List TableOp → List TableAnswer × Finset (Area × CellKey)
  | [] => ([], E)
  | op :: ops =>
    let (answer, E) := step sheets E op
    let (answers, E) := run sheets E ops
    (answer :: answers, E)

end EdgeSet

namespace DependencyTable

/-- An operation on a table. A failing one leaves the table as it is. -/
def apply (t : DependencyTable) : TableOp → TableAnswer × DependencyTable
  | .add r cell =>
    match t.add r cell with
    | .ok t' => (.done, t')
    | .error e => (.unknownSheet e, t)
  | .register e cell =>
    match t.register e cell with
    | .ok (n, t') => (.count n, t')
    | .error e => (.unknownSheet e, t)
  | .remove r default =>
    match t.remove r default with
    | .ok (n, t') => (.count n, t')
    | .error e => (.unknownSheet e, t)
  | .removeDependent cell =>
    let (n, t') := t.removeDependent cell
    (.count n, t')
  | .clear => (.done, t.clear)

def run (t : DependencyTable) : List TableOp → List TableAnswer × DependencyTable
  | [] => ([], t)
  | op :: ops =>
    let (answer, t) := t.apply op
    let (answers, t) := t.run ops
    (answer :: answers, t)

/-- The two maps are in order and tell the same edges. -/
structure Consistent (t : DependencyTable) : Prop where
  dependents : t.dependents.WellFormed
  precedents : t.precedents.WellFormed
  agree : ∀ area cell, area ∈ t.precedents.get cell ↔ cell ∈ t.dependents.get area

/-- The edges that the table records. -/
def edges (t : DependencyTable) : Finset (Area × CellKey) := t.dependents.pairs.toFinset

theorem mem_edges {t : DependencyTable} {edge : Area × CellKey} :
    edge ∈ t.edges ↔ edge ∈ t.dependents.pairs :=
  List.mem_toFinset

theorem Consistent.of_pairs {t : DependencyTable} (hd : t.dependents.WellFormed)
    (hp : t.precedents.WellFormed)
    (h : ∀ area cell, (cell, area) ∈ t.precedents.pairs ↔ (area, cell) ∈ t.dependents.pairs) :
    t.Consistent :=
  ⟨hd, hp, fun area cell => by rw [hp.mem_get, hd.mem_get, h]⟩

theorem Consistent.mem_precedents {t : DependencyTable} (h : t.Consistent) {area : Area}
    {cell : CellKey} : (cell, area) ∈ t.precedents.pairs ↔ (area, cell) ∈ t.dependents.pairs := by
  rw [← h.precedents.mem_get, ← h.dependents.mem_get, h.agree]

theorem Consistent.ofSheets (sheets : List String) : (ofSheets sheets).Consistent :=
  .of_pairs .nil .nil fun _ _ => ⟨fun h => absurd h List.not_mem_nil,
    fun h => absurd h List.not_mem_nil⟩

theorem Consistent.size_eq {t : DependencyTable} (h : t.Consistent) : t.size = t.edges.card := by
  rw [edges, List.toFinset_card_of_nodup h.dependents.nodup_pairs]
  exact (Multimap.length_pairs _).symm

theorem Consistent.isEmpty_iff {t : DependencyTable} (h : t.Consistent) :
    t.isEmpty = true ↔ t.edges = ∅ := by
  rw [edges, List.toFinset_eq_empty_iff, h.dependents.pairs_eq_nil_iff]
  exact List.isEmpty_iff

/-! ### Sheets -/

theorem unknown?_append (sheets : List String) (ps qs : List RangeRef) :
    EdgeSet.unknown? sheets (ps ++ qs) =
      (EdgeSet.unknown? sheets ps).or (EdgeSet.unknown? sheets qs) := by
  unfold EdgeSet.unknown?
  rw [List.filterMap_append, List.find?_append]

/-- The areas of parts that name only known sheets, or the first name that is unknown. -/
def resolve (sheets : List String) (default : Nat) (parts : List RangeRef) :
    Except UnknownSheet (List Area) :=
  match EdgeSet.unknown? sheets parts with
  | some name => .error ⟨name⟩
  | none => .ok (EdgeSet.areas sheets default parts)

theorem resolve_append (sheets : List String) (default : Nat) (ps qs : List RangeRef) :
    resolve sheets default (ps ++ qs) = do
      let here ← resolve sheets default ps
      return here ++ (← resolve sheets default qs) := by
  unfold resolve
  rw [unknown?_append]
  cases EdgeSet.unknown? sheets ps with
  | some name => rfl
  | none =>
    cases EdgeSet.unknown? sheets qs with
    | some name => rfl
    | none => exact congrArg Except.ok List.map_append

theorem sheetIndex_eq (t : DependencyTable) (name : String) :
    t.sheetIndex name =
      if t.sheets.any (Unicode.sameAscii · name) then
        .ok (t.sheets.findIdx (Unicode.sameAscii · name))
      else .error ⟨name⟩ := by
  unfold sheetIndex
  cases hidx : t.sheets.findIdx? (Unicode.sameAscii · name) with
  | none =>
    have hnone : ¬ t.sheets.any (Unicode.sameAscii · name) = true := by
      rw [List.any_eq_true]
      rintro ⟨s, hs, hname⟩
      rw [List.findIdx?_eq_none_iff.1 hidx s hs] at hname
      cases hname
    rw [if_neg hnone]
  | some i =>
    obtain ⟨hlt, rfl⟩ := List.findIdx?_eq_some_iff_findIdx_eq.1 hidx
    rw [if_pos (List.any_eq_true.2 ⟨_, List.getElem_mem hlt, List.findIdx_getElem (w := hlt)⟩)]

theorem resolve_single (t : DependencyTable) (default : Nat) (p : RangeRef) :
    resolve t.sheets default [p] = do
      return [.ofRange (← t.sheetOr default p.sheet) p.range] := by
  obtain ⟨sheet, range⟩ := p
  cases sheet with
  | none => rfl
  | some name =>
    rw [sheetOr, sheetIndex_eq]
    by_cases hknown : t.sheets.any (Unicode.sameAscii · name) = true
    · simp [resolve, EdgeSet.unknown?, hknown, EdgeSet.areas, EdgeSet.sheetOf, bind, Except.bind,
        pure, Except.pure]
    · simp [resolve, EdgeSet.unknown?, hknown, bind, Except.bind]

mutual

theorem areas_eq (t : DependencyTable) (default : Nat) :
    (r : Reference) → t.areas default r = resolve t.sheets default r.parts
  | .cell r => by
    rw [Reference.parts, resolve_single, areas]
  | .range r => by
    rw [Reference.parts, resolve_single, areas]
  | .union parts => by
    rw [Reference.parts, areas, areasOf_eq t default parts]

theorem areasOf_eq (t : DependencyTable) (default : Nat) :
    (rs : List Reference) → t.areasOf default rs = resolve t.sheets default (Reference.partsOf rs)
  | [] => rfl
  | r :: rest => by
    rw [Reference.partsOf, resolve_append, areasOf, areas_eq t default r,
      areasOf_eq t default rest]

end

/-! ### Edges -/

theorem Consistent.link {t : DependencyTable} (h : t.Consistent) (area : Area) (cell : CellKey) :
    (t.link area cell).Consistent := by
  refine .of_pairs (h.dependents.insert area cell) (h.precedents.insert cell area) fun a c => ?_
  unfold DependencyTable.link
  rw [Multimap.mem_pairs_insert, Multimap.mem_pairs_insert, h.mem_precedents, Prod.mk.injEq,
    Prod.mk.injEq, and_comm]

theorem edges_link (t : DependencyTable) (area : Area) (cell : CellKey) :
    (t.link area cell).edges = insert (area, cell) t.edges := by
  ext ⟨a, c⟩
  rw [Finset.mem_insert, mem_edges, mem_edges]
  exact Multimap.mem_pairs_insert

theorem linkAll_refines {t : DependencyTable} (h : t.Consistent) (areas : List Area)
    (cell : CellKey) :
    (t.linkAll areas cell).Consistent ∧ (t.linkAll areas cell).sheets = t.sheets ∧
      (t.linkAll areas cell).edges = t.edges ∪ areas.toFinset ×ˢ {cell} := by
  induction areas generalizing t with
  | nil => exact ⟨h, rfl, by simp [linkAll]⟩
  | cons area areas ih =>
    obtain ⟨hc, hs, he⟩ := ih (h.link area cell)
    refine ⟨hc, hs, ?_⟩
    show ((t.link area cell).linkAll areas cell).edges = _
    rw [he, edges_link]
    ext ⟨a, c⟩
    simp only [Finset.mem_union, Finset.mem_insert, Finset.mem_product, List.mem_toFinset,
      Finset.mem_singleton, List.mem_cons, Prod.mk.injEq]
    tauto

/-- A list without duplicates counts the elements of a set that it is mapped to one by one. -/
theorem length_eq_card [DecidableEq β] {l : List α} {f : α → β} {s : Finset β} (hl : l.Nodup)
    (hf : Function.Injective f) (hs : ∀ b, b ∈ s ↔ ∃ a ∈ l, f a = b) : l.length = s.card := by
  have hmap : s = (l.map f).toFinset := by
    ext b
    rw [hs, List.mem_toFinset, List.mem_map]
  rw [hmap, List.toFinset_card_of_nodup (hl.map hf), List.length_map]

/-- The edges from an area, as the list under it counts them. -/
theorem length_dependents {t : DependencyTable} (h : t.Consistent) (area : Area) :
    (t.dependents.get area).length = (t.edges.filter (·.1 = area)).card := by
  refine length_eq_card (f := (area, ·)) (h.dependents.nodup_get area)
    (fun _ _ he => congrArg Prod.snd he) ?_
  rintro ⟨a, c⟩
  simp only [Finset.mem_filter, mem_edges, Prod.mk.injEq, h.dependents.mem_get]
  constructor
  · rintro ⟨hmem, rfl⟩
    exact ⟨c, hmem, rfl, rfl⟩
  · rintro ⟨_, hmem, rfl, rfl⟩
    exact ⟨hmem, rfl⟩

theorem length_precedents {t : DependencyTable} (h : t.Consistent) (cell : CellKey) :
    (t.precedents.get cell).length = (t.edges.filter (·.2 = cell)).card := by
  refine length_eq_card (f := (·, cell)) (h.precedents.nodup_get cell)
    (fun _ _ he => congrArg Prod.fst he) ?_
  rintro ⟨a, c⟩
  simp only [Finset.mem_filter, mem_edges, Prod.mk.injEq, h.precedents.mem_get, h.mem_precedents]
  constructor
  · rintro ⟨hmem, rfl⟩
    exact ⟨a, hmem, rfl, rfl⟩
  · rintro ⟨_, hmem, rfl, rfl⟩
    exact ⟨hmem, rfl⟩

theorem dropArea_refines {t : DependencyTable} (h : t.Consistent) (area : Area) :
    (t.dropArea area).Consistent ∧ (t.dropArea area).edges = t.edges.filter (·.1 ≠ area) := by
  have hprec : (t.dropArea area).precedents =
      t.precedents.eraseAll ((t.dependents.get area).map (·, area)) := by
    rw [Multimap.eraseAll, List.foldl_map]
    rfl
  refine ⟨.of_pairs (h.dependents.eraseKey area) ?_ fun a c => ?_, ?_⟩
  · rw [hprec]
    exact h.precedents.eraseAll _
  · have hmem : (c, a) ∈ (t.dependents.get area).map (·, area) ↔
        c ∈ t.dependents.get area ∧ a = area := by
      simp [eq_comm]
    rw [hprec, Multimap.mem_pairs_eraseAll h.precedents, hmem, h.mem_precedents, dropArea,
      Multimap.mem_pairs_eraseKey, h.dependents.mem_get]
    refine and_congr_right fun hedge => not_congr ⟨And.right, ?_⟩
    rintro rfl
    exact ⟨hedge, rfl⟩
  · ext ⟨a, c⟩
    rw [Finset.mem_filter, mem_edges, mem_edges]
    exact Multimap.mem_pairs_eraseKey

theorem dropAreas_refines {t : DependencyTable} (h : t.Consistent) (areas : List Area) :
    (t.dropAreas areas).2.Consistent ∧ (t.dropAreas areas).2.sheets = t.sheets ∧
      (t.dropAreas areas).1 = (t.edges.filter (·.1 ∈ areas)).card ∧
      (t.dropAreas areas).2.edges = t.edges.filter (·.1 ∉ areas) := by
  induction areas generalizing t with
  | nil => exact ⟨h, rfl, by simp [dropAreas], by simp [dropAreas]⟩
  | cons area areas ih =>
    obtain ⟨hc, he⟩ := dropArea_refines h area
    obtain ⟨hc', hs, hn, he'⟩ := ih hc
    refine ⟨hc', hs, ?_, ?_⟩
    · have hdisjoint : Disjoint (t.edges.filter (·.1 = area))
          ((t.edges.filter (·.1 ≠ area)).filter (·.1 ∈ areas)) := by
        rw [Finset.disjoint_left]
        intro edge h₁ h₂
        exact (Finset.mem_filter.1 (Finset.mem_filter.1 h₂).1).2 (Finset.mem_filter.1 h₁).2
      show (t.dependents.get area).length + ((t.dropArea area).dropAreas areas).1 = _
      rw [length_dependents h, hn, he, ← Finset.card_union_of_disjoint hdisjoint]
      congr 1
      ext edge
      simp only [Finset.mem_union, Finset.mem_filter, List.mem_cons]
      tauto
    · show ((t.dropArea area).dropAreas areas).2.edges = _
      rw [he', he, Finset.filter_filter]
      refine Finset.filter_congr fun edge _ => ?_
      rw [List.mem_cons, not_or]

theorem removeDependent_refines {t : DependencyTable} (h : t.Consistent) (cell : CellKey) :
    (t.removeDependent cell).2.Consistent ∧
      (t.removeDependent cell).1 = (t.edges.filter (·.2 = cell)).card ∧
      (t.removeDependent cell).2.edges = t.edges.filter (·.2 ≠ cell) := by
  have hdep : (t.removeDependent cell).2.dependents =
      t.dependents.eraseAll ((t.precedents.get cell).map (·, cell)) := by
    rw [Multimap.eraseAll, List.foldl_map]
    rfl
  have hpairs (a : Area) (c : CellKey) : (a, c) ∈ (t.removeDependent cell).2.dependents.pairs ↔
      (a, c) ∈ t.dependents.pairs ∧ c ≠ cell := by
    have hmem : (a, c) ∈ (t.precedents.get cell).map (·, cell) ↔
        a ∈ t.precedents.get cell ∧ c = cell := by
      simp [eq_comm]
    rw [hdep, Multimap.mem_pairs_eraseAll h.dependents, hmem, h.precedents.mem_get,
      h.mem_precedents]
    refine and_congr_right fun hedge => not_congr ⟨And.right, ?_⟩
    rintro rfl
    exact ⟨hedge, rfl⟩
  refine ⟨.of_pairs ?_ (h.precedents.eraseKey cell) fun a c => ?_, length_precedents h cell, ?_⟩
  · rw [hdep]
    exact h.dependents.eraseAll _
  · rw [hpairs, ← h.mem_precedents]
    exact Multimap.mem_pairs_eraseKey
  · ext ⟨a, c⟩
    rw [Finset.mem_filter, mem_edges, mem_edges]
    exact hpairs a c

/-! ### Runs -/

/-- One operation keeps the table consistent and is the operation on its edges. -/
theorem apply_refines {t : DependencyTable} (h : t.Consistent) (op : TableOp) :
    (t.apply op).2.Consistent ∧ (t.apply op).2.sheets = t.sheets ∧
      ((t.apply op).1, (t.apply op).2.edges) = EdgeSet.step t.sheets t.edges op := by
  cases op with
  | add r cell =>
    rw [apply, EdgeSet.step, DependencyTable.add, areas_eq, resolve]
    cases EdgeSet.unknown? t.sheets r.parts with
    | some name => exact ⟨h, rfl, rfl⟩
    | none =>
      obtain ⟨hc, hs, he⟩ := linkAll_refines h (EdgeSet.areas t.sheets cell.sheet r.parts) cell
      exact ⟨hc, hs, congrArg (TableAnswer.done, ·) he⟩
  | register e cell =>
    rw [apply, EdgeSet.step, DependencyTable.register, areasOf_eq, resolve]
    cases EdgeSet.unknown? t.sheets (Reference.partsOf e.references) with
    | some name => exact ⟨h, rfl, rfl⟩
    | none =>
      obtain ⟨hc, hs, he⟩ := linkAll_refines h
        (EdgeSet.areas t.sheets cell.sheet (Reference.partsOf e.references)) cell
      exact ⟨hc, hs, congrArg (TableAnswer.count e.references.length, ·) he⟩
  | remove r default =>
    rw [apply, EdgeSet.step, DependencyTable.remove, areas_eq, resolve]
    cases EdgeSet.unknown? t.sheets r.parts with
    | some name => exact ⟨h, rfl, rfl⟩
    | none =>
      obtain ⟨hc, hs, hn, he⟩ := dropAreas_refines h (EdgeSet.areas t.sheets default r.parts)
      exact ⟨hc, hs, Prod.ext (congrArg TableAnswer.count hn) he⟩
  | removeDependent cell =>
    obtain ⟨hc, hn, he⟩ := removeDependent_refines h cell
    exact ⟨hc, rfl, Prod.ext (congrArg TableAnswer.count hn) he⟩
  | clear => exact ⟨.ofSheets t.sheets, rfl, rfl⟩

/-- Operations in turn keep the table consistent and are the operations on its edges. -/
theorem run_refines {t : DependencyTable} (h : t.Consistent) (ops : List TableOp) :
    (t.run ops).2.Consistent ∧
      ((t.run ops).1, (t.run ops).2.edges) = EdgeSet.run t.sheets t.edges ops := by
  induction ops generalizing t with
  | nil => exact ⟨h, rfl⟩
  | cons op ops ih =>
    obtain ⟨hc, hs, hstep⟩ := apply_refines h op
    obtain ⟨hc', hrun⟩ := ih hc
    refine ⟨hc', ?_⟩
    rw [EdgeSet.run, ← hstep, ← hs]
    dsimp only
    rw [← hrun]
    rfl

theorem fold_inj {row col row' col' : Nat} (hc : col < CellKey.rowStride)
    (hc' : col' < CellKey.rowStride) :
    CellKey.fold row col = CellKey.fold row' col' ↔ row = row' ∧ col = col' := by
  unfold CellKey.fold CellKey.rowStride at *
  omega

end DependencyTable

end Spreadsheet
