import Spreadsheet.Engine
import Spreadsheet.Proofs.Evaluation.Closed
import Spreadsheet.Proofs.Evaluation.Floats

/-!
The numbers that a formula makes are finite, those in its arrays as far as no product of matrices
overflows: operators and calls check the numbers that they make, but not those in an array.
-/

namespace Spreadsheet

/-! ### Values of finite numbers -/

/-- The second value is the first or an element in it. -/
inductive Value.Holds : Value → Value → Prop
  | self (v : Value) : Holds v v
  | element (hrow : row ∈ rows) (hv : v ∈ row) (h : Holds v w) : Holds (.array rows) w

namespace Value

/-- All numbers in the value are finite. -/
def Finite (v : Value) : Prop := ∀ x, v.Holds (.number x) → x.isFinite = true

/-- All texts in the value that read as numbers read as finite ones. -/
def ReadsFinite (v : Value) : Prop :=
  ∀ s x, v.Holds (.text s) → Number.read? s = some x → x.isFinite = true

theorem Holds.trans {u v w : Value} (h : u.Holds v) (h' : v.Holds w) : u.Holds w := by
  induction h with
  | self => exact h'
  | element hrow hv _ ih => exact .element hrow hv (ih h')

theorem Holds.eq_of_ne_array {v w : Value} (h : v.Holds w) (hv : ∀ rows, v ≠ .array rows) :
    w = v := by
  cases h with
  | self => rfl
  | element => exact absurd rfl (hv _)

@[simp]
theorem finite_number : (number x).Finite ↔ x.isFinite = true := by
  constructor
  · exact fun h => h x (.self _)
  · intro h y hy
    cases hy
    exact h

theorem finite_of_ne {v : Value} (harray : ∀ rows, v ≠ .array rows) (hnumber : ∀ x, v ≠ .number x) :
    v.Finite :=
  fun x hx => absurd (hx.eq_of_ne_array harray).symm (hnumber x)

@[simp]
theorem finite_text (s : String) : (text s).Finite := finite_of_ne nofun nofun

@[simp]
theorem finite_boolean (b : Bool) : (boolean b).Finite := finite_of_ne nofun nofun

@[simp]
theorem finite_error (e : ErrorValue) : (error e).Finite := finite_of_ne nofun nofun

@[simp]
theorem finite_empty : empty.Finite := finite_of_ne nofun nofun

@[simp]
theorem finite_reference (r : Reference) : (reference r).Finite := finite_of_ne nofun nofun

theorem finite_array {rows : List (List Value)} :
    (array rows).Finite ↔ ∀ row ∈ rows, ∀ v ∈ row, v.Finite := by
  constructor
  · exact fun h row hrow v hv x hx => h x (.element hrow hv hx)
  · intro h x hx
    cases hx with
    | element hrow hv hx => exact h _ hrow _ hv x hx

theorem readsFinite_number (x : Float) : (number x).ReadsFinite := by
  intro s y hs
  cases hs

theorem readsFinite_array {rows : List (List Value)}
    (h : ∀ row ∈ rows, ∀ v ∈ row, v.ReadsFinite) : (array rows).ReadsFinite := by
  intro s x hs
  cases hs with
  | element hrow hv hs => exact h _ hrow _ hv s x hs

theorem Finite.toRows {v : Value} (h : v.Finite) : (array v.toRows).Finite := by
  cases v with
  | array rows => exact h
  | _ =>
    refine finite_array.2 fun row hrow w hw => ?_
    obtain rfl := List.mem_singleton.1 hrow
    obtain rfl := List.mem_singleton.1 hw
    exact h

theorem Finite.elements {v : Value} (h : v.Finite) : ∀ w ∈ v.elements, w.Finite := by
  cases v with
  | array rows =>
    intro w hw
    obtain ⟨row, hrow, hw⟩ := List.mem_flatten.1 hw
    exact finite_array.1 h row hrow w hw
  | _ => exact fun w hw => List.mem_singleton.1 hw ▸ h

end Value

open Value

theorem finite_padRows {rows : List (List Value)} (h : ∀ row ∈ rows, ∀ v ∈ row, v.Finite) :
    (Value.array (padRows rows)).Finite := by
  refine finite_array.2 fun padded hpadded v hv => ?_
  unfold padRows at hpadded
  split at hpadded
  · obtain rfl := List.mem_singleton.1 hpadded
    obtain rfl := List.mem_singleton.1 hv
    exact finite_empty
  · obtain ⟨row, hrow, rfl⟩ := List.mem_map.1 hpadded
    rcases List.mem_append.1 hv with hv | hv
    · exact h row hrow v hv
    · rw [List.eq_of_mem_replicate hv]
      exact finite_empty

/-! ### Operators -/

theorem finite_yields (x : Float) : Yields (fun y => y.isFinite = true) (finite x) := by
  simp [finite]

theorem ArithmeticOp.apply_yields (op : ArithmeticOp) (a b : Float) :
    Yields (fun y => y.isFinite = true) (op.apply a b) := by
  cases op <;> simp [ArithmeticOp.apply, finite_yields]

/-- An operator makes finite numbers of whatever it is given. -/
theorem ValueOp.onScalars_finite (op : ValueOp) (v w : Value) : (op.onScalars v w).Finite := by
  have hcompute : Yields Value.Finite (op.compute v w) := by
    cases op with
    | arithmetic op => simp [compute, op.apply_yields]
    | comparison op => simp [compute]
    | concat => simp [compute]
  unfold onScalars
  split
  · exact finite_error _
  · exact finite_error _
  · cases h : op.compute v w with
    | error e => exact finite_error e
    | ok x => exact hcompute x h

theorem ValueOp.apply_finite (op : ValueOp) (v w : Value) : (op.apply v w).Finite := by
  rcases apply_of_onScalars op.onScalars_finite v w with h | ⟨rows, heq, h⟩
  · exact h
  · rw [heq]
    exact finite_array.2 h

namespace Value

/-- A number in what becomes of a value is made of something in the value. -/
theorem exists_of_holds_mapNumbers {v : Value} {f : Float → Float}
    (h : (v.mapNumbers f).Holds (.number y)) :
    ∃ w x, v.Holds w ∧ (∀ rows, w ≠ .array rows) ∧ w.toNumber = .ok x ∧ f x = y := by
  have hscalar {v : Value} (hv : ∀ rows, v ≠ .array rows) (h : v.mapNumbers f = .number y) :
      ∃ w x, v.Holds w ∧ (∀ rows, w ≠ .array rows) ∧ w.toNumber = .ok x ∧ f x = y := by
    rw [mapNumbers_of_ne_array hv] at h
    cases hx : v.toNumber with
    | ok x =>
      rw [hx] at h
      exact ⟨v, x, .self v, hv, hx, number.inj h⟩
    | error e =>
      rw [hx] at h
      cases h
  generalize hu : v.mapNumbers f = u at h
  generalize hn : Value.number y = n at h
  induction h generalizing v with
  | self u =>
    subst hn
    cases v with
    | array rows => cases hu
    | _ => exact hscalar nofun hu
  | @element row rows w n hrow hw h ih =>
    by_cases harray : ∃ rows', v = .array rows'
    · obtain ⟨rows', rfl⟩ := harray
      rw [mapNumbers, mapRows_eq] at hu
      cases hu
      obtain ⟨row', hrow', rfl⟩ := List.mem_map.1 hrow
      obtain ⟨w', hw', rfl⟩ := List.mem_map.1 hw
      obtain ⟨u, x, hu, hx⟩ := ih rfl hn
      exact ⟨u, x, .element hrow' hw' hu, hx⟩
    · have hsimple := mapNumbers_simple (fun rows' h => harray ⟨rows', h⟩) f
      rw [hu] at hsimple
      cases hsimple

theorem isFinite_of_toNumber {v : Value} (hv : ∀ rows, v ≠ .array rows) (h : v.Finite)
    (hs : v.ReadsFinite) (hx : v.toNumber = .ok x) : x.isFinite = true := by
  cases v with
  | array rows => exact absurd rfl (hv rows)
  | number y =>
    cases hx
    exact finite_number.1 h
  | boolean b =>
    cases hx
    cases b <;> decide
  | empty =>
    cases hx
    decide
  | text s =>
    simp only [toNumber, scalar] at hx
    cases hread : Number.read? s with
    | none =>
      rw [hread] at hx
      cases hx
    | some y =>
      rw [hread] at hx
      cases hx
      exact hs s _ (.self _) hread
  | error e => cases hx
  | reference r => cases hx

theorem Finite.mapNumbers {v : Value} {f : Float → Float} (h : v.Finite) (hs : v.ReadsFinite)
    (hf : ∀ x, x.isFinite = true → (f x).isFinite = true) : (v.mapNumbers f).Finite := by
  intro y hy
  obtain ⟨w, x, hw, harray, hx, rfl⟩ := exists_of_holds_mapNumbers hy
  refine hf x (isFinite_of_toNumber harray ?_ ?_ hx)
  · exact fun y hy => h y (hw.trans hy)
  · exact fun s y hy => hs s y (hw.trans hy)

end Value

theorem SignOp.apply_finite (op : SignOp) {v : Value} (h : v.Finite) (hs : v.ReadsFinite) :
    (op.apply v).Finite := by
  cases op with
  | plus => exact h
  | negate => exact h.mapNumbers hs fun x hx => isFinite_neg hx

/-! ### Functions -/

variable {source : Source}

theorem finite_close {v : Value} (h : v.Finite) : (Function.close v).Finite := by
  unfold Function.close
  split
  · split
    · exact h
    · exact finite_error _
  · exact h

/-- Whatever simple value a function makes, its call has a finite number or none. -/
theorem finite_close_simple : HasSimple fun v => (Function.close v).Finite := by
  intro v hv
  unfold Function.close
  split
  · split
    · next hx => exact finite_number.2 hx
    · exact finite_error _
  · next hne => exact finite_of_ne (by rintro rows rfl; cases hv) hne

theorem finite_nullValue (c : Category) : c.nullValue.Finite := by
  have hzero : (Value.number 0).Finite := finite_number.2 (by decide)
  cases c <;> first | exact hzero | exact finite_text _

theorem element_finite {rows : List (List Value)} (h : (Value.array rows).Finite) (i j : Nat) :
    (Lookup.element rows i j).Finite := by
  refine Lookup.element_has h (finite_array.1 h) (fun vs hvs => finite_array.2 ?_)
    (fun vs hvs => finite_array.2 fun row hrow => List.mem_singleton.1 hrow ▸ hvs) finite_empty i j
  intro row hrow w hw
  obtain ⟨v, hv, rfl⟩ := List.mem_map.1 hrow
  exact List.mem_singleton.1 hw ▸ hvs v hv

/-- The results of a function hold finite numbers only, those of a function of values at least where
the arguments do. -/
def Function.MakesFinite (source : Source) (f : Function) : Prop :=
  match f.body with
  | .values g => ∀ position, Keeps Value.Finite (g position)
  | .operands g => ∀ position operands v,
      ((g position operands).run source).1 = .ok (.ok v) → v.Finite

theorem Function.MakesFinite.makes {f : Function} (h : f.MakesFinite source) :
    f.Makes Value.Finite (fun v => (close v).Finite) source fun _ => True := by
  unfold MakesFinite at h
  unfold Makes
  cases hbody : f.body with
  | values g =>
    rw [hbody] at h
    exact fun position args hargs => (h position args hargs).imp fun _ => finite_close
  | operands g =>
    rw [hbody] at h
    intro position operands _
    exact Query.within_true_iff.2 fun x hx v hv => finite_close (h position operands v (hv ▸ hx))

/-- Functions other than `MMULT` make finite numbers of finite numbers. -/
theorem makes_of_builtin_or {f : Function} (h : f ∈ builtins ∨ f.MakesFinite source)
    (hf : f.name ≠ "MMULT") :
    f.Makes Value.Finite (fun v => (Function.close v).Finite) source fun _ => True := by
  rcases h with h | h
  · have hindex : Maps Value.Finite (fun v => (Function.close v).Finite) Lookup.index :=
      Lookup.index_maps fun v hv i j => finite_close (element_finite hv.toRows i j)
    have htranspose : Maps Value.Finite (fun v => (Function.close v).Finite) Matrix.transpose :=
      Matrix.transpose_maps fun v hv => finite_close
        (finite_array.2 (Matrix.transpose_values (finite_array.1 hv.toRows)))
    rcases builtins_make finite_close_simple (fun _ => finite_close) hindex htranspose f h with
      h | rfl | rfl
    · exact h
    · exact absurd rfl hf
    · exact Conditional.sumIf_makes finite_close_simple
  · exact h.makes

/-! ### Evaluation -/

/-- The numbers that are written in the expression are finite. -/
structure Expr.Finite (e : Expr) : Prop where
  literal : ∀ l, Occurs (.literal l) e → l.toValue.Finite
  array : ∀ rows, Occurs (.array rows) e → ∀ row ∈ rows, ∀ l ∈ row, l.toValue.Finite

/-- All numbers in the cells and ranges are finite. -/
structure Source.Finite (source : Source) : Prop where
  cell : ∀ ref v, source.cell ref = .ok v → v.Finite
  range : ∀ ref rows, source.range ref = .ok rows → ∀ row ∈ rows, ∀ v ∈ row, v.Finite

theorem Source.Finite.gives (h : source.Finite) : source.Gives Value.Finite where
  cell := h.cell
  range := fun ref rows hrows => finite_padRows (h.range ref rows hrows)
  elements := fun _ hv => hv.elements
  row := fun _ hrow => finite_array.2 fun _ hr => List.mem_singleton.1 hr ▸ hrow

/-- Names are bound to finite numbers, and functions that are not built in make such numbers. -/
structure Scope.Finite (scope : Scope) (source : Source) : Prop where
  names : ∀ entry ∈ scope.names, entry.2.Finite
  functions : ∀ f ∈ scope.functions, f ∈ builtins ∨ f.MakesFinite source

/-- All numbers that an engine gets from outside are finite. -/
structure Engine.Finite (engine : Engine) : Prop where
  source : engine.source.Finite
  scope : ∀ position, (engine.scope position).Finite engine.source

theorem engine_finite : (Engine.new .zero [] []).Finite where
  source := by
    have hzero : (Value.number 0).Finite := finite_number.2 (by decide)
    constructor
    · intro ref v h
      cases h
      exact hzero
    · intro ref rows h
      cases h
      simp [hzero]
  scope position := ⟨fun entry h => absurd h List.not_mem_nil, fun f h => .inl h⟩

/-- The products of matrices in the expression have finite elements. -/
def Expr.ProductsFinite (scope : Scope) (source : Source) (e : Expr) : Prop :=
  ∀ name args, Occurs (.call name args) e → upperName name = "MMULT" →
    ∀ v, ((evaluate scope (.call name args)).run source).1 = .ok v → v.Finite

/-- The texts in the values of the parts of the expression read as finite numbers or as none. -/
def Expr.TextsFinite (scope : Scope) (source : Source) (e : Expr) : Prop :=
  ∀ d, Occurs d e → ∀ v, d.Reads scope source v → v.ReadsFinite

variable {scope : Scope} {e s : Expr}

theorem Closed.finite (he : e.Finite) (hs : source.Finite) (hscope : scope.Finite source)
    (htexts : e.TextsFinite scope source) (hproducts : e.ProductsFinite scope source) :
    Closed Value.Finite scope source e where
  literal := he.literal
  array := by
    intro rows hrows
    refine finite_array.2 fun row hrow v hv => ?_
    obtain ⟨ls, hls, rfl⟩ := List.mem_map.1 hrow
    obtain ⟨l, hl, rfl⟩ := List.mem_map.1 hv
    exact he.array rows hrows ls hls l hl
  reference := finite_reference
  error := finite_error
  empty := finite_empty
  zero := finite_number.2 (by decide)
  names := hscope.names
  read := fun r => r.read_within hs.gives (fun _ _ _ _ => trivial) trivial
  sign := fun op operand hd v hv h =>
    op.apply_finite h (htexts operand (.trans (.sign (.self _)) hd) v hv)
  percent := fun operand hd v hv h =>
    h.mapNumbers (htexts operand (.trans (.percent (.self _)) hd) v hv) fun _ => isFinite_hundredth
  binary := fun op v w _ _ => op.apply_finite v w
  call := by
    intro name args f hd hfind hoperands
    by_cases hmmult : f.name = "MMULT"
    · have hfind' : List.find? (fun f => f.name == upperName name) scope.functions = some f := hfind
      have hname := List.find?_some hfind'
      refine Query.within_true_iff.2 fun v hv => ?_
      refine hproducts name args hd ((eq_of_beq hname).symm.trans hmmult) v ?_
      rw [evaluate, Scope.call, hfind]
      exact hv
    · have hmem := hscope.functions f (List.mem_of_find?_eq_some hfind)
      have hmakes := makes_of_builtin_or hmem hmmult
      exact hmakes.call (finite_nullValue _) (fun e => finite_close (finite_error e))
        (fun v hv => hv)
        scope.position hoperands

/-! ### Numbers outside arrays -/

/-- The value is no number that is not finite; it can be an array that holds one. -/
def Value.FiniteAlone (v : Value) : Prop := ∀ x, v = .number x → x.isFinite = true

theorem Value.Finite.alone {v : Value} (h : v.Finite) : v.FiniteAlone :=
  fun _ hx => finite_number.1 (hx ▸ h)

theorem finiteAlone_array (rows : List (List Value)) : (Value.array rows).FiniteAlone := nofun

theorem Value.FiniteAlone.mapNumbers {v : Value} {f : Float → Float} (h : v.FiniteAlone)
    (hs : v.ReadsFinite) (hf : ∀ x, x.isFinite = true → (f x).isFinite = true) :
    (v.mapNumbers f).FiniteAlone := by
  by_cases harray : ∃ rows, v = .array rows
  · obtain ⟨rows, rfl⟩ := harray
    rw [Value.mapNumbers]
    exact finiteAlone_array _
  · have hfinite : v.Finite := by
      intro x hx
      exact h x (hx.eq_of_ne_array fun rows hrows => harray ⟨rows, hrows⟩).symm
    exact (hfinite.mapNumbers hs hf).alone

theorem finiteAlone_close (v : Value) : (Function.close v).FiniteAlone := by
  unfold Function.close
  split
  · split
    · next hx => exact (finite_number.2 hx).alone
    · exact (finite_error _).alone
  · next hne => exact fun x hx => absurd hx (hne x)

/-- Whatever a function is called with, no call is a number that is not finite. -/
theorem Function.call_finiteAlone (f : Function) (position : Option Position)
    (operands : List Operand) :
    (f.call position operands).Within source (fun _ => True) Value.FiniteAlone := by
  unfold Function.call
  split
  · split
    · exact (Query.within_true _).bind fun x _ => finiteAlone_close _
    · exact (Query.within_true _).bind fun args _ => finiteAlone_close _
  · exact (finite_error _).alone

theorem Closed.finiteAlone (he : e.Finite) (hs : source.Finite) (hscope : scope.Finite source)
    (htexts : e.TextsFinite scope source) : Closed Value.FiniteAlone scope source e where
  literal := fun l hl => (he.literal l hl).alone
  array := fun rows _ => finiteAlone_array _
  reference := fun r => (finite_reference r).alone
  error := fun e => (finite_error e).alone
  empty := finite_empty.alone
  zero := (finite_number.2 (by decide)).alone
  names := fun entry h => (hscope.names entry h).alone
  read := fun r =>
    (r.read_within hs.gives (fun _ _ _ _ => trivial) trivial).imp fun v hv => hv.alone
  sign := by
    intro op operand hd v hv h
    have hreads := htexts operand (.trans (.sign (.self _)) hd) v hv
    cases op with
    | plus => exact h
    | negate => exact h.mapNumbers hreads fun _ => isFinite_neg
  percent := fun operand hd v hv h =>
    h.mapNumbers (htexts operand (.trans (.percent (.self _)) hd) v hv) fun _ => isFinite_hundredth
  binary := fun op v w _ _ => (op.apply_finite v w).alone
  call := fun _ _ f _ _ _ => f.call_finiteAlone _ _

theorem Expr.Finite.of_occurs (h : e.Finite) (hs : s.Occurs e) : s.Finite where
  literal := fun l hl => h.literal l (hl.trans hs)
  array := fun rows hrows => h.array rows (hrows.trans hs)

/-- Where the numbers that a formula starts from are finite, so is every number that a part of it
has for its value, and so are those in arrays if the products of matrices in that part are
finite. -/
theorem numbers_finite (engine : Engine) (position : Option Position) (hengine : engine.Finite)
    (he : e.Finite) (htexts : e.TextsFinite (engine.scope position) engine.source)
    (hs : s.Occurs e) :
    let source := engine.source
    let scope := engine.scope position
    (∀ x, ((evaluate scope s).run source).1 = .ok (.number x) → x.isFinite = true) ∧
    (∀ x, s.Reads scope source (.number x) → x.isFinite = true) ∧
    (s.ProductsFinite scope source →
      (∀ v, ((evaluate scope s).run source).1 = .ok v → v.Finite) ∧
      ∀ v, s.Reads scope source v → v.Finite) := by
  intro source scope
  have htexts : s.TextsFinite scope source := fun d hd => htexts d (hd.trans hs)
  have hscope := hengine.scope position
  have halone := Closed.finiteAlone (he.of_occurs hs) hengine.source hscope htexts
  refine ⟨fun x hx => ?_, fun x hx => ?_, fun hproducts => ?_⟩
  · exact Query.within_true_iff.1 (halone.evaluate_within s (.self s)) _ hx x rfl
  · exact halone.reads s (.self s) _ hx x rfl
  · have hfinite := Closed.finite (he.of_occurs hs) hengine.source hscope htexts hproducts
    exact ⟨Query.within_true_iff.1 (hfinite.evaluate_within s (.self s)), hfinite.reads s (.self s)⟩

theorem numbers_finite_percent :
    ∃ e, parseFormula "=A1%" = .ok e ∧
      ((evaluate ((Engine.new .zero [] []).scope none) e).run .zero).1 = .ok (.number (0 / 100)) ∧
      (0 / 100 : Float).isFinite = true := by
  let scope := (Engine.new .zero [] []).scope none
  have hlex : tokenize "=A1%" = .ok ⟨[⟨.cell (.relative 1 1), "A1", ⟨1, 2⟩, false⟩,
    ⟨.symbol .percent, "%", ⟨1, 4⟩, false⟩], ⟨1, 5⟩, false⟩ := rfl
  have hparse : parseFormula "=A1%" = .ok (.percent (.cell ⟨none, .relative 1 1⟩)) := by
    rw [parseFormula, hlex]
    rfl
  have hvalue : ((evaluate scope (.percent (.cell ⟨none, .relative 1 1⟩))).run .zero).1 =
      .ok (.number (0 / 100)) := rfl
  have he : (Expr.percent (.cell ⟨none, .relative 1 1⟩)).Finite := by
    constructor
    · intro l h
      cases h with
      | percent h => cases h
    · intro rows h
      cases h with
      | percent h => cases h
  have htexts : (Expr.percent (.cell ⟨none, .relative 1 1⟩)).TextsFinite scope .zero := by
    intro d hd v hv
    cases hd with
    | self =>
      cases hv
      exact readsFinite_number _
    | percent hd =>
      cases hd
      cases hv
      exact readsFinite_number _
  exact ⟨_, hparse, hvalue, (numbers_finite _ none engine_finite he htexts (.self _)).1 _ hvalue⟩

/-- The products of two matrices are not checked: `1E200` times itself is infinite. -/
theorem not_finite_mmult :
    ¬ ∀ (engine : Engine) (position : Option Position) (text : String) (e s : Expr),
      engine.Finite → parseFormula text = .ok e → e.Finite →
      e.TextsFinite (engine.scope position) engine.source → s.Occurs e →
      (∃ name args, s = .call name args) →
      ∀ v, ((evaluate (engine.scope position) s).run engine.source).1 = .ok v → v.Finite := by
  intro h
  have hlex : tokenize "=MMULT(\x7b1E200\x7d,\x7b1E200\x7d)" = .ok ⟨[
    ⟨.ident "MMULT", "MMULT", ⟨1, 2⟩, false⟩,
    ⟨.symbol .leftParen, "(", ⟨1, 7⟩, false⟩, ⟨.symbol .leftBrace, "\x7b", ⟨1, 8⟩, false⟩,
    ⟨.number 1e200, "1E200", ⟨1, 9⟩, false⟩, ⟨.symbol .rightBrace, "\x7d", ⟨1, 14⟩, false⟩,
    ⟨.symbol .comma, ",", ⟨1, 15⟩, false⟩, ⟨.symbol .leftBrace, "\x7b", ⟨1, 16⟩, false⟩,
    ⟨.number 1e200, "1E200", ⟨1, 17⟩, false⟩, ⟨.symbol .rightBrace, "\x7d", ⟨1, 22⟩, false⟩,
    ⟨.symbol .rightParen, ")", ⟨1, 23⟩, false⟩], ⟨1, 24⟩, false⟩ := rfl
  have hparse : parseFormula "=MMULT(\x7b1E200\x7d,\x7b1E200\x7d)" = .ok (.call "MMULT"
      [.array [[.number 1e200]], .array [[.number 1e200]]]) := by
    rw [parseFormula, hlex]
    rfl
  have hvalue : ((evaluate ((Engine.new .zero [] []).scope none) (.call "MMULT"
      [.array [[.number 1e200]], .array [[.number 1e200]]])).run Source.zero).1 =
        .ok (.array [[.number (Number.sum [1e200 * 1e200])]]) := by
    rfl
  have hfinite := h (.new .zero [] []) none _ _ _ engine_finite hparse ?_ ?_ (.self _)
    ⟨_, _, rfl⟩ _ hvalue
  · have hinfinite := hfinite _ (.element List.mem_cons_self List.mem_cons_self (.self _))
    exact absurd hinfinite (by decide +kernel)
  · constructor
    · intro l h
      cases h with
      | call ha h =>
        rcases List.mem_pair.1 ha with rfl | rfl <;> cases h
    · intro rows h
      cases h with
      | call ha h =>
        rcases List.mem_pair.1 ha with rfl | rfl <;>
        · cases h
          simp [Literal.toValue]
          decide +kernel
  · intro d hd v hv
    cases hd with
    | self =>
      cases hv
      exact readsFinite_array (by simp [readsFinite_number])
    | call ha hd =>
      rcases List.mem_pair.1 ha with rfl | rfl <;>
      · cases hd
        cases hv
        exact readsFinite_array (by simp [readsFinite_number, Literal.toValue])

end Spreadsheet
