import Mathlib.Tactic.Common
import Spreadsheet.Eval
import Spreadsheet.Proofs.Evaluation.Asked
import Spreadsheet.Proofs.Outcome

/-!
Kinds of values, and how the built-in functions keep to one. Most of them make a number, a text, a
boolean or an error of whatever they are given; the others hand on arguments or their elements.
-/

namespace Spreadsheet

/-- A number, a text, a boolean or an error. -/
inductive Value.Simple : Value → Prop
  | number (x : Float) : Simple (.number x)
  | text (s : String) : Simple (.text s)
  | boolean (b : Bool) : Simple (.boolean b)
  | error (e : ErrorValue) : Simple (.error e)

attribute [simp] Value.Simple.number Value.Simple.text Value.Simple.boolean Value.Simple.error

theorem Literal.toValue_simple (l : Literal) : l.toValue.Simple := by
  cases l <;> constructor

theorem ValueOp.onScalars_simple (op : ValueOp) (v w : Value) : (op.onScalars v w).Simple := by
  have hcompute : Yields Value.Simple (op.compute v w) := by
    cases op <;> simp [compute]
  unfold onScalars
  split
  · exact .error _
  · exact .error _
  · cases h : op.compute v w with
    | error e => exact .error e
    | ok x => exact hcompute x h

theorem exists_mem_of_mem_zipWith {f : α → β → γ} (h : c ∈ List.zipWith f as bs) :
    ∃ a ∈ as, ∃ b ∈ bs, f a b = c := by
  rw [← List.map_uncurry_zip_eq_zipWith] at h
  obtain ⟨⟨a, b⟩, hab, rfl⟩ := List.mem_map.1 h
  exact ⟨a, (List.of_mem_zip hab).1, b, (List.of_mem_zip hab).2, rfl⟩

/-- An operator makes what it makes of values that are no arrays, or an array of such. -/
theorem ValueOp.apply_of_onScalars {op : ValueOp} {p : Value → Prop}
    (h : ∀ v w, p (op.onScalars v w)) (v w : Value) :
    p (op.apply v w) ∨ ∃ rows, op.apply v w = .array rows ∧ ∀ row ∈ rows, ∀ x ∈ row, p x := by
  have hmap (rows : List (List Value)) {f : Value → Value} (hf : ∀ v, p (f v)) :
      ∀ row ∈ rows.map fun row => row.map f, ∀ x ∈ row, p x := by
    intro mapped hmapped x hx
    obtain ⟨row, -, rfl⟩ := List.mem_map.1 hmapped
    obtain ⟨v, -, rfl⟩ := List.mem_map.1 hx
    exact hf v
  unfold apply
  split
  · refine .inr ⟨_, rfl, ?_⟩
    intro row hrow x hx
    obtain ⟨l, -, r, -, rfl⟩ := exists_mem_of_mem_zipWith hrow
    obtain ⟨v, -, w, -, rfl⟩ := exists_mem_of_mem_zipWith hx
    exact h v w
  · exact .inr ⟨_, rfl, hmap _ fun v => h v _⟩
  · exact .inr ⟨_, rfl, hmap _ fun w => h _ w⟩
  · exact .inl (h _ _)

/-- An operator makes a simple value or an array of simple values. -/
theorem ValueOp.apply_cases (op : ValueOp) (v w : Value) :
    (op.apply v w).Simple ∨
      ∃ rows, op.apply v w = .array rows ∧ ∀ row ∈ rows, ∀ x ∈ row, x.Simple :=
  apply_of_onScalars op.onScalars_simple v w

namespace Value

theorem mapRow_eq (f : Float → Float) (row : List Value) :
    mapRow f row = row.map (mapNumbers f) := by
  induction row with
  | nil => rfl
  | cons v row ih => rw [mapRow, ih, List.map_cons]

theorem mapRows_eq (f : Float → Float) (rows : List (List Value)) :
    mapRows f rows = rows.map fun row => row.map (mapNumbers f) := by
  induction rows with
  | nil => rfl
  | cons row rows ih => rw [mapRows, ih, mapRow_eq, List.map_cons]

theorem mapNumbers_of_ne_array {v : Value} (hv : ∀ rows, v ≠ .array rows) (f : Float → Float) :
    v.mapNumbers f = .ofResult ((fun x => .number (f x)) <$> v.toNumber) := by
  cases v with
  | array rows => exact absurd rfl (hv rows)
  | _ =>
    unfold mapNumbers
    split <;> next h => rw [h]; rfl

theorem mapNumbers_simple {v : Value} (hv : ∀ rows, v ≠ .array rows) (f : Float → Float) :
    (v.mapNumbers f).Simple := by
  rw [mapNumbers_of_ne_array hv]
  cases v.toNumber with
  | ok x => exact .number _
  | error e => exact .error e

end Value

/-! ### Functions that make simple values -/

namespace Function

/-- A function of the values of its arguments that makes simple values, whatever they are. -/
def Simple (f : Function) : Prop :=
  ∃ g, f.body = .values g ∧ ∀ position args, Yields Value.Simple (g position args)

@[simp]
theorem ofValues_simple {g : List Argument → Result Value} :
    (ofValues n c low high g).Simple ↔ ∀ args, Yields Value.Simple (g args) := by
  constructor
  · intro h args
    obtain ⟨g', hg, h⟩ := h
    cases hg
    exact h none args
  · intro h
    exact ⟨_, rfl, fun _ => h⟩

@[simp]
theorem ofNumbers_simple {f : List Argument → Result Float} :
    (ofNumbers n c low high f).Simple := by
  apply ofValues_simple.2
  simp

end Function

namespace ComplexNumber

theorem toValue_simple (z : Number.Complex) (unit : Char) :
    Yields Value.Simple (toValue z unit) := by
  unfold toValue
  split
  · split <;> simp
  · exact yields_error

theorem complex_simple (args : List Argument) : Yields Value.Simple (complex args) := by
  simp only [complex, yields_bind]
  refine .of_forall fun re => .of_forall fun im => ?_
  split
  · simp [toValue_simple]
  · refine yields_bind.2 (.of_forall fun s => ?_)
    split <;> simp [toValue_simple]

theorem functions_simple : ∀ f ∈ functions, f.Simple := by
  simp [functions, complex_simple, unary, power, quotient, difference, accumulate, toValue_simple]

end ComplexNumber

theorem Numeral.encode_simple (radix : Number.Radix) (n : Int) (places : Option Float) :
    Yields Value.Simple (encode radix n places) := by
  unfold encode
  cases places <;> simp

theorem Numeral.functions_simple : ∀ f ∈ functions, f.Simple := by
  simp [functions, base, convert, ofDecimal, encode_simple]

theorem Text.t_simple (args : List Argument) : Yields Value.Simple (t args) := by
  refine yields_bind.2 (.of_forall fun v => ?_)
  split <;> simp

theorem Text.functions_simple : ∀ f ∈ functions, f.Simple := by
  simp [functions, mapped, char, unichar, left, right, mid, replace, rept, concat, concatenate,
    exact, t_simple]

theorem Information.functions_simple : ∀ f ∈ functions, f.Simple := by
  simp [functions, test, isRef]

theorem unimplemented_simple : (unimplemented n c low high).Simple := by
  apply Function.ofValues_simple.2
  simp

/-! ### Functions that keep to a kind -/

variable {kind made : Value → Prop} {source : Source} {allowed : Reference → Prop}
  {operands : List Operand}

/-- All simple values are of the kind. -/
def HasSimple (kind : Value → Prop) : Prop := ∀ v : Value, v.Simple → kind v

/-- The function makes values of one kind from arguments of another. -/
def Maps (kind made : Value → Prop) (g : List Argument → Result Value) : Prop :=
  ∀ args, (∀ a ∈ args, kind a.value) → Yields made (g args)

/-- The function makes values of the kind from arguments of the kind. -/
def Keeps (kind : Value → Prop) (g : List Argument → Result Value) : Prop :=
  ∀ args, (∀ a ∈ args, kind a.value) → Yields kind (g args)

theorem valueAt_yields {args : List Argument} (h : ∀ a ∈ args, kind a.value) (i : Nat) :
    Yields kind (valueAt args i) := by
  unfold valueAt
  cases hi : args[i]? with
  | none => exact yields_error
  | some a => exact yields_ok.2 (h a (List.mem_of_getElem? hi))

theorem Logic.choose_maps (hmade : HasSimple made) (hkind : ∀ v, kind v → made v) :
    Maps kind made choose := by
  intro args h
  have hvalue : Yields made (valueAt args 1) := (valueAt_yields h 1).imp hkind
  have helse : made ((args[2]?.map Argument.value).getD (.boolean false)) := by
    cases hi : args[2]? with
    | none => exact hmade _ (.boolean false)
    | some a => exact hkind _ (h a (List.mem_of_getElem? hi))
  simp [choose, hvalue, helse]

theorem Logic.orElse_maps (hkind : ∀ v, kind v → made v) (caught : ErrorValue → Bool) :
    Maps kind made (orElse caught) := by
  intro args h
  unfold orElse
  refine yields_bind.2 ((valueAt_yields h 0).imp fun v hv => ?_)
  simp [(valueAt_yields h 1).imp hkind, hkind v hv]

theorem HasSimple.ofResult {x : Result Value} (hkind : HasSimple kind) (h : Yields kind x) :
    kind (.ofResult x) := by
  cases x with
  | ok v => exact yields_ok.1 h
  | error e => exact hkind _ (.error e)

theorem HasSimple.close {v : Value} (hkind : HasSimple kind) (h : kind v) :
    kind (Function.close v) := by
  unfold Function.close
  split
  · split
    · exact h
    · exact hkind _ (.error _)
  · exact h

/-- Where all names are bound to values of the kind, so is what a name stands for. -/
theorem Names.forall_named {names : Names} (herror : kind (.error .name))
    (h : ∀ entry ∈ names, kind entry.2) (name : String) :
    kind ((names.find? name).getD (.error .name)) := by
  unfold find?
  cases hl : names.lookup (upperName name) with
  | none => exact herror
  | some v =>
    obtain ⟨l₁, l₂, hmem, -⟩ := List.lookup_eq_some_iff.1 hl
    exact h (upperName name, v) (by simp [hmem])

theorem HasSimple.named {names : Names} (hkind : HasSimple kind)
    (h : ∀ entry ∈ names, kind entry.2) (name : String) :
    kind ((names.find? name).getD (.error .name)) :=
  names.forall_named (hkind _ (.error _)) h name

theorem HasSimple.nullValue (hkind : HasSimple kind) (c : Category) : kind c.nullValue := by
  cases c <;> exact hkind _ (by constructor)

/-! ### Reading -/

/-- Cells and ranges hold values of the kind, and so do rows of elements of such values. -/
structure Source.Gives (source : Source) (kind : Value → Prop) : Prop where
  cell : ∀ ref v, source.cell ref = .ok v → kind v
  range : ∀ ref rows, source.range ref = .ok rows → kind (.array (padRows rows))
  elements : ∀ v : Value, kind v → ∀ w ∈ v.elements, kind w
  row : ∀ row, (∀ v ∈ row, kind v) → kind (.array [row])

mutual

/-- Where the parts of what is allowed are allowed, so is all that is read for it. -/
theorem Reference.read_within (hs : source.Gives kind)
    (hunion : ∀ parts, allowed (.union parts) → ∀ r ∈ parts, allowed r) :
    (r : Reference) → allowed r → r.read.Within source allowed kind
  | .cell ref, h => ⟨h, hs.cell ref⟩
  | .range ref, h => ⟨h, hs.range ref⟩
  | .union parts, h => by
    rw [Reference.read]
    exact (readParts_within hs hunion parts (hunion parts h)).bind hs.row

theorem readParts_within (hs : source.Gives kind)
    (hunion : ∀ parts, allowed (.union parts) → ∀ r ∈ parts, allowed r) :
    (parts : List Reference) → (∀ r ∈ parts, allowed r) →
    (readParts parts).Within source allowed fun row => ∀ v ∈ row, kind v
  | [], _ => fun _ hv => absurd hv List.not_mem_nil
  | part :: rest, h => by
    rw [readParts]
    have hrest := readParts_within hs hunion rest fun r hr => h r (List.mem_cons_of_mem _ hr)
    refine (part.read_within hs hunion (h part (List.mem_cons_self ..))).bind fun v hv => ?_
    refine hrest.bind fun row hrow => ?_
    intro w hw
    rcases List.mem_append.1 hw with hw | hw
    · exact hs.elements v hv w hw
    · exact hrow w hw

end

/-- The value is read as a value of the kind by asking only for what is allowed. -/
def Value.Readable (kind : Value → Prop) (source : Source) (allowed : Reference → Prop)
    (v : Value) : Prop :=
  v.read.Within source allowed kind

theorem Value.Readable.of_kind {v : Value} (h : kind v)
    (hr : ∀ r, v = .reference r → r.read.Within source allowed kind) :
    v.Readable kind source allowed := by
  cases v with
  | reference r => exact hr r rfl
  | _ => exact h

theorem Value.Readable.of_ne_reference {v : Value} (h : v.Readable kind source allowed)
    (hv : ∀ r, v ≠ .reference r) : kind v := by
  cases v with
  | reference r => exact absurd rfl (hv r)
  | _ => exact h

/-- The operands ask only for what is allowed, and so do their values when they are read. -/
def OperandsReadable (kind : Value → Prop) (source : Source) (allowed : Reference → Prop)
    (operands : List Operand) : Prop :=
  ∀ o ∈ operands, o.query.Within source allowed (Value.Readable kind source allowed)

/-! ### Calls -/

namespace Function

/-- The function makes values of one kind from arguments of another, and asks only for what its
operands ask for. -/
def Makes (kind made : Value → Prop) (source : Source) (allowed : Reference → Prop)
    (f : Function) : Prop :=
  match f.body with
  | .values g => ∀ position, Maps kind made (g position)
  | .operands g => ∀ position operands, OperandsReadable kind source allowed operands →
      (g position operands).Within source allowed (Yields made)

/-- The function asks only for what its operands ask for, and makes values of the kind. -/
def Bounded (kind : Value → Prop) (source : Source) (allowed : Reference → Prop)
    (f : Function) : Prop :=
  f.Makes kind kind source allowed

theorem ofValues_makes {g : List Argument → Result Value} (h : Maps kind made g) :
    (ofValues n c low high g).Makes kind made source allowed :=
  fun _ => h

theorem Simple.makes {f : Function} (h : f.Simple) (hmade : HasSimple made) :
    f.Makes kind made source allowed := by
  obtain ⟨g, hg, h⟩ := h
  unfold Makes
  rw [hg]
  intro position args _
  exact (h position args).imp hmade

theorem readOperands_within_of_nullValue {c : Category} (hnull : kind c.nullValue)
    (h : OperandsReadable kind source allowed operands) :
    (readOperands c operands).Within source allowed fun args => ∀ a ∈ args, kind a.value := by
  induction operands with
  | nil => exact fun a ha => absurd ha List.not_mem_nil
  | cons o operands ih =>
    have htail := ih fun o ho => h o (List.mem_cons_of_mem _ ho)
    have hcons {a : Argument} (ha : kind a.value) :
        (do return a :: (← readOperands c operands) : Query (List Argument)).Within source allowed
          fun args => ∀ a ∈ args, kind a.value :=
      htail.bind fun args hargs => List.forall_mem_cons.2 ⟨ha, hargs⟩
    cases o with
    | omitted => exact hcons hnull
    | given q =>
      refine (h _ (List.mem_cons_self ..)).bind fun v hv => ?_
      split
      · rename_i r
        have hread : (Argument.ofRead c r <$> r.read).Within source allowed
            fun a => kind a.value := by
          refine hv.map fun w hw => ?_
          show kind (if _ then _ else _)
          split
          · exact hnull
          · exact hw
        exact hread.bind fun a => hcons
      · rename_i hne
        exact hcons (Value.Readable.of_ne_reference hv hne)

theorem readOperands_within (hkind : HasSimple kind) (c : Category)
    (h : OperandsReadable kind source allowed operands) :
    (readOperands c operands).Within source allowed fun args => ∀ a ∈ args, kind a.value :=
  readOperands_within_of_nullValue (hkind.nullValue c) h

theorem call_of_operands {f : Function} {g : Option Position → List Operand → Query (Result Value)}
    (hkind : HasSimple kind) (hg : f.body = .operands g)
    (h : (g position operands).Within source allowed (Yields kind)) :
    (f.call position operands).Within source allowed kind := by
  unfold Function.call
  rw [hg]
  split
  · exact h.bind fun x hx => hkind.close (hkind.ofResult hx)
  · exact hkind _ (.error _)

/-- A call asks only for what its operands ask for, and what the function makes is closed. -/
theorem Makes.call {f : Function} {closed : Value → Prop} (hf : f.Makes kind made source allowed)
    (hnull : kind f.category.nullValue) (herror : ∀ e, made (.error e))
    (hclose : ∀ v, made v → closed (close v)) (position : Option Position)
    (h : OperandsReadable kind source allowed operands) :
    (f.call position operands).Within source allowed closed := by
  have hresult {x : Result Value} (hx : Yields made x) : closed (close (.ofResult x)) := by
    cases x with
    | ok v => exact hclose v (yields_ok.1 hx)
    | error e => exact hclose _ (herror e)
  unfold Function.call
  split
  · unfold Makes at hf
    split at hf
    · rename_i g hg
      rw [hg]
      refine (readOperands_within_of_nullValue hnull h).bind fun args hargs => ?_
      unfold onArguments
      split
      · exact hclose _ (herror _)
      · exact hresult (hf position args hargs)
    · rename_i g hg
      rw [hg]
      exact (hf position operands h).bind fun x hx => hresult hx
  · exact hclose _ (herror _)

/-- A call of a bounded function asks only for what its operands ask for. -/
theorem Bounded.call {f : Function} (hf : f.Bounded kind source allowed) (hkind : HasSimple kind)
    (position : Option Position) (h : OperandsReadable kind source allowed operands) :
    (f.call position operands).Within source allowed kind :=
  Makes.call hf (hkind.nullValue _) (fun e => hkind _ (.error e)) (fun _ => hkind.close) position h

end Function

/-! ### Built-in functions -/

namespace Matrix

/-- What the elements of rows have, the elements of their columns have. -/
theorem transpose_values {P : α → Prop} {rows : List (List α)} (h : ∀ row ∈ rows, ∀ x ∈ row, P x) :
    ∀ column ∈ Number.transpose rows, ∀ x ∈ column, P x := by
  intro column hcolumn x hx
  obtain ⟨j, -, rfl⟩ := List.mem_map.1 hcolumn
  obtain ⟨row, hrow, hj⟩ := List.mem_filterMap.1 hx
  exact h row hrow x (List.mem_of_getElem? hj)

theorem transpose_maps (htranspose : ∀ v, kind v → made (.array (Number.transpose v.toRows))) :
    Maps kind made transpose := by
  intro args h
  exact yields_bind.2 ((valueAt_yields h 0).imp fun v hv => yields_pure.2 (htranspose v hv))

end Matrix

namespace Lookup

/-- What is picked from rows is all of them, a column, a row or an element of theirs, or empty. -/
theorem element_has {P : Value → Prop} {rows : List (List Value)} (hrows : P (.array rows))
    (hvalues : ∀ row ∈ rows, ∀ v ∈ row, P v)
    (hcolumn : ∀ vs : List Value, (∀ v ∈ vs, P v) → P (.array (vs.map fun v => [v])))
    (hrow : ∀ vs, (∀ v ∈ vs, P v) → P (.array [vs])) (hempty : P .empty) (i j : Nat) :
    P (element rows i j) := by
  have hgetD (i : Nat) : ∀ v ∈ rows[i]?.getD [], P v := by
    cases hi : rows[i]? with
    | none => exact fun v hv => absurd hv List.not_mem_nil
    | some row => exact hvalues row (List.mem_of_getElem? hi)
  unfold element
  split
  · exact hrows
  · rename_i j
    rw [column, ← List.map_filterMap]
    apply hcolumn
    intro v hv
    obtain ⟨row, hmem, hj⟩ := List.mem_filterMap.1 hv
    exact hvalues row hmem v (List.mem_of_getElem? hj)
  · exact hrow _ (hgetD _)
  · rename_i i j
    cases hj : (rows[i]?.getD [])[j]? with
    | none => exact hempty
    | some v => exact hgetD i v (List.mem_of_getElem? hj)

theorem index_maps (helement : ∀ v : Value, kind v → ∀ i j, made (element v.toRows i j)) :
    Maps kind made index := by
  intro args h
  refine yields_bind.2 ((valueAt_yields h 0).imp fun v hv => ?_)
  cases givenAt? args 1 <;> cases givenAt? args 2 <;> simp [helement v hv]

theorem single?_within (h : OperandsReadable kind source allowed operands) :
    (single? operands).Within source allowed fun _ => True := by
  unfold single?
  split
  · exact (h _ (List.mem_cons_self ..)).map fun _ _ => trivial
  · trivial

theorem place_makes (hmade : HasSimple made) (ofStart : Address → Nat)
    (ofCell : Position → Nat) :
    (Function.ofOperands n c low high (place ofStart ofCell)).Makes kind made source allowed := by
  intro position operands h
  refine (single?_within h).bind fun v _ => ?_
  exact yields_map.2 (.of_forall fun _ => hmade _ (.number _))

theorem extent_makes (hmade : HasSimple made) (ofArea : Range → Nat)
    (ofRows : List (List Value) → Nat) :
    (Function.ofOperands n c low high (extent ofArea ofRows)).Makes kind made source allowed := by
  intro position operands h
  refine (single?_within h).bind fun v _ => ?_
  exact yields_map.2 (.of_forall fun _ => hmade _ (.number _))

end Lookup

theorem Conditional.countIf_makes (hmade : HasSimple made) :
    (Function.ofOperands n c low high countIf).Makes kind made source allowed := by
  intro position operands h
  show (countIf position operands).Within _ _ _
  unfold countIf
  split
  · rename_i cells criterion
    refine (h _ (List.mem_cons_self ..)).bind fun v hv => ?_
    split
    · exact yields_error
    · have hrows : v.read.Within source allowed fun _ => True := hv.imp fun _ _ => trivial
      refine hrows.bind fun w _ => ?_
      refine (h criterion (by simp)).bind fun v hv => ?_
      refine hv.bind fun w _ => ?_
      split
      · exact yields_error
      · exact yields_ok.2 (hmade _ (.number _))
  · exact yields_error

/-- Where everything may be asked for, what is read does not matter: the sum is a number. -/
theorem Conditional.sumIf_makes (hmade : HasSimple made) :
    (Function.ofOperands n c low high sumIf).Makes kind made source fun _ => True := by
  intro position operands _
  show (sumIf position operands).Within _ _ _
  unfold sumIf
  split
  · refine (Query.within_true _).bind fun v _ => (Query.within_true _).bind fun w _ => ?_
    refine (Query.within_true _).bind fun c _ => (Query.within_true _).bind fun c _ => ?_
    exact (Query.within_true _).bind fun summed _ => yields_ok.2 (hmade _ (.number _))
  · exact yields_error

theorem Logic.functions_make (hmade : HasSimple made) (hkind : ∀ v, kind v → made v) :
    ∀ f ∈ functions, f.Makes kind made source allowed := by
  have hsimple {f : Function} (h : f.Simple) : f.Makes kind made source allowed := h.makes hmade
  -- only the last three hand on an argument
  simp only [functions, List.forall_mem_cons]
  refine ⟨hsimple ?_, hsimple ?_, hsimple ?_, hsimple ?_, hsimple ?_, hsimple ?_,
    fun _ => choose_maps hmade hkind, fun _ => orElse_maps hkind _, fun _ => orElse_maps hkind _,
    fun f hf => absurd hf List.not_mem_nil⟩
  all_goals simp [and, or, xor, not]

/-- The built-in functions that pick elements and make arrays decide which kinds the others make,
and only `SUMIF` asks for more than its operands do. -/
theorem builtins_make (hmade : HasSimple made) (hkind : ∀ v, kind v → made v)
    (hindex : Maps kind made Lookup.index) (htranspose : Maps kind made Matrix.transpose) :
    ∀ f ∈ builtins, f.Makes kind made source allowed ∨
      f = .ofValues "MMULT" .math 2 (some 2) Matrix.mmult ∨
      f = .ofOperands "SUMIF" .math 2 (some 3) Conditional.sumIf := by
  have hsimple {f : Function} (h : f.Simple) : f.Makes kind made source allowed := h.makes hmade
  have hall {fs : List Function} (h : ∀ f ∈ fs, f.Simple) :
      ∀ f ∈ fs, f.Makes kind made source allowed ∨
        f = .ofValues "MMULT" .math 2 (some 2) Matrix.mmult ∨
        f = .ofOperands "SUMIF" .math 2 (some 3) Conditional.sumIf :=
    fun f hf => .inl (hsimple (h f hf))
  have hlast : ∀ f ∈ [unimplemented "AGGREGATE" .math 3 none,
      unimplemented "BAHTTEXT" .text 1 (some 1)], f.Simple := by
    simp [unimplemented_simple]
  simp only [builtins, List.forall_mem_append]
  refine ⟨⟨⟨⟨⟨⟨⟨⟨⟨⟨⟨⟨⟨⟨⟨?_, ?_⟩, ?_⟩, ?_⟩, hall Numeral.functions_simple⟩, ?_⟩, ?_⟩,
    hall Text.functions_simple⟩, ?_⟩, ?_⟩, hall ComplexNumber.functions_simple⟩, ?_⟩, ?_⟩, ?_⟩,
    hall Information.functions_simple⟩, hall hlast⟩
  · exact hall (by simp [Arithmetic.functions])
  · exact hall (by simp [Rounding.functions])
  · exact hall (by simp [Combinatorics.functions])
  · simp only [Matrix.functions, List.forall_mem_cons]
    exact ⟨.inl (hsimple Function.ofNumbers_simple), .inr (.inl trivial),
      .inl (hsimple Function.ofNumbers_simple), .inl (Function.ofValues_makes htranspose),
      fun f hf => absurd hf List.not_mem_nil⟩
  · exact hall (by simp [Trigonometry.functions])
  · exact fun f hf => .inl (Logic.functions_make hmade hkind f hf)
  · exact hall (by simp [Bits.functions])
  · exact hall (by simp [Step.functions])
  · exact hall (by simp [Statistics.functions])
  · rw [Conditional.functions, List.forall_mem_cons, List.forall_mem_cons]
    exact ⟨.inr (.inr rfl), .inl (Conditional.countIf_makes hmade),
      fun f hf => absurd hf List.not_mem_nil⟩
  · simp only [Lookup.functions, List.forall_mem_cons]
    exact ⟨.inl (Lookup.place_makes hmade _ _), .inl (Lookup.extent_makes hmade _ _),
      .inl (Lookup.place_makes hmade _ _), .inl (Lookup.extent_makes hmade _ _),
      .inl (Function.ofValues_makes hindex), .inl (hsimple Function.ofNumbers_simple),
      fun f hf => absurd hf List.not_mem_nil⟩

/-- Of the built-in functions only `SUMIF` asks for more than its operands do, and a kind that holds
the simple values is kept by all if it is kept by those that pick elements and make arrays. -/
theorem builtins_bounded (hkind : HasSimple kind) (hindex : Keeps kind Lookup.index)
    (hmmult : Keeps kind Matrix.mmult) (htranspose : Keeps kind Matrix.transpose) :
    ∀ f ∈ builtins, f.Bounded kind source allowed ∨
      f = .ofOperands "SUMIF" .math 2 (some 3) Conditional.sumIf := by
  intro f hf
  rcases builtins_make hkind (fun _ h => h) hindex htranspose f hf with h | rfl | rfl
  · exact .inl h
  · exact .inl (Function.ofValues_makes hmmult)
  · exact .inr rfl

end Spreadsheet
