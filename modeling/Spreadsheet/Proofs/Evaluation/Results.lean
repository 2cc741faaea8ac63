import Spreadsheet.Engine
import Spreadsheet.Proofs.Evaluation.Arrays
import Spreadsheet.Proofs.Evaluation.Covered

/-!
What evaluation ends in. References are values of their own and get into no array, and what a
formula shows is a finite number, a text or an error.
-/

namespace Spreadsheet

/-! ### Final values -/

/-- What a formula can show. No number in it is the negative zero. -/
inductive Value.Final : Value → Prop
  | number {x : Float} (hfinite : x.isFinite = true) (hzero : x ≠ -0.0) : Final (.number x)
  | text (s : String) : Final (.text s)
  | error (e : ErrorValue) : Final (.error e)

theorem isFinite_of_not_isNaN {x : Float} (hnan : x.isNaN = false) (hinf : x.isInf = false) :
    x.isFinite = true := by
  change x.toModel.unpack.isNaN = false at hnan
  change x.toModel.unpack.isInf = false at hinf
  change x.toModel.unpack.isFinite = true
  cases h : x.toModel.unpack with
  | infinity s => rw [h] at hinf; cases hinf
  | notANumber => rw [h] at hnan; cases hnan
  | zero s => rfl
  | finite s m e hm => rfl

namespace Value

theorem Simple.shown {v : Value} (h : v.Simple) : v.shown.Final := by
  cases h with
  | text s => exact .text s
  | boolean b => exact .text _
  | error e => exact .error e
  | number x =>
    rw [Value.shown]
    cases hnan : x.isNaN with
    | true => exact .error .value
    | false =>
      cases hinf : x.isInf with
      | true => exact .error .num
      | false =>
        cases hzero : x == 0 with
        | true => exact .number (by decide) (by decide)
        | false =>
          apply Final.number (isFinite_of_not_isNaN hnan hinf)
          rintro rfl
          -- both zeros equal 0
          exact absurd hzero (by decide)

/-- The top left element of an array that holds no reference is no reference and no array. -/
theorem Plain.scalar {v : Value} (h : v.Plain) : v.scalar.Simple ∨ v.scalar = .empty := by
  induction h with
  | number x => exact .inl (.number x)
  | text s => exact .inl (.text s)
  | boolean b => exact .inl (.boolean b)
  | error e => exact .inl (.error e)
  | empty => exact .inr rfl
  | @array rows _ ih =>
    match rows with
    | [] => exact .inr rfl
    | [] :: rest => exact .inr rfl
    | (v :: row) :: rest => exact ih _ List.mem_cons_self v List.mem_cons_self

theorem Plain.plain_scalar {v : Value} (h : v.Plain) : v.scalar.Plain := by
  rcases h.scalar with h | h
  · exact hasSimple_plain _ h
  · rw [h]
    exact .empty

theorem Plain.shown {v : Value} (h : v.Plain) : v.scalar.shown.Final := by
  rcases h.scalar with h | h
  · exact h.shown
  · rw [h]
    exact .number (by decide) (by decide)

end Value

/-! ### Values of the parts of a formula -/

/-- The value is a reference or holds none. -/
def Value.Unmixed (v : Value) : Prop := (∃ r, v = .reference r) ∨ v.Plain

theorem Value.Plain.unmixed {v : Value} (h : v.Plain) : v.Unmixed := .inr h

theorem Value.Unmixed.plain {v : Value} (h : v.Unmixed) (hv : ∀ r, v ≠ .reference r) : v.Plain := by
  rcases h with ⟨r, hr⟩ | h
  · exact absurd hr (hv r)
  · exact h

section

variable {source : Source} {scope : Scope}

theorem Source.Plain.read_within (hs : source.Plain) (r : Reference) :
    r.read.Within source (fun _ => True) Value.Plain :=
  r.read_within hs.gives (fun _ _ _ _ => trivial) trivial

/-- Operands whose values are unmixed when they are read give values without references. -/
theorem Source.Plain.operandsReadable (hs : source.Plain) {operands : List Operand}
    (h : OperandsReadable Value.Unmixed source (fun _ => True) operands) :
    OperandsReadable Value.Plain source (fun _ => True) operands := by
  intro o ho
  apply (h o ho).imp
  intro v hv
  cases v with
  | reference r => exact hs.read_within r
  | _ => exact Value.Unmixed.plain hv nofun

theorem plain_of_builtin_or
    (h : f ∈ builtins ∨ f.Bounded Value.Plain source fun _ => True) :
    f.Bounded Value.Plain source fun _ => True := by
  rcases h with h | h
  · rcases builtins_bounded hasSimple_plain Lookup.index_plain Matrix.mmult_plain
      Matrix.transpose_plain f h with h | rfl
    · exact h
    · exact Conditional.sumIf_makes hasSimple_plain
  · exact h

theorem Closed.unmixed (hs : source.Plain) (hn : ∀ entry ∈ scope.names, entry.2.Unmixed)
    (hf : ∀ f ∈ scope.functions, f ∈ builtins ∨ f.Bounded Value.Plain source fun _ => True)
    (e : Expr) : Closed Value.Unmixed scope source e where
  literal := fun l _ => (hasSimple_plain _ l.toValue_simple).unmixed
  array := by
    intro rows _
    apply Value.Plain.unmixed
    apply Value.Plain.array
    intro row hrow v hv
    obtain ⟨ls, -, rfl⟩ := List.mem_map.1 hrow
    obtain ⟨l, -, rfl⟩ := List.mem_map.1 hv
    exact hasSimple_plain _ l.toValue_simple
  reference := fun r => .inl ⟨r, rfl⟩
  error := fun e => (Value.Plain.error e).unmixed
  empty := Value.Plain.empty.unmixed
  zero := (Value.Plain.number 0).unmixed
  names := hn
  read := fun r => (hs.read_within r).imp fun _ hv => hv.unmixed
  sign := by
    intro op operand _ v _ hv
    cases op with
    | plus => exact hv
    | negate => exact (v.mapNumbers_plain _).unmixed
  percent := fun _ _ v _ _ => (v.mapNumbers_plain _).unmixed
  binary := fun op v w _ _ => (op.apply_plain v w).unmixed
  call := by
    intro name args f _ hfind hoperands
    have hbounded := plain_of_builtin_or (hf f (List.mem_of_find?_eq_some hfind))
    have hcall := hbounded.call hasSimple_plain scope.position (hs.operandsReadable hoperands)
    exact hcall.imp fun _ hv => hv.unmixed

theorem readResult_plain (hs : source.Plain) {v : Value} (hv : v.Unmixed) :
    v.readResult.Within source (fun _ => True) Value.Plain := by
  cases v with
  | reference r =>
    cases r with
    | cell ref => exact hs.read_within (.cell ref)
    | range ref =>
      rw [Value.readResult]
      split
      · refine ⟨trivial, fun rows hrows => ?_⟩
        have hread : (Value.array (padRows rows)).Plain := .array (hs.range ref rows hrows).padRows
        exact hread.plain_scalar
      · exact .error .value
    | union parts => exact .error .value
  | _ => exact hv.plain (by simp)

end

/-- Where cells, ranges, added functions and the arrays in names hold no references, every result of
a formula is final, and every value of a part of it is a reference or holds none. -/
theorem results_final (engine : Engine) (position : Option Position) (e : Expr)
    (hs : engine.source.Plain) (hn : ∀ entry ∈ engine.names, entry.2.Unmixed)
    (hf : ∀ f ∈ engine.functions, f ∈ builtins ∨
      f.Bounded Value.Plain engine.source fun _ => True) :
    (∀ v, (engine.evaluate e position).1 = .ok v → v.Final) ∧
    ∀ s, s.Occurs e → ∀ v,
      ((evaluate (engine.scope position) s).run engine.source).1 = .ok v → v.Unmixed := by
  have hclosed : Closed Value.Unmixed (engine.scope position) engine.source e :=
    Closed.unmixed hs hn hf e
  constructor
  · have hresult : (formulaResult (engine.scope position) e).Within engine.source (fun _ => True)
        Value.Final := by
      apply (hclosed.evaluate_within e (.self e)).bind
      intro v hv
      apply (readResult_plain hs hv).bind
      intro w hw
      exact hw.shown
    intro v hv
    exact Query.within_true_iff.1 hresult v (mapError_eq_ok.1 hv)
  · intro s hocc
    exact Query.within_true_iff.1 (hclosed.evaluate_within s hocc)

/-- A name that is bound to a reference is read, and the negative of the 0 there shows as 0. -/
theorem results_final_negated :
    let source : Source := ⟨fun _ => .ok (.number 0), fun _ => .ok [[.boolean true], []]⟩
    let same : Function := .ofValues "SAME" .custom 1 (some 1) fun args => valueAt args 0
    let engine := Engine.new source [("X", .reference (.cell ⟨none, .relative 1 1⟩))] [same]
    let e : Expr := .sign .negate (.call "SAME" [.name "X"])
    (engine.evaluate e none).1 = .ok (.number 0) ∧ (Value.number 0).Final := by
  intro source same engine e
  have hvalue : (engine.evaluate e none).1 = .ok (.number 0) := rfl
  have hs : engine.source.Plain := by
    constructor
    · intro ref v h
      cases h
      exact .number 0
    · intro ref rows h
      cases h
      simp [PlainRows]
  have hn : ∀ entry ∈ engine.names, entry.2.Unmixed := by
    intro entry h
    cases List.mem_singleton.1 h
    exact .inl ⟨_, rfl⟩
  have hf : ∀ f ∈ engine.functions, f ∈ builtins ∨
      f.Bounded Value.Plain engine.source fun _ => True := by
    intro f h
    apply (Registry.mem_foldl_register h).imp id
    intro h
    cases List.mem_singleton.1 h
    exact fun _ args hargs => valueAt_yields hargs 0
  exact ⟨hvalue, (results_final engine none e hs hn hf).1 _ hvalue⟩

end Spreadsheet
