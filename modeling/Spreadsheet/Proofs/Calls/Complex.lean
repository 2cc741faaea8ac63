import Spreadsheet.Proofs.Lookups.Arguments
import Spreadsheet.Proofs.Writing.Complex

/-!
The parts of complex numbers in a sheet, which are those that the numbers were made of.
-/

namespace Spreadsheet

open Number

namespace ComplexNumber

variable {scope : Scope} {source : Source}

/-- The value of a complex number is read as the number. -/
theorem ofElement_toValue {z : Number.Complex} {unit : Char} {v : Value} {e : ErrorValue}
    (hunit : WrittenComplex.isUnit unit = true) (h : toValue z unit = .ok v) :
    ∃ w, ofElement e v.scalar = .ok w ∧ w.value = ⟨foldZero z.re, foldZero z.im⟩ := by
  rw [toValue] at h
  split at h
  · next hfinite =>
    obtain ⟨hre, him⟩ := Bool.and_eq_true_iff.1 hfinite
    obtain rfl := Except.ok.inj h
    split
    · next hzero =>
      obtain ⟨hzero, hzero'⟩ := Bool.and_eq_true_iff.1 hzero
      refine ⟨.ofReal 0, rfl, ?_⟩
      rw [foldZero_of_beq hzero, foldZero_of_beq hzero']
      rfl
    · exact ⟨_, congrArg (Except.mapError fault) (WrittenComplex.read_write hre him hunit), rfl⟩
  · cases h

theorem part_toValue {z : Number.Complex} {unit : Char} {v : Value} {args : List Argument}
    (hunit : WrittenComplex.isUnit unit = true) (h : toValue z unit = .ok v)
    (hargs : valueAt args 0 = .ok v) (f : Number.Complex → Float) :
    part f args = .ok (f ⟨foldZero z.re, foldZero z.im⟩) := by
  obtain ⟨w, hw, hvalue⟩ := ofElement_toValue hunit h
  rw [part, complexAt, hargs]
  change (do return f (← ofElement .num v.scalar).value) = _
  rw [hw, ← hvalue]
  rfl

theorem complex_eq_ok {args : List Argument} {v : Value} (h : complex args = .ok v) :
    ∃ re im unit, strictAt args 0 = .ok re ∧ strictAt args 1 = .ok im ∧
      WrittenComplex.isUnit unit = true ∧ toValue ⟨re, im⟩ unit = .ok v := by
  have hi : WrittenComplex.isUnit 'i' = true := rfl
  have hj : WrittenComplex.isUnit 'j' = true := rfl
  rw [complex] at h
  obtain ⟨re, hre, h⟩ := bind_eq_ok.1 h
  obtain ⟨im, him, h⟩ := bind_eq_ok.1 h
  dsimp only at h
  split at h
  · exact ⟨re, im, 'i', hre, him, hi, h⟩
  · obtain ⟨s, hs, h⟩ := bind_eq_ok.1 h
    split at h
    · exact ⟨re, im, 'i', hre, him, hi, h⟩
    · exact ⟨re, im, 'j', hre, him, hj, h⟩
    · cases h

/-- The text of the unit in a call, if there is one. -/
def unitTexts : List (List Value) := [[], [.text "i"], [.text "j"]]

theorem complex_congr {args args' : List Argument} {vs : List Value} (h : AreArguments args vs)
    (h' : AreArguments args' vs) : complex args = complex args' := by
  simp only [complex, strictAt, h.valueAt, h'.valueAt, h.givenAt?, h'.givenAt?]

theorem complex_of_arguments {us : List Value} (hus : us ∈ unitTexts) (re im : Float) :
    ∃ unit, WrittenComplex.isUnit unit = true ∧
      ∀ args, AreArguments args (.number re :: .number im :: us) →
        complex args = toValue ⟨re, im⟩ unit := by
  have hvalues : AreArguments ((.number re :: .number im :: us).map Argument.ofValue)
      (.number re :: .number im :: us) := areArguments_ofValue _
  simp only [unitTexts, List.mem_cons, List.not_mem_nil, or_false] at hus
  rcases hus with rfl | rfl | rfl
  · exact ⟨'i', rfl, fun _ hargs => (complex_congr hargs hvalues).trans rfl⟩
  · exact ⟨'i', rfl, fun _ hargs => (complex_congr hargs hvalues).trans rfl⟩
  · exact ⟨'j', rfl, fun _ hargs => (complex_congr hargs hvalues).trans rfl⟩

theorem exists_toValue {z : Number.Complex} (hre : z.re.isFinite = true)
    (him : z.im.isFinite = true) (unit : Char) :
    ∃ v, toValue z unit = .ok v ∧ (v = .number 0 ∨ ∃ s, v = .text s) := by
  rw [toValue, hre, him, Bool.and_self, if_pos rfl]
  refine ⟨_, rfl, ?_⟩
  split
  · exact .inl rfl
  · exact .inr ⟨_, rfl⟩

theorem reads_complex {a b : Expr} {units : List Expr} {us : List Value} {re im : Float}
    (hfind : scope.functions.find? "COMPLEX" = Registry.find? builtins "COMPLEX")
    (ha : a.Reads scope source (.number re)) (hb : b.Reads scope source (.number im))
    (hunits : List.Forall₂ (Expr.Reads scope source) units us) (hus : us ∈ unitTexts)
    (hre : re.isFinite = true) (him : im.isFinite = true) :
    ∃ unit v, WrittenComplex.isUnit unit = true ∧ toValue ⟨re, im⟩ unit = .ok v ∧
      v.isPlain = true ∧ (Expr.call "COMPLEX" (a :: b :: units)).Reads scope source v := by
  obtain ⟨unit, hunit, hcomplex⟩ := complex_of_arguments hus re im
  obtain ⟨v, hv, hkind⟩ := exists_toValue (z := ⟨re, im⟩) hre him unit
  have hplain : ∀ us ∈ unitTexts, us.length ≤ 1 ∧ ∀ v ∈ us, v.isPlain = true := by decide
  have hfind : scope.functions.find? "COMPLEX" =
      some (.ofValues "COMPLEX" .engineering 2 (some 3) complex) := hfind
  have hcount : (Function.ofValues "COMPLEX" .engineering 2 (some 3) complex).acceptsCount
      (a :: b :: units).length = true := by
    have hlength := (hplain us hus).1
    rw [← hunits.length_eq] at hlength
    rw [List.length_cons, List.length_cons]
    rcases Nat.le_one_iff_eq_zero_or_eq_one.1 hlength with h | h <;> rw [h] <;> rfl
  have hcall := evaluates_call hfind rfl hcount (.cons ha (.cons hb hunits))
    (List.forall_mem_cons.2 ⟨rfl, List.forall_mem_cons.2 ⟨rfl, (hplain us hus).2⟩⟩) hcomplex
  rw [hv] at hcall
  rcases hkind with rfl | ⟨s, rfl⟩
  · exact ⟨unit, _, hunit, hv, rfl, hcall.reads_number⟩
  · exact ⟨unit, _, hunit, hv, rfl, hcall.reads_text⟩

theorem evaluates_part {a b : Expr} {units : List Expr} {us : List Value} {re im : Float}
    {name : String} {f : Number.Complex → Float}
    (hcomplex : scope.functions.find? "COMPLEX" = Registry.find? builtins "COMPLEX")
    (hpart : scope.functions.find? name =
      some (.ofNumbers name .engineering 1 (some 1) (part f)))
    (ha : a.Reads scope source (.number re)) (hb : b.Reads scope source (.number im))
    (hunits : List.Forall₂ (Expr.Reads scope source) units us) (hus : us ∈ unitTexts)
    (hre : re.isFinite = true) (him : im.isFinite = true)
    (hf : (f ⟨foldZero re, foldZero im⟩).isFinite = true) :
    (Expr.call name [.call "COMPLEX" (a :: b :: units)]).Evaluates scope source
      (.number (f ⟨foldZero re, foldZero im⟩)) := by
  obtain ⟨unit, v, hunit, hv, hplain, hreads⟩ :=
    reads_complex hcomplex ha hb hunits hus hre him
  have hcall := evaluates_call hpart rfl rfl (.cons hreads .nil) (by simpa using hplain)
    fun args hargs => congrArg (Except.map Value.number)
      (part_toValue hunit hv (hargs.valueAt 0) f)
  change (Expr.call name _).Evaluates scope source
    (if (f ⟨foldZero re, foldZero im⟩).isFinite then _ else _) at hcall
  rwa [if_pos hf] at hcall

end ComplexNumber

open ComplexNumber Number.WrittenComplex in
/-- Complex numbers survive being written. The text of a finite complex number is read as the
number, its zeros without a sign, and with its unit if there is an imaginary part. So the parts of
what `COMPLEX` makes of any arguments, `IMREAL` and `IMAGINARY` of it, are the arguments. -/
theorem complex_parts :
    (∀ (z : Number.Complex) (unit : Char), z.re.isFinite = true → z.im.isFinite = true →
      unit = 'i' ∨ unit = 'j' →
      read (z.write unit) =
        .ok ⟨⟨foldZero z.re, foldZero z.im⟩, if z.im == 0 then none else some unit⟩) ∧
    (∀ (args : List Argument) (v : Value), complex args = .ok v →
      ∃ re im, strictAt args 0 = .ok re ∧ strictAt args 1 = .ok im ∧
        part (·.re) [.ofValue v] = .ok (foldZero re) ∧
        part (·.im) [.ofValue v] = .ok (foldZero im)) ∧
    ∀ (scope : Scope) (source : Source) (a b : Expr) (units : List Expr) (us : List Value)
      (re im : Float),
      (∀ name ∈ ["COMPLEX", "IMREAL", "IMAGINARY"],
        scope.functions.find? name = Registry.find? builtins name) →
      a.Reads scope source (.number re) → b.Reads scope source (.number im) →
      List.Forall₂ (Expr.Reads scope source) units us → us ∈ unitTexts →
      re.isFinite = true → im.isFinite = true →
      (Expr.call "IMREAL" [.call "COMPLEX" (a :: b :: units)]).Evaluates scope source
        (.number (foldZero re)) ∧
      (Expr.call "IMAGINARY" [.call "COMPLEX" (a :: b :: units)]).Evaluates scope source
        (.number (foldZero im)) := by
  refine ⟨?_, ?_, ?_⟩
  · intro z unit hre him hunit
    refine read_write hre him ?_
    rcases hunit with rfl | rfl <;> rfl
  · intro args v h
    obtain ⟨re, im, unit, hre, him, hunit, hv⟩ := complex_eq_ok h
    exact ⟨re, im, hre, him, part_toValue hunit hv rfl _, part_toValue hunit hv rfl _⟩
  · intro scope source a b units us re im hfind ha hb hunits hus hre him
    have hcomplex := hfind "COMPLEX" (by decide)
    have hreal := hfind "IMREAL" (by decide)
    have himaginary := hfind "IMAGINARY" (by decide)
    exact ⟨evaluates_part (f := (·.re)) hcomplex hreal ha hb hunits hus hre him
        (isFinite_foldZero hre),
      evaluates_part (f := (·.im)) hcomplex himaginary ha hb hunits hus hre him
        (isFinite_foldZero him)⟩

open ComplexNumber Number.WrittenComplex in
theorem complex_parts_exponents :
    read "1e+21-2.5e-7i" = .ok ⟨⟨1e21, -2.5e-7⟩, some 'i'⟩ ∧
    (∃ v, complex [.ofValue (.number 5), .ofValue (.number (-1)), .ofValue (.text "j")] = .ok v ∧
      part (·.re) [.ofValue v] = .ok 5 ∧ part (·.im) [.ofValue v] = .ok (-1)) ∧
    (Expr.call "IMREAL" [.call "COMPLEX" [.literal (.number 5), .literal (.number (-1)),
      .literal (.text "j")]]).Evaluates ((Engine.new .zero [] []).scope none) Source.zero
      (.number 5) ∧
    (Expr.call "IMAGINARY" [.call "COMPLEX" [.literal (.number 5), .literal (.number (-1)),
      .literal (.text "j")]]).Evaluates ((Engine.new .zero [] []).scope none) Source.zero
      (.number (-1)) := by
  obtain ⟨htext, hvalue, hcalls⟩ := complex_parts
  have hfive : foldZero 5 = 5 := foldZero_of_not_beq (by decide +kernel)
  have hone : foldZero (-1) = -1 := foldZero_of_not_beq (by decide +kernel)
  refine ⟨?_, ?_, ?_⟩
  · have hwrite : (⟨1e21, -2.5e-7⟩ : Number.Complex).write 'i' = "1e+21-2.5e-7i" := by
      decide +kernel
    have hlarge : foldZero 1e21 = 1e21 := foldZero_of_not_beq (by decide +kernel)
    have hsmall : foldZero (-2.5e-7) = -2.5e-7 := foldZero_of_not_beq (by decide +kernel)
    have hread := htext ⟨1e21, -2.5e-7⟩ 'i' (by decide +kernel) (by decide +kernel) (.inl rfl)
    rw [hwrite, hlarge, hsmall] at hread
    exact hread
  · have hcomplex : complex [.ofValue (.number 5), .ofValue (.number (-1)), .ofValue (.text "j")] =
        toValue ⟨5, -1⟩ 'j' := rfl
    obtain ⟨v, hv, -⟩ := exists_toValue (z := ⟨5, -1⟩) (by decide +kernel) (by decide +kernel) 'j'
    obtain ⟨re, im, hre, him, hreal, himaginary⟩ := hvalue _ v (hcomplex.trans hv)
    cases hre
    cases him
    rw [hfive] at hreal
    rw [hone] at himaginary
    exact ⟨v, hcomplex.trans hv, hreal, himaginary⟩
  · have hcall := hcalls ((Engine.new .zero [] []).scope none) Source.zero (.literal (.number 5))
      (.literal (.number (-1))) [.literal (.text "j")] [.text "j"] 5 (-1) (fun _ _ => rfl) rfl rfl
      (.cons rfl .nil) (by simp [unitTexts]) (by decide +kernel) (by decide +kernel)
    rw [hfive, hone] at hcall
    exact hcall

end Spreadsheet
