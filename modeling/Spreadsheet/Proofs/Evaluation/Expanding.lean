import Spreadsheet.Proofs.Evaluation.Collect
import Spreadsheet.Proofs.Evaluation.Errors

/-!
The built-in functions that expand arrays. Each makes the same of an array of one value as of the
value, apart from blanks, and for one of them empty text: a blank stays one in an array, where a
blank cell becomes a value of its own. Those that do not just count stop at errors.
-/

namespace Spreadsheet

/-! ### Functions by name -/

/-- The functions that only count, to which an error is a value like others. -/
def counting : List Function := [
  .ofNumbers "COUNT" .statistical 1 none Statistics.count,
  .ofNumbers "COUNTA" .statistical 1 none Statistics.countA,
  .ofNumbers "COUNTBLANK" .statistical 1 (some 1) Statistics.countBlank]

/-- Functions to which a blank in a range is what a blank cell is. -/
def readingBlanks : List Function := [
  .ofNumbers "AVERAGE" .statistical 1 none Statistics.average,
  .ofNumbers "MAX" .statistical 1 none (Statistics.extreme Number.larger),
  .ofNumbers "MIN" .statistical 1 none (Statistics.extreme Number.smaller),
  .ofNumbers "GCD" .math 1 none Arithmetic.gcd,
  .ofNumbers "SUMPRODUCT" .math 1 none Matrix.sumProduct,
  .ofValues "CONCAT" .text 1 none Text.concat,
  .ofValues "IMSUM" .engineering 1 none (ComplexNumber.accumulate ⟨0, 0⟩ (· + ·)),
  .ofValues "IMPRODUCT" .engineering 1 none (ComplexNumber.accumulate ⟨1, 0⟩ (· * ·))]

/-- Functions to which a blank cell is 0, and that pass over a blank in a range. -/
def skippingBlanks : List Function := [
  .ofNumbers "PRODUCT" .math 1 none Arithmetic.product,
  .ofValues "AND" .logical 1 none Logic.and,
  .ofValues "OR" .logical 1 none Logic.or,
  .ofValues "XOR" .logical 1 none Logic.xor]

/-- Functions to which a blank cell is one more value. -/
def countingBlanks : List Function := [
  .ofNumbers "SUM" .math 1 none Arithmetic.sum,
  .ofNumbers "AVERAGEA" .statistical 1 none Statistics.averageA,
  .ofNumbers "LCM" .math 1 none Arithmetic.lcm]

def computing : List Function := readingBlanks ++ (skippingBlanks ++ countingBlanks)

/-- The functions that expand arrays. -/
def expanding : List Function := counting ++ computing

set_option maxRecDepth 4000 in
theorem find_expanding :
    expanding.map (fun f => Registry.find? builtins f.name) = expanding.map some := rfl

theorem expanding_builtin : expanding ⊆ builtins := by
  intro f hf
  have hmem : some f ∈ expanding.map some := List.mem_map_of_mem hf
  rw [← find_expanding] at hmem
  obtain ⟨g, -, hfind⟩ := List.mem_map.1 hmem
  exact Registry.mem_of_find? hfind

theorem mem_expanding : f ∈ expanding ↔
    f ∈ counting ∨ f ∈ readingBlanks ∨ f ∈ skippingBlanks ∨ f ∈ countingBlanks := by
  simp only [expanding, computing, List.mem_append]

theorem mem_of_name_mem {f : Function} {fs : List Function} (hf : f ∈ builtins)
    (hfs : fs ⊆ expanding) (hname : f.name ∈ fs.map Function.name) : f ∈ fs := by
  obtain ⟨g, hg, hname⟩ := List.mem_map.1 hname
  rw [← eq_of_name_eq (expanding_builtin (hfs hg)) hf hname]
  exact hg

theorem mem_computing {f : Function} (hf : f ∈ expanding)
    (hname : f.name ∉ counting.map Function.name) : f ∈ computing := by
  rcases List.mem_append.1 hf with hmem | hmem
  · exact absurd (List.mem_map_of_mem hmem) hname
  · exact hmem

theorem mem_readingBlanks {f : Function} (hf : f ∈ builtins)
    (hname : f.name ∈ (counting ++ readingBlanks).map Function.name) :
    f ∈ counting ++ readingBlanks := by
  apply mem_of_name_mem hf _ hname
  intro g hg
  apply mem_expanding.2
  rcases List.mem_append.1 hg with hg | hg
  · exact .inl hg
  · exact .inr (.inl hg)

theorem mem_skippingBlanks {f : Function} (hf : f ∈ builtins)
    (hname : f.name ∈ skippingBlanks.map Function.name) : f ∈ skippingBlanks := by
  apply mem_of_name_mem hf _ hname
  exact fun g hg => mem_expanding.2 (.inr (.inr (.inl hg)))

theorem eq_sum_of_name {f : Function} (hf : f ∈ builtins) (hname : f.name = "SUM") :
    f = .ofNumbers "SUM" .math 1 none Arithmetic.sum := by
  have hmem : .ofNumbers "SUM" .math 1 none Arithmetic.sum ∈ expanding :=
    mem_expanding.2 (.inr (.inr (.inr List.mem_cons_self)))
  exact eq_of_name_eq hf (expanding_builtin hmem) hname

/-! ### What an array of one value gives -/

namespace Function

variable {f : Function}

/-- An array of a value is what the value is where that is not blank, and an error in it is the
result. -/
structure OpensArrays (f : Function) : Prop where
  alike : ∀ v : Value, v.Simple → f.Alike (.found v) (.single false v)
  stopsAtErrors : f.StopsAtErrors

theorem Collects.opensArrays {parts : Argument → Result (List β)} (hf : f.Collects parts)
    (hfound : ∀ v : Value, v.Simple → parts (.found v) = parts (.single false v))
    (herror : ∀ e, parts (.single false (.error e)) = .error e) : f.OpensArrays :=
  ⟨fun v hv => hf.alike (hfound v hv), hf.stopsAtErrors herror⟩

end Function

section

variable {v : Value}

theorem mapM_expandedOf_single {h : Value × Bool → Result β} (hv : v.Simple) :
    (expandedOf (.found v)).mapM h = (expandedOf (.single false v)).mapM h := by
  cases hv <;> rfl

theorem mapM_expandedOf_error {h : Value × Bool → Result β}
    (he : ∀ e, h (.error e, false) = .error e) (e : ErrorValue) :
    (expandedOf (.single false (.error e))).mapM h = .error e := by
  change [((.error e : Value), false)].mapM h = _
  rw [List.mapM_cons, he]
  rfl

theorem numbersOf_single (hv : v.Simple) : numbersOf (.found v) = numbersOf (.single false v) := by
  cases hv <;> rfl

theorem Arithmetic.wholeOf_single (hv : v.Simple) :
    wholeOf blank (.found v) = wholeOf blank (.single false v) := by
  cases hv <;> rfl

theorem Logic.truthOf_single (hv : v.Simple) : truthOf (.found v) = truthOf (.single false v) := by
  cases hv <;> rfl

theorem Matrix.factorsOf_single (hv : v.Simple) :
    factorsOf (.found v) = factorsOf (.single false v) := by
  cases hv <;> rfl

/-- Empty text in a cell does not count, as a blank cell is empty text where it is read. -/
theorem Statistics.presentValues_single (hv : v.Simple) (htext : v ≠ .text "") :
    presentValues (.found v) = presentValues (.single false v) := by
  cases hv with
  | text s =>
    have hs : s ≠ "" := fun h => htext (congrArg Value.text h)
    simp [presentValues, Argument.found, Argument.single, Value.elements, hs]
  | _ => rfl

end

theorem computing_opensArrays : ∀ f ∈ computing, f.OpensArrays := by
  have hnumbers {f : Function} (hf : f.Collects numbersOf) : f.OpensArrays :=
    hf.opensArrays (fun _ => numbersOf_single) fun _ => rfl
  have hwhole {blank : Nat} {f : Function} (hf : f.Collects (Arithmetic.wholeOf blank)) :
      f.OpensArrays := hf.opensArrays (fun _ => Arithmetic.wholeOf_single) fun _ => rfl
  have htruths {f : Function} (hf : f.Collects Logic.truthOf) : f.OpensArrays :=
    hf.opensArrays (fun _ => Logic.truthOf_single) fun _ => rfl
  have hexpanded {β : Type} {h : Value × Bool → Result β} {f : Function}
      (hf : f.Collects fun a => (expandedOf a).mapM h) (he : ∀ e, h (.error e, false) = .error e) :
      f.OpensArrays := hf.opensArrays (fun _ => mapM_expandedOf_single) (mapM_expandedOf_error he)
  simp only [computing, readingBlanks, skippingBlanks, countingBlanks, List.cons_append,
    List.nil_append, List.forall_mem_cons]
  refine ⟨?_, ?_, ?_, ?_, ?_, ?_, ?_, ?_, ?_, ?_, ?_, ?_, ?_, ?_, ?_,
    fun f hf => absurd hf List.not_mem_nil⟩
  · exact hnumbers (collects_numbers _ fun _ => rfl)
  · exact hnumbers (collects_numbers _ fun _ => rfl)
  · exact hnumbers (collects_numbers _ fun _ => rfl)
  · exact hwhole (Arithmetic.collects_whole _ fun _ => rfl)
  · exact ⟨fun _ hv => Matrix.sumProduct_alike (Matrix.factorsOf_single hv),
      Matrix.sumProduct_stopsAtErrors⟩
  · exact hexpanded (collects_expanded _ fun _ => rfl) fun _ => rfl
  · exact hexpanded (collects_expanded _ fun _ => rfl) fun _ => rfl
  · exact hexpanded (collects_expanded _ fun _ => rfl) fun _ => rfl
  · exact hnumbers (collects_numbers _ fun _ => rfl)
  · exact htruths (Logic.collects_truths _ fun _ => rfl)
  · exact htruths (Logic.collects_truths _ fun _ => rfl)
  · exact htruths (Logic.collects_truths _ fun _ => rfl)
  · exact hnumbers (collects_numbers _ fun _ => rfl)
  · exact hexpanded (collects_expanded_number _ fun _ => rfl) fun _ => rfl
  · exact hwhole (Arithmetic.collects_whole _ fun _ => rfl)

theorem counting_alike : ∀ f ∈ counting, ∀ v : Value, v.Simple →
    (f.name = "COUNTA" → v ≠ .text "") → f.Alike (.found v) (.single false v) := by
  simp only [counting, List.forall_mem_cons]
  refine ⟨?_, ?_, ?_, fun f hf => absurd hf List.not_mem_nil⟩
  · exact fun v hv _ => (collects_counted fun _ => rfl).alike (mapM_expandedOf_single hv)
  · intro v hv htext
    apply Statistics.countA_collects.alike
    rw [Statistics.presentValues_single hv (htext rfl)]
  · exact fun v hv _ => (collects_counted fun _ => rfl).alike (mapM_expandedOf_single hv)

/-- An error in an array counts as a boolean does. -/
theorem counting_errors : ∀ f ∈ counting, ∀ e : ErrorValue,
    f.Alike (.single false (.error e)) (.single true (.boolean true)) := by
  simp only [counting, List.forall_mem_cons]
  refine ⟨?_, ?_, ?_, fun f hf => absurd hf List.not_mem_nil⟩
  · exact fun e => (collects_counted fun _ => rfl).alike rfl
  · exact fun e => Statistics.countA_collects.alike rfl
  · exact fun e => (collects_counted fun _ => rfl).alike rfl

theorem expanding_alike {f : Function} (hf : f ∈ expanding) {v : Value} (hv : v.Simple)
    (htext : f.name = "COUNTA" → v ≠ .text "") : f.Alike (.found v) (.single false v) := by
  rcases List.mem_append.1 hf with hf | hf
  · exact counting_alike f hf v hv htext
  · exact (computing_opensArrays f hf).alike v hv

/-! ### Blanks -/

/-- To these functions, a blank in an array is what a blank cell is. -/
theorem readingBlanks_alike : ∀ f ∈ counting ++ readingBlanks,
    f.Alike (.found f.category.nullValue) (.single false .empty) := by
  simp only [readingBlanks, counting, List.cons_append, List.nil_append, List.forall_mem_cons]
  refine ⟨?_, ?_, ?_, ?_, ?_, ?_, ?_, ?_, ?_, ?_, ?_, fun f hf => absurd hf List.not_mem_nil⟩
  · exact (collects_counted fun _ => rfl).alike rfl
  · exact Statistics.countA_collects.alike rfl
  · exact (collects_counted fun _ => rfl).alike rfl
  · exact (collects_numbers _ fun _ => rfl).alike rfl
  · exact (collects_numbers _ fun _ => rfl).alike rfl
  · exact (collects_numbers _ fun _ => rfl).alike rfl
  · exact (Arithmetic.collects_whole _ fun _ => rfl).alike rfl
  · exact Matrix.sumProduct_alike rfl
  · exact (collects_expanded _ fun _ => rfl).alike rfl
  · exact (collects_expanded _ fun _ => rfl).alike rfl
  · exact (collects_expanded _ fun _ => rfl).alike rfl

/-- The function passes over a blank in an array. A blank cell is 0 to it. -/
structure Function.SkipsBlanks (f : Function) : Prop where
  alike : f.Alike (.found f.category.nullValue) (.ofValue (.number 0))
  passesOver : f.PassesOver (.single false .empty)
  acceptsCount : ∀ n, f.acceptsCount n = decide (1 ≤ n)
  alone : ∃ g, f.body = .values g ∧ ∀ position,
    g position [.single false .empty] =
      if f.name = "PRODUCT" then .ok (.number 0) else .error .value

theorem skippingBlanks_skipsBlanks : ∀ f ∈ skippingBlanks, f.SkipsBlanks := by
  have hcount (n : Nat) : (decide (1 ≤ n) && true) = decide (1 ≤ n) := Bool.and_true _
  simp only [skippingBlanks, List.forall_mem_cons]
  refine ⟨?product, ?and, ?or, ?xor, fun f hf => absurd hf List.not_mem_nil⟩
  case product => exact ⟨(collects_numbers _ fun _ => rfl).alike rfl,
    (collects_numbers _ fun _ => rfl).passesOver rfl, hcount, _, rfl, fun _ => rfl⟩
  all_goals exact ⟨(Logic.collects_truths _ fun _ => rfl).alike rfl,
    (Logic.collects_truths _ fun _ => rfl).passesOver rfl, hcount, _, rfl, fun _ => rfl⟩

/-- A blank cell is one more number in a sum, which it does not change but in the sign of zero. -/
theorem Arithmetic.sum_blank (as bs : List Argument) :
    sum (as ++ .found (.number 0) :: bs) = sum (as ++ .single false .empty :: bs) ∨
      sum (as ++ .found (.number 0) :: bs) = .ok 0 ∧
        sum (as ++ .single false .empty :: bs) = .ok (-0.0) := by
  have hfound : numbersOf (.found (.number 0)) = .ok [0] := rfl
  have hblank : numbersOf (.single false .empty) = .ok [] := rfl
  simp only [sum, aggregatedNumbers_eq, collect_insert, hfound, hblank]
  cases collect numbersOf as with
  | error e => exact .inl rfl
  | ok xs =>
    cases collect numbersOf bs with
    | error e => exact .inl rfl
    | ok ys =>
      rcases sum_insert_zero xs ys with h | ⟨hzero, hnegative⟩
      · exact .inl (congrArg Except.ok h)
      · exact .inr ⟨congrArg Except.ok hzero, congrArg Except.ok hnegative⟩

theorem expanding_category {f : Function} (hf : f ∈ expanding) :
    f.category ≠ .information ∧ f.acceptsErrors = false := by
  have hall : expanding.all (fun f => f.category != .information && !f.acceptsErrors) = true := rfl
  simpa using List.all_eq_true.1 hall f hf

end Spreadsheet
