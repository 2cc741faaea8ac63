import Spreadsheet.Proofs.Evaluation.Errors

/-!
Calls of functions of values. What such a call comes to depends on what its arguments are read as,
and not on how they are written.
-/

namespace Spreadsheet

variable {scope : Scope} {source : Source}

/-- The value of an expression; references are not read. -/
def Expr.Evaluates (scope : Scope) (source : Source) (e : Expr) (v : Value) : Prop :=
  ((evaluate scope e).run source).1 = .ok v

/-- A value that an argument has as it is: neither a blank, which would become the blank of the
category, nor an error, which would end the call. -/
def Value.isPlain : Value → Bool
  | .empty | .error _ => false
  | _ => true

theorem Value.error?_of_isPlain {v : Value} (h : v.isPlain = true) : v.error? = none := by
  cases v with
  | error e => cases h
  | _ => rfl

theorem Expr.Evaluates.reads {e : Expr} {v : Value} (h : e.Evaluates scope source v)
    (hv : ∀ r, v ≠ .reference r) : e.Reads scope source v := by
  refine (Query.bind_ends_in h).trans ?_
  cases v with
  | reference r => exact absurd rfl (hv r)
  | _ => rfl

theorem Expr.Evaluates.reads_number {e : Expr} (h : e.Evaluates scope source (.number x)) :
    e.Reads scope source (.number x) :=
  h.reads fun _ h => by cases h

theorem Expr.Evaluates.reads_text {e : Expr} (h : e.Evaluates scope source (.text s)) :
    e.Reads scope source (.text s) :=
  h.reads fun _ h => by cases h

theorem Expr.reads_number (x : Float) : (literal (.number x)).Reads scope source (.number x) := rfl

theorem Expr.reads_text (s : String) : (literal (.text s)).Reads scope source (.text s) := rfl

/-! ### Arguments -/

/-- The arguments stand in slots that are not empty and have these values. -/
def AreArguments (args : List Argument) (vs : List Value) : Prop :=
  args.map Argument.value = vs ∧ ∀ a ∈ args, a.omitted = false

theorem areArguments_ofValue (vs : List Value) : AreArguments (vs.map Argument.ofValue) vs := by
  refine ⟨by rw [List.map_map]; exact List.map_id vs, fun a ha => ?_⟩
  obtain ⟨v, -, rfl⟩ := List.mem_map.1 ha
  rfl

theorem AreArguments.valueAt {args : List Argument} {vs : List Value} (h : AreArguments args vs)
    (i : Nat) : valueAt args i = orError .value vs[i]? := by
  rw [Spreadsheet.valueAt, ← h.1, List.getElem?_map]
  cases args[i]? <;> rfl

theorem AreArguments.givenAt? {args : List Argument} {vs : List Value} (h : AreArguments args vs)
    (i : Nat) : givenAt? args i = vs[i]? := by
  rw [Spreadsheet.givenAt?, ← h.1, List.getElem?_map]
  cases ha : args[i]? with
  | none => rfl
  | some a => simp [h.2 a (List.mem_of_getElem? ha)]

theorem AreArguments.numberAt {args : List Argument} {vs : List Value} (h : AreArguments args vs)
    (hi : vs[i]? = some (.number x)) : numberAt args i = .ok x := by
  rw [Spreadsheet.numberAt, h.valueAt, hi]
  rfl

theorem AreArguments.textAt {args : List Argument} {vs : List Value} (h : AreArguments args vs)
    (hi : vs[i]? = some (.text s)) : textAt args i = .ok s := by
  rw [Spreadsheet.textAt, h.valueAt, hi]
  rfl

theorem AreArguments.numberAtOr {args : List Argument} {vs : List Value}
    (h : AreArguments args vs) (d : Float) :
    numberAtOr args i d = (vs[i]?.elim (.ok d) Value.toNumber : Result Float) := by
  rw [Spreadsheet.numberAtOr, h.givenAt?]
  cases vs[i]? <;> rfl

theorem Argument.value_ofRead {v : Value} (h : v.isPlain = true) (c : Category) (r : Reference) :
    (ofRead c r v).value = v := by
  cases v with
  | empty => cases h
  | _ => rfl

/-- What an expression is read as is the value of the argument that it becomes. -/
theorem Expr.Reads.argument {e : Expr} {v : Value} (h : e.Reads scope source v)
    (hv : v.isPlain = true) (c : Category) :
    ∃ a, (((Operand.given (evaluate scope e)).argument c).run source).1 = .ok a ∧ a.value = v ∧
      a.omitted = false := by
  rw [Reads, Query.run_bind_fst] at h
  obtain ⟨w, hw, h⟩ := bind_eq_ok.1 h
  rw [Operand.argument, Query.bind_ends_in hw]
  cases w with
  | reference r =>
    change (r.read.run source).1 = .ok v at h
    refine ⟨.ofRead c r v, ?_, Argument.value_ofRead hv c r, rfl⟩
    rw [Query.run_map, h]
    rfl
  | _ =>
    cases h
    exact ⟨_, rfl, rfl, rfl⟩

theorem operands_cons (scope : Scope) (e : Expr) :
    ∃ o : Operand, o.query = evaluate scope e ∧
      ∀ rest, operands scope (e :: rest) = o :: operands scope rest := by
  cases e <;> exact ⟨_, rfl, fun rest => rfl⟩

theorem operands_given {e : Expr} (he : e ≠ .omitted) (rest : List Expr) :
    operands scope (e :: rest) = .given (evaluate scope e) :: operands scope rest := by
  cases e with
  | omitted => exact absurd rfl he
  | _ => rfl

theorem readOperands_of_reads {es : List Expr} {vs : List Value} (c : Category)
    (h : List.Forall₂ (Expr.Reads scope source) es vs) (hplain : ∀ v ∈ vs, v.isPlain = true) :
    ∃ args, ((Function.readOperands c (operands scope es)).run source).1 = .ok args ∧
      AreArguments args vs := by
  induction h with
  | nil => exact ⟨[], rfl, rfl, fun _ h => absurd h List.not_mem_nil⟩
  | @cons e v es vs he _ ih =>
    obtain ⟨hv, hplain⟩ := List.forall_mem_cons.1 hplain
    obtain ⟨args, hargs, hvalues, hgiven⟩ := ih hplain
    obtain ⟨a, ha, hvalue, ha'⟩ := he.argument hv c
    -- an empty slot is read as a blank
    have hne : e ≠ .omitted := by
      rintro rfl
      cases he
      cases hv
    refine ⟨a :: args, ?_, congrArg₂ List.cons hvalue hvalues,
      List.forall_mem_cons.2 ⟨ha', hgiven⟩⟩
    rw [operands_given hne, Function.readOperands_cons, Query.bind_ends_in ha,
      Query.bind_ends_in hargs]
    rfl

/-! ### Calls -/

/-- A function sees its arguments if none of them is an error. -/
theorem Function.onArguments_of_ok {f : Function} {g : List Argument → Result Value}
    {args : List Argument} (h : ∀ a ∈ args, a.value.error? = none) :
    f.onArguments g args = .ofResult (g args) := by
  have hblocking : f.blockingError? args = none := by
    unfold Function.blockingError?
    split
    · rfl
    · exact List.findSome?_eq_none_iff.2 h
  rw [onArguments, hblocking]

/-- The call of a function of values on arguments that are no errors. -/
theorem evaluates_call {f : Function} {g : Option Position → List Argument → Result Value}
    {es : List Expr} {vs : List Value} {result : Result Value}
    (hfind : scope.functions.find? name = some f) (hbody : f.body = .values g)
    (hcount : f.acceptsCount es.length = true) (h : List.Forall₂ (Expr.Reads scope source) es vs)
    (hplain : ∀ v ∈ vs, v.isPlain = true)
    (hg : ∀ args, AreArguments args vs → g scope.position args = result) :
    (Expr.call name es).Evaluates scope source (Function.close (.ofResult result)) := by
  obtain ⟨args, hread, hargs⟩ := readOperands_of_reads f.category h hplain
  have hnone : ∀ a ∈ args, a.value.error? = none := by
    intro a ha
    apply Value.error?_of_isPlain
    apply hplain
    rw [← hargs.1]
    exact List.mem_map_of_mem ha
  rw [← length_operands scope es] at hcount
  rw [Expr.Evaluates, evaluate_call hfind, Function.call, if_pos hcount, hbody]
  refine (Query.bind_ends_in hread).trans ?_
  change Except.ok (Function.close (f.onArguments (g scope.position) args)) = _
  rw [Function.onArguments_of_ok hnone, hg args hargs]

end Spreadsheet
