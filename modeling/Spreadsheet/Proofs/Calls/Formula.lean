import Spreadsheet.Proofs.Calls.Evaluated

/-!
The unregistered functions that a formula calls, told along the formula itself. They are what its
evaluation notes.
-/

namespace Spreadsheet

namespace Expr

mutual

/-- The unregistered functions that are called when the formula is evaluated, in order. The
arguments of such a call are not evaluated, and after a failure of the source nothing is. -/
def calls (scope : Scope) (source : Source) : Expr → List String
  | literal _ | array _ | cell _ | range _ | name _ | omitted => []
  | union parts => callsOfParts scope source parts
  | sign _ operand | percent operand => operand.calls scope source
  | binary (.value _) left right =>
    left.calls scope source ++
      if ((evaluate scope left >>= Value.read).run source).1.isOk then right.calls scope source
      else []
  | binary (.reference _) left right =>
    left.calls scope source ++
      if ((evaluate scope left).run source).1.isOk then right.calls scope source else []
  | call function args =>
    match scope.functions.find? function with
    | none => [upperName function]
    | some f =>
      (f.evaluated source scope.position (operands scope args)).flatMap
        ((callsOfArgs scope source args).getD · [])

/-- What each argument of a call calls. -/
def callsOfArgs (scope : Scope) (source : Source) : List Expr → List (List String)
  | [] => []
  | e :: rest => e.calls scope source :: callsOfArgs scope source rest

/-- What the parts of a union call, up to the first part that is no reference. -/
def callsOfParts (scope : Scope) (source : Source) : List Expr → List String
  | [] => []
  | e :: rest =>
    e.calls scope source ++
      match ((evaluate scope e).run source).1 with
      | .ok v => if v.toReferences.isOk then callsOfParts scope source rest else []
      | .error _ => []

end

end Expr

variable {scope : Scope} {source : Source}

mutual

/-- Evaluation notes the calls of the formula. -/
theorem noted_evaluate (hf : ∀ f ∈ scope.functions, f.Transparent) :
    (e : Expr) → (evaluate scope e).noted source = e.calls scope source
  | .literal _ => rfl
  | .array _ => rfl
  | .cell _ => rfl
  | .range _ => rfl
  | .name _ => rfl
  | .omitted => rfl
  | .union parts => (Query.noted_map _ _).trans (noted_unionParts hf parts)
  | .sign op operand => by
    rw [evaluate, Query.noted_bind_silent, noted_evaluate hf operand, Expr.calls]
    exact fun v => (Query.noted_map _ _).trans v.noted_read
  | .percent operand => by
    rw [evaluate, Query.noted_bind_silent, noted_evaluate hf operand, Expr.calls]
    exact fun v => (Query.noted_map _ _).trans v.noted_read
  | .binary (.value op) left right => by
    have hright (v : Value) : (do
        let w ← evaluate scope right
        return op.apply v (← w.read) : Query Value).noted source = right.calls scope source := by
      rw [Query.noted_bind_silent, noted_evaluate hf right]
      exact fun w => (Query.noted_map _ _).trans w.noted_read
    rw [evaluate, ← Query.bind_assoc, Query.noted_bind_const hright,
      Query.noted_bind_silent fun v => v.noted_read, noted_evaluate hf left, Expr.calls]
  | .binary (.reference op) left right => by
    have hright (v : Value) : (do
        return op.apply v (← evaluate scope right) : Query Value).noted source =
          right.calls scope source :=
      (Query.noted_map _ _).trans (noted_evaluate hf right)
    rw [evaluate, Query.noted_bind_const hright, noted_evaluate hf left, Expr.calls]
  | .call name args => by
    rw [evaluate, Scope.call, Expr.calls]
    cases hfind : scope.functions.find? name with
    | none => rfl
    | some f =>
      have htransparent := hf f (Registry.mem_of_find? hfind)
      have hargs := noted_args hf args
      dsimp only
      rw [htransparent source scope.position, ← hargs, ← operands_query, List.map_map]
      rfl

theorem noted_args (hf : ∀ f ∈ scope.functions, f.Transparent) :
    (es : List Expr) → (es.map (evaluate scope)).map (Query.noted source) =
      Expr.callsOfArgs scope source es
  | [] => rfl
  | e :: rest => congrArg₂ List.cons (noted_evaluate hf e) (noted_args hf rest)

theorem noted_unionParts (hf : ∀ f ∈ scope.functions, f.Transparent) :
    (es : List Expr) → (unionParts scope es).noted source = Expr.callsOfParts scope source es
  | [] => rfl
  | e :: rest => by
    rw [unionParts, Query.noted_bind, noted_evaluate hf e, Expr.callsOfParts]
    apply congrArg (e.calls scope source ++ ·)
    cases ((evaluate scope e).run source).1 with
    | error message => rfl
    | ok v =>
      dsimp only
      cases v.toReferences with
      | error err => rfl
      | ok rs => exact (Query.noted_map _ _).trans (noted_unionParts hf rest)

end

theorem noted_formulaResult (hf : ∀ f ∈ scope.functions, f.Transparent) (e : Expr) :
    (formulaResult scope e).noted source = e.calls scope source := by
  rw [formulaResult, Query.noted_bind_silent, noted_evaluate hf]
  exact fun v => (Query.noted_map _ _).trans v.noted_readResult

end Spreadsheet
