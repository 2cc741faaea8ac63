import Spreadsheet.Eval
import Spreadsheet.Proofs.Evaluation.Closed
import Spreadsheet.Proofs.Evaluation.Failures

/-!
Runs of queries one after the other, and of the operands of a call: each operand is an argument of
its own, and the arguments are read from left to right.
-/

namespace Spreadsheet

variable {source : Source}

namespace Query

theorem bind_done (q : Query α) : q >>= Query.done = q := by
  induction q with
  | done a => rfl
  | cell ref next ih => exact congrArg (cell ref) (funext ih)
  | range ref next ih => exact congrArg (range ref) (funext ih)
  | unknown function next ih => exact congrArg (unknown function) ih

/-- What a run ends in, without the functions that it notes. -/
theorem run_bind_fst (q : Query α) (f : α → Query β) :
    ((q >>= f).run source).1 = (q.run source).1 >>= fun a => ((f a).run source).1 := by
  rw [run_bind]
  cases (q.run source).1 <;> rfl

theorem bind_ends_in {q : Query α} {f : α → Query β} (h : (q.run source).1 = .ok a) :
    ((q >>= f).run source).1 = ((f a).run source).1 := by
  rw [run_bind_fst, h]
  rfl

theorem bind_fails_iff {q : Query α} {f : α → Query β} :
    ((q >>= f).run source).1 = .error message ↔
      (q.run source).1 = .error message ∨
        ∃ a, (q.run source).1 = .ok a ∧ ((f a).run source).1 = .error message := by
  rw [run_bind_fst]
  cases (q.run source).1 with
  | ok a =>
    constructor
    · exact fun h => .inr ⟨a, rfl, h⟩
    · intro h
      rcases h with h | ⟨b, hb, h⟩
      · cases h
      · cases hb
        exact h
  | error reason =>
    change Except.error reason = _ ↔ _
    constructor
    · exact fun h => .inl (congrArg Except.error (Except.error.inj h))
    · intro h
      rcases h with h | ⟨b, hb, -⟩
      · exact congrArg Except.error (Except.error.inj h)
      · cases hb

end Query

/-! ### Operands -/

/-- The argument that an operand becomes for functions of a category. -/
def Operand.argument (c : Category) : Operand → Query Argument
  | .omitted => .done (.ofOmitted c)
  | .given q => do
    match ← q with
    | .reference r => .ofRead c r <$> r.read
    | v => .done (.ofValue v)

namespace Function

theorem readOperands_cons (c : Category) (o : Operand) (rest : List Operand) :
    readOperands c (o :: rest) = do
      let a ← o.argument c
      return a :: (← readOperands c rest) := by
  cases o with
  | omitted => rfl
  | given q =>
    rw [readOperands, Operand.argument, Query.bind_assoc]
    congr 1
    funext v
    cases v <;> rfl

theorem readOperands_append (c : Category) (os os' : List Operand) :
    readOperands c (os ++ os') = do
      let args ← readOperands c os
      return args ++ (← readOperands c os') := by
  induction os with
  | nil => exact (Query.bind_done _).symm
  | cons o os ih =>
    rw [List.cons_append, readOperands_cons, readOperands_cons, ih]
    simp only [Query.bind_assoc]
    rfl

end Function

theorem operands_query (scope : Scope) (args : List Expr) :
    (operands scope args).map Operand.query = args.map (evaluate scope) := by
  induction args with
  | nil => rfl
  | cons e rest ih => cases e <;> exact congrArg₂ List.cons rfl ih

theorem operands_append (scope : Scope) (args args' : List Expr) :
    operands scope (args ++ args') = operands scope args ++ operands scope args' := by
  induction args with
  | nil => rfl
  | cons e rest ih => cases e <;> exact congrArg (_ :: ·) ih

end Spreadsheet
