import Spreadsheet.Engine
import Spreadsheet.Proofs.Floats.WholeParts
import Spreadsheet.Proofs.Lookups.Arguments

/-!
Calls of functions whose arguments and results are numbers.
-/

namespace Spreadsheet

variable {scope : Scope} {source : Source} {name : String} {c : Category} {lo : Nat}
  {hi : Option Nat} {g : List Argument → Result Float} {es : List Expr} {xs : List Float}

/-- The value of the expression is a finite float that stands for the number. Both zeros do for
0. -/
def Expr.Yields (scope : Scope) (source : Source) (e : Expr) (v : ℚ) : Prop :=
  ∃ x, Represents x v ∧ e.Evaluates scope source (.number x)

/-- The expression is read as a finite float that stands for the number. -/
def Expr.ReadsAs (scope : Scope) (source : Source) (e : Expr) (v : ℚ) : Prop :=
  ∃ x, Represents x v ∧ e.Reads scope source (.number x)

theorem Expr.Yields.unique {e : Expr} {v w : ℚ} (h : e.Yields scope source v)
    (h' : e.Yields scope source w) : v = w := by
  obtain ⟨x, hx, he⟩ := h
  obtain ⟨y, hy, he'⟩ := h'
  rw [Expr.Evaluates, he] at he'
  cases he'
  exact hx.unique hy

theorem Expr.readsAs_literal {x : Float} {v : ℚ} (h : Represents x v) :
    (Expr.literal (.number x)).ReadsAs scope source v := ⟨x, h, Expr.reads_number x⟩

/-- There are scopes that know the built-in functions. -/
theorem exists_scope :
    ∃ scope : Scope, ∀ name, scope.functions.find? name = Registry.find? builtins name :=
  ⟨⟨builtins, [], none⟩, fun _ => rfl⟩

/-- The value of a call of a function of numbers; a result that is not finite is an error. -/
theorem evaluates_numbers {result : Result Float}
    (hfind : scope.functions.find? name = some (.ofNumbers name c lo hi g))
    (hcount : (Function.ofNumbers name c lo hi g).acceptsCount es.length = true)
    (h : List.Forall₂ (fun e x => e.Reads scope source (.number x)) es xs)
    (hg : ∀ args, AreArguments args (xs.map Value.number) → g args = result) :
    (Expr.call name es).Evaluates scope source
      (Function.close (.ofResult (Value.number <$> result))) := by
  refine evaluates_call hfind rfl hcount (List.forall₂_map_right_iff.2 h) ?_ fun args hargs =>
    congrArg (Value.number <$> ·) (hg args hargs)
  intro v hv
  obtain ⟨x, -, rfl⟩ := List.mem_map.1 hv
  rfl

theorem evaluates_finite {y : Float}
    (hfind : scope.functions.find? name = some (.ofNumbers name c lo hi g))
    (hcount : (Function.ofNumbers name c lo hi g).acceptsCount es.length = true)
    (h : List.Forall₂ (fun e x => e.Reads scope source (.number x)) es xs)
    (hg : ∀ args, AreArguments args (xs.map Value.number) → g args = .ok y)
    (hy : y.isFinite = true) : (Expr.call name es).Evaluates scope source (.number y) := by
  have hcall := evaluates_numbers hfind hcount h hg
  change (Expr.call name es).Evaluates scope source (if y.isFinite then _ else _) at hcall
  rwa [if_pos hy] at hcall

end Spreadsheet
