import Mathlib
import Spreadsheet.Engine
import Spreadsheet.Proofs.Evaluation.Closed
import Spreadsheet.Proofs.Evaluation.Elements

/-!
Arrays stay rectangular. Where names, cells, elements of ranges and the results of functions that
were added hold no other arrays, a formula makes no others, and its calls of `INDEX`, `TRANSPOSE`
and `MMULT` find all elements that they look for.
-/

namespace Spreadsheet

/-- The results of a function hold rectangular arrays only, those of a function of values at least
where the arguments do. -/
def Function.MakesRectangular (source : Source) (f : Function) : Prop :=
  match f.body with
  | .values g => ∀ position, Keeps Value.Rectangular (g position)
  | .operands g => ∀ position operands v,
      ((g position operands).run source).1 = .ok (.ok v) → v.Rectangular

/-- Names are bound to rectangular values, and functions that are not built in make such values. -/
structure Scope.Rectangular (scope : Scope) (source : Source) : Prop where
  names : ∀ entry ∈ scope.names, entry.2.Rectangular
  functions : ∀ f ∈ scope.functions, f ∈ builtins ∨ f.MakesRectangular source

/-- All arrays that an engine gets from outside are rectangular, but for the rows of ranges. -/
structure Engine.Rectangular (engine : Engine) : Prop where
  source : engine.source.Rectangular
  scope : ∀ position, (engine.scope position).Rectangular engine.source

theorem Registry.mem_register {registry : Registry} (h : f ∈ registry.register g) :
    f ∈ registry ∨ f = g := by
  unfold register at h
  split at h
  · obtain ⟨f', hf', rfl⟩ := List.mem_map.1 h
    split
    · exact .inr rfl
    · exact .inl hf'
  · exact (List.mem_append.1 h).imp id List.mem_singleton.1

theorem Registry.mem_foldl_register {registry : Registry} {functions : List Function}
    (h : f ∈ functions.foldl register registry) : f ∈ registry ∨ f ∈ functions := by
  induction functions generalizing registry with
  | nil => exact .inl h
  | cons g functions ih =>
    rcases ih h with h | h
    · rcases mem_register h with h | rfl
      · exact .inl h
      · exact .inr List.mem_cons_self
    · exact .inr (List.mem_cons_of_mem _ h)

theorem Names.mem_foldl_set {names : Names} {bound : List (String × Value)}
    (h : entry ∈ bound.foldl (fun ns (name, v) => ns.set name v) names) :
    entry ∈ names ∨ ∃ name, (name, entry.2) ∈ bound := by
  induction bound generalizing names with
  | nil => exact .inl h
  | cons first bound ih =>
    rcases ih h with h | ⟨name, h⟩
    · rcases List.mem_cons.1 h with rfl | h
      · exact .inr ⟨first.1, List.mem_cons_self⟩
      · exact .inl h
    · exact .inr ⟨name, List.mem_cons_of_mem _ h⟩

theorem Engine.new_rectangular {source : Source} {names : List (String × Value)}
    {functions : List Function} (hs : source.Rectangular)
    (hn : ∀ entry ∈ names, entry.2.Rectangular)
    (hf : ∀ f ∈ functions, f.MakesRectangular source) :
    (Engine.new source names functions).Rectangular where
  source := hs
  scope := by
    intro position
    constructor
    · intro entry h
      rcases Names.mem_foldl_set h with h | ⟨name, h⟩
      · exact absurd h List.not_mem_nil
      · exact hn (name, entry.2) h
    · intro f h
      exact (Registry.mem_foldl_register h).imp id (hf f)

/-! ### Evaluation -/

section

variable {source : Source} {scope : Scope}

theorem Function.MakesRectangular.bounded {f : Function} (h : f.MakesRectangular source) :
    f.Bounded Value.Rectangular source fun _ => True := by
  unfold MakesRectangular at h
  unfold Bounded Makes
  cases hbody : f.body with
  | values g =>
    rw [hbody] at h
    exact h
  | operands g =>
    rw [hbody] at h
    intro position operands _
    exact Query.within_true_iff.2 fun x hx v hv => h position operands v (hv ▸ hx)

theorem bounded_of_builtin_or (h : f ∈ builtins ∨ f.MakesRectangular source) :
    f.Bounded Value.Rectangular source fun _ => True := by
  rcases h with h | h
  · rcases builtins_bounded hasSimple_rectangular Lookup.index_rectangular
      Matrix.mmult_rectangular Matrix.transpose_rectangular f h with h | rfl
    · exact h
    · exact Conditional.sumIf_makes hasSimple_rectangular
  · exact h.bounded

theorem rectangular_constant {rows : List (List Literal)} (h : SameLength rows) :
    (Value.array (rows.map fun row => row.map Literal.toValue)).Rectangular := by
  apply Value.Rectangular.array
  · exact h.map fun row => List.length_map _
  · intro row hrow v hv
    obtain ⟨ls, -, rfl⟩ := List.mem_map.1 hrow
    obtain ⟨l, -, rfl⟩ := List.mem_map.1 hv
    exact .simple l.toValue_simple

/-- A formula with rectangular array constants only makes rectangular values of such values. -/
theorem Closed.rectangular (hs : source.Rectangular) (hscope : scope.Rectangular source)
    (he : e.Rectangular) : Closed Value.Rectangular scope source e where
  literal := fun l _ => .simple l.toValue_simple
  array := fun rows hrows => rectangular_constant (he rows hrows)
  reference := .reference
  error := fun e => .simple (.error e)
  empty := .empty
  zero := .simple (.number 0)
  names := hscope.names
  read := fun r => r.read_within hs.gives (fun _ _ _ _ => trivial) trivial
  sign := fun op _ _ _ _ hv => op.apply_rectangular hv
  percent := fun _ _ _ _ hv => hv.mapNumbers _
  binary := fun op _ _ hv hw => op.apply_rectangular hv hw
  call := by
    intro name args f _ hfind hops
    have hbounded := bounded_of_builtin_or (hscope.functions f (List.mem_of_find?_eq_some hfind))
    exact hbounded.call hasSimple_rectangular scope.position hops

end

/-- Every array that is made for a part of a formula is rectangular, as it is and when it is read,
and so is every argument of a call; among such arguments no element is looked for that is not
there. -/
theorem arrays_rectangular (engine : Engine) (position : Option Position)
    (hengine : engine.Rectangular) (h : parseFormula text = .ok e) (hs : s.Occurs e) :
    let source := engine.source
    let scope := engine.scope position
    (∀ v, ((evaluate scope s).run source).1 = .ok v → v.Rectangular) ∧
    (∀ v, ((evaluate scope s >>= Value.read).run source).1 = .ok v → v.Rectangular) ∧
    ∀ name args c arguments, s = .call name args →
      ((Function.readOperands c (operands scope args)).run source).1 = .ok arguments →
        (∀ a ∈ arguments, a.value.Rectangular) ∧
        Lookup.index? arguments = some (Lookup.index arguments) ∧
        Matrix.transpose? arguments = some (Matrix.transpose arguments) ∧
        Matrix.mmult? arguments = some (Matrix.mmult arguments) := by
  intro source scope
  have hrect := (parseFormula_rectangular h).of_occurs hs
  have hclosed := Closed.rectangular hengine.source (hengine.scope position) hrect
  refine ⟨Query.within_true_iff.1 (hclosed.evaluate_within s (.self s)),
    hclosed.reads s (.self s), ?_⟩
  intro name args c arguments hcall harguments
  subst hcall
  have hops := hclosed.operands_readable args fun a ha => .call ha (.self a)
  have hvalues := Query.within_true_iff.1
    (Function.readOperands_within hasSimple_rectangular c hops) arguments harguments
  exact ⟨hvalues, Lookup.index?_eq hvalues, Matrix.transpose?_eq hvalues,
    Matrix.mmult?_eq hvalues⟩

theorem arrays_rectangular_ragged :
    let source : Source := ⟨fun _ => .ok .empty, fun _ => .ok [[.number 1, .number 2], []]⟩
    let pair : Function :=
      .ofValues "PAIR" .custom 0 none fun _ => .ok (.array [[.number 1, .number 2]])
    let engine := Engine.new source [("X", .array [[.number 2]])] [pair]
    let args : List Expr := [.binary (.value .concat) (.range ⟨none, .ofIndices 1 1 2 2⟩)
      (.call "PAIR" []), .name "X"]
    parseFormula "=INDEX(A1:B2&PAIR(),X)" = .ok (.call "INDEX" args) ∧
      ∃ arguments, ((Function.readOperands .reference
          (operands (engine.scope none) args)).run source).1 = .ok arguments ∧
        (∀ a ∈ arguments, a.value.Rectangular) ∧
        Lookup.index? arguments = some (Lookup.index arguments) := by
  intro source pair engine args
  have hlex : tokenize "=INDEX(A1:B2&PAIR(),X)" = .ok ⟨[⟨.ident "INDEX", "INDEX", ⟨1, 2⟩, false⟩,
    ⟨.symbol .leftParen, "(", ⟨1, 7⟩, false⟩, ⟨.cell (.relative 1 1), "A1", ⟨1, 8⟩, false⟩,
    ⟨.symbol .colon, ":", ⟨1, 10⟩, false⟩, ⟨.cell (.relative 2 2), "B2", ⟨1, 11⟩, false⟩,
    ⟨.symbol .ampersand, "&", ⟨1, 13⟩, false⟩, ⟨.ident "PAIR", "PAIR", ⟨1, 14⟩, false⟩,
    ⟨.symbol .leftParen, "(", ⟨1, 18⟩, false⟩, ⟨.symbol .rightParen, ")", ⟨1, 19⟩, false⟩,
    ⟨.symbol .comma, ",", ⟨1, 20⟩, false⟩, ⟨.ident "X", "X", ⟨1, 21⟩, false⟩,
    ⟨.symbol .rightParen, ")", ⟨1, 22⟩, false⟩], ⟨1, 23⟩, false⟩ := rfl
  have hparse : parseFormula "=INDEX(A1:B2&PAIR(),X)" = .ok (.call "INDEX" args) := by
    rw [parseFormula, hlex]
    cbv
  have hnumber (x : Float) : (Value.number x).Rectangular := .simple (.number x)
  have hsource : source.Rectangular := by
    constructor
    · intro ref v h
      cases h
      exact .empty
    · intro ref rows h
      cases h
      simp [hnumber]
  have hengine : engine.Rectangular := by
    apply Engine.new_rectangular hsource
    · intro entry hentry
      rw [List.mem_singleton.1 hentry]
      exact rectangular_row (by simp [hnumber])
    · intro f hf
      rw [List.mem_singleton.1 hf]
      exact fun _ _ _ => yields_ok.2 (rectangular_row (by simp [hnumber]))
  have hread : ∃ arguments, ((Function.readOperands .reference
      (operands (engine.scope none) args)).run source).1 = .ok arguments := ⟨_, rfl⟩
  obtain ⟨arguments, hread⟩ := hread
  have h := (arrays_rectangular engine none hengine hparse (.self _)).2.2 _ _ .reference
    arguments rfl hread
  exact ⟨hparse, arguments, hread, h.1, h.2.1⟩

end Spreadsheet
