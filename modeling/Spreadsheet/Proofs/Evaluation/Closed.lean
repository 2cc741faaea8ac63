import Spreadsheet.Proofs.Evaluation.Kinds
import Spreadsheet.Proofs.Grammar.Constants

/-!
Kinds of values that the parts of a formula do not lead out of: then all values that it makes are of
the kind.
-/

namespace Spreadsheet

theorem Query.bind_assoc (q : Query α) (f : α → Query β) (g : β → Query γ) :
    (q >>= f) >>= g = q >>= fun a => f a >>= g := by
  induction q with
  | done a => rfl
  | cell ref next ih => exact congrArg (Query.cell ref) (funext ih)
  | range ref next ih => exact congrArg (Query.range ref) (funext ih)
  | unknown function next ih => exact congrArg (Query.unknown function) ih

theorem ReferenceOp.apply_cases (op : ReferenceOp) (v w : Value) :
    (∃ r, op.apply v w = .reference r) ∨ ∃ e, op.apply v w = .error e := by
  unfold ReferenceOp.apply
  split
  · exact .inr ⟨_, rfl⟩
  · exact .inr ⟨_, rfl⟩
  · rename_i r s
    cases op.join r s with
    | error e => exact .inr ⟨e, rfl⟩
    | ok t => exact .inl ⟨t, rfl⟩
  · exact .inr ⟨_, rfl⟩

/-- The value that stands for a part of a formula, read from the source. -/
def Expr.Reads (scope : Scope) (source : Source) (e : Expr) (v : Value) : Prop :=
  ((evaluate scope e >>= Value.read).run source).1 = .ok v

/-- What the parts of a formula make of values of the kind is of the kind again. -/
structure Closed (kind : Value → Prop) (scope : Scope) (source : Source) (e : Expr) : Prop where
  literal : ∀ l, Expr.Occurs (.literal l) e → kind l.toValue
  array : ∀ rows, Expr.Occurs (.array rows) e →
    kind (.array (rows.map fun row => row.map Literal.toValue))
  reference : ∀ r, kind (.reference r)
  error : ∀ e, kind (.error e)
  empty : kind .empty
  zero : kind (.number 0)
  names : ∀ entry ∈ scope.names, kind entry.2
  read : ∀ r : Reference, r.read.Within source (fun _ => True) kind
  sign : ∀ op operand, Expr.Occurs (.sign op operand) e → ∀ v, operand.Reads scope source v →
    kind v → kind (op.apply v)
  percent : ∀ operand, Expr.Occurs (.percent operand) e → ∀ v, operand.Reads scope source v →
    kind v → kind (v.mapNumbers (· / 100))
  binary : ∀ (op : ValueOp) v w, kind v → kind w → kind (op.apply v w)
  call : ∀ name args f, Expr.Occurs (.call name args) e → scope.functions.find? name = some f →
    OperandsReadable kind source (fun _ => True) (operands scope args) →
    (f.call scope.position (operands scope args)).Within source (fun _ => True) kind

namespace Closed

variable {kind : Value → Prop} {scope : Scope} {source : Source} {e : Expr}

theorem read_within (h : Closed kind scope source e) {v : Value} (hv : kind v) :
    v.read.Within source (fun _ => True) kind :=
  Value.Readable.of_kind hv fun r _ => h.read r

/-- What is made of the value of a part that is read is of the kind if it is so for every value
that the part can have. -/
theorem map_within {d : Expr} {g : Value → Value} (h : Closed kind scope source e)
    (hd : (evaluate scope d).Within source (fun _ => True) kind)
    (hg : ∀ v, d.Reads scope source v → kind v → kind (g v)) :
    (evaluate scope d >>= fun v => g <$> v.read).Within source (fun _ => True) kind := by
  have hread := Query.within_true_iff.1 (hd.bind fun v hv => h.read_within hv)
  have hmap : (evaluate scope d >>= Value.read).Within source (fun _ => True) fun v => kind (g v) :=
    Query.within_true_iff.2 fun v hv => hg v hv (hread v hv)
  have hassoc : (evaluate scope d >>= fun v => g <$> v.read) =
      g <$> (evaluate scope d >>= Value.read) :=
    (Query.bind_assoc _ _ _).symm
  rw [hassoc]
  exact hmap.map fun v hv => hv

mutual

theorem evaluate_within (h : Closed kind scope source e) :
    (d : Expr) → d.Occurs e → (evaluate scope d).Within source (fun _ => True) kind
  | .literal l, hd => h.literal l hd
  | .array rows, hd => h.array rows hd
  | .cell ref, _ => h.reference _
  | .range ref, _ => h.reference _
  | .union parts, _ => by
    rw [evaluate]
    refine (Query.within_true _).bind fun x _ => ?_
    cases x with
    | error e => exact h.error e
    | ok rs => exact h.reference _
  | .name name, _ => scope.names.forall_named (h.error _) h.names name
  | .sign op operand, hd => by
    rw [evaluate]
    exact h.map_within (evaluate_within h operand (.trans (.sign (.self _)) hd))
      (h.sign op operand hd)
  | .percent operand, hd => by
    rw [evaluate]
    exact h.map_within (evaluate_within h operand (.trans (.percent (.self _)) hd))
      (h.percent operand hd)
  | .binary (.value op) left right, hd => by
    have hleft := evaluate_within h left (.trans (.left (.self _)) hd)
    have hright := evaluate_within h right (.trans (.right (.self _)) hd)
    rw [evaluate]
    refine hleft.bind fun v hv => (h.read_within hv).bind fun v hv => ?_
    exact hright.bind fun w hw => (h.read_within hw).bind fun w hw => h.binary op v w hv hw
  | .binary (.reference op) left right, _ => by
    rw [evaluate]
    refine (Query.within_true _).bind fun v _ => (Query.within_true _).bind fun w _ => ?_
    rcases op.apply_cases v w with ⟨r, hr⟩ | ⟨e, he⟩
    · exact hr ▸ h.reference r
    · exact he ▸ h.error e
  | .call name args, hd => by
    have hops := operands_readable h args fun a ha => .trans (.call ha (.self a)) hd
    rw [evaluate, Scope.call]
    cases hfind : scope.functions.find? name with
    | none => exact h.zero
    | some f => exact h.call name args f hd hfind hops
  | .omitted, _ => h.empty

theorem operands_readable (h : Closed kind scope source e) :
    (args : List Expr) → (∀ a ∈ args, a.Occurs e) →
    OperandsReadable kind source (fun _ => True) (operands scope args)
  | [], _ => fun _ ho => absurd ho List.not_mem_nil
  | a :: rest, ha => by
    have hfirst : (evaluate scope a).Within source (fun _ => True)
        (Value.Readable kind source fun _ => True) :=
      (evaluate_within h a (ha a List.mem_cons_self)).imp fun v hv => h.read_within hv
    have hrest := operands_readable h rest fun a hmem => ha a (List.mem_cons_of_mem _ hmem)
    cases a with
    | omitted => exact List.forall_mem_cons.2 ⟨hfirst, hrest⟩
    | _ => exact List.forall_mem_cons.2 ⟨hfirst, hrest⟩

end

theorem reads (h : Closed kind scope source e) (d : Expr) (hd : d.Occurs e) :
    ∀ v, d.Reads scope source v → kind v :=
  Query.within_true_iff.1 ((h.evaluate_within d hd).bind fun _ hv => h.read_within hv)

end Closed

end Spreadsheet
