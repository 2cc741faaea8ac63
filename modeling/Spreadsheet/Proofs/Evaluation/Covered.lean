import Mathlib
import Spreadsheet.Expr.Parser
import Spreadsheet.Proofs.Evaluation.Reads

/-!
Evaluation asks for nothing but cells of the references that a formula writes down and of the areas
that it makes from them.
-/

namespace Spreadsheet

open Reference

/-! ### Values of operators -/

namespace Value

mutual

theorem mapNumbers_plain (f : Float → Float) : (v : Value) → (v.mapNumbers f).Plain
  | .array rows => by
    rw [mapNumbers, plain_array]
    exact mapRows_plain f rows
  | .number x | .text s | .boolean b | .error e | .reference r | .empty => by
    unfold mapNumbers
    split
    · exact .number _
    · exact .error _

theorem mapRows_plain (f : Float → Float) : (rows : List (List Value)) → PlainRows (mapRows f rows)
  | [] => fun _ h => absurd h List.not_mem_nil
  | row :: rest => by
    rw [mapRows]
    exact List.forall_mem_cons.2 ⟨mapRow_plain f row, mapRows_plain f rest⟩

theorem mapRow_plain (f : Float → Float) : (row : List Value) → ∀ v ∈ mapRow f row, v.Plain
  | [] => fun _ h => absurd h List.not_mem_nil
  | v :: rest => by
    rw [mapRow]
    exact List.forall_mem_cons.2 ⟨v.mapNumbers_plain f, mapRow_plain f rest⟩

end

end Value

theorem SignOp.apply_plain (op : SignOp) {v : Value} (h : v.Plain) : (op.apply v).Plain := by
  cases op with
  | plus => exact h
  | negate => exact v.mapNumbers_plain _

theorem ValueOp.apply_plain (op : ValueOp) (v w : Value) : (op.apply v w).Plain := by
  rcases op.apply_cases v w with h | ⟨rows, heq, hrows⟩
  · exact hasSimple_plain _ h
  · rw [heq]
    exact .array fun row hrow x hx => hasSimple_plain _ (hrows row hrow x hx)

/-! ### Reading -/

section

variable {source : Source} {listed : List Reference}

theorem read_within (hs : source.Plain) (r : Reference) (h : Covered listed r) :
    r.read.Within source (Covered listed) Value.Plain :=
  r.read_within hs.gives (fun _ => covered_union.1) h

/-- The value is the reference that the expression stands for, or it is plain. -/
def Expr.Gives (e : Expr) (v : Value) : Prop :=
  v.Plain ∨ ∃ r, e.reference? = some r ∧ v = .reference r

theorem Expr.Gives.readable {e : Expr} (h : e.Gives v) (hs : source.Plain)
    (he : e.references ++ e.derived ⊆ listed) : v.Readable Value.Plain source (Covered listed) := by
  rcases h with h | ⟨r, hr, rfl⟩
  · exact h.readable
  · exact read_within hs r ((Expr.covered_reference? e hr).mono he)

theorem Expr.Gives.reference? {e : Expr} (h : e.Gives (.reference r)) :
    e.reference? = some r := by
  rcases h with h | ⟨s, hs, he⟩
  · cases h
  · cases he
    exact hs

theorem ReferenceOp.apply_gives (op : ReferenceOp) {left right : Expr} (hv : left.Gives v)
    (hw : right.Gives w) : (Expr.binary (.reference op) left right).Gives (op.apply v w) := by
  unfold ReferenceOp.apply
  split
  · exact .inl (.error _)
  · exact .inl (.error _)
  · rename_i r s
    cases hj : op.join r s with
    | error e => exact .inl (.error e)
    | ok t =>
      refine .inr ⟨t, ?_, rfl⟩
      rw [Expr.reference?, hv.reference?, hw.reference?]
      exact congrArg Except.toOption hj
  · exact .inl (.error _)

theorem toReferences_gives {e : Expr} (h : e.Gives v) :
    Yields (fun rs => ∃ r, e.reference? = some r ∧ rs = r.flat) v.toReferences := by
  rcases h with h | ⟨r, hr, rfl⟩
  · cases h <;> exact yields_error
  · cases r <;> exact yields_ok.2 ⟨_, hr, rfl⟩

/-! ### `SUMIF` -/

theorem summedRows_within {kind : Value → Prop} {o : Operand} {rows : List (List Value)}
    (ho : o.query.Within source (Covered listed) kind)
    (hread : ∀ w, kind w → w.Readable Value.Plain source (Covered listed))
    (harea : ∀ r s area ref, v = .reference r → kind (.reference s) → r.area? = some area →
      Conditional.sameSize? area s = some ref → Covered listed (.range ref)) :
    (Conditional.summedRows v rows o).Within source (Covered listed) fun _ => True := by
  cases o with
  | omitted => trivial
  | given q =>
    refine ho.bind fun w hw => ?_
    have hvalue : (do return (← w.read).toRows : Query (List (List Value))).Within source
        (Covered listed) fun _ => True := (hread w hw).bind fun _ _ => trivial
    split
    · rename_i r s
      dsimp only
      cases hresized : r.area?.bind fun area => Conditional.sameSize? area s with
      | none => exact hvalue
      | some ref =>
        obtain ⟨area, ha, hsize⟩ := Option.bind_eq_some_iff.1 hresized
        exact ⟨harea r s area ref rfl hw ha hsize, fun _ _ => trivial⟩
    · exact hvalue

theorem sumIf_within {kind kind' : Value → Prop} {cells criterion : Operand} {rest : List Operand}
    (hcells : cells.query.Within source (Covered listed) kind)
    (hcriterion : criterion.query.Within source (Covered listed)
      (Value.Readable Value.Plain source (Covered listed)))
    (hsummed : (rest.headD .omitted).query.Within source (Covered listed) kind')
    (hread : ∀ v, kind v → v.Readable Value.Plain source (Covered listed))
    (hread' : ∀ w, kind' w → w.Readable Value.Plain source (Covered listed))
    (harea : ∀ r s area ref, kind (.reference r) → kind' (.reference s) → r.area? = some area →
      Conditional.sameSize? area s = some ref → Covered listed (.range ref))
    (position : Option Position) :
    (Conditional.sumIf position (cells :: criterion :: rest)).Within source (Covered listed)
      (Yields Value.Plain) := by
  refine hcells.bind fun v hv => ?_
  refine (hread v hv).bind fun rows _ => ?_
  refine hcriterion.bind fun c hc => ?_
  refine hc.bind fun c _ => ?_
  refine (summedRows_within hsummed hread' ?_).bind fun summed _ => yields_ok.2 (.number _)
  rintro r s area ref rfl hs ha hsize
  exact harea r s area ref hv hs ha hsize

theorem find?_sumIf : List.find? (fun f => f.name == "SUMIF") builtins =
    some (.ofOperands "SUMIF" .math 2 (some 3) Conditional.sumIf) := rfl

end

/-! ### Evaluation -/

section

variable {source : Source} {listed : List Reference} {scope : Scope}

theorem operandsReadable_of_gives {args : List Expr} {operands : List Operand}
    (hs : source.Plain)
    (h : List.Forall₂ (fun e o => o.query.Within source (Covered listed) e.Gives) args operands)
    (hsub : Expr.referencesOf args ++ Expr.derivedOf args ⊆ listed) :
    OperandsReadable Value.Plain source (Covered listed) operands := by
  induction h with
  | nil => exact fun o ho => absurd ho List.not_mem_nil
  | cons he _ ih =>
    rw [Expr.referencesOf, Expr.derivedOf] at hsub
    refine List.forall_mem_cons.2
      ⟨he.imp fun v hv => ?_, ih (List.Subset.trans (Expr.subset_right ..) hsub)⟩
    exact hv.readable hs (List.Subset.trans (Expr.subset_left ..) hsub)

/-- A call of `SUMIF` reads its operands and the area that it derives. -/
theorem call_sumIf_within {args : List Expr} {operands : List Operand} (hs : source.Plain)
    (hname : upperName name = "SUMIF")
    (h : List.Forall₂ (fun e o => o.query.Within source (Covered listed) e.Gives) args operands)
    (hsub : Expr.referencesOf args ++ Expr.derivedOf args ⊆ listed)
    (harea : (Expr.summedArea? name args).toList ⊆ listed) (position : Option Position) :
    (Conditional.sumIf position operands).Within source (Covered listed) (Yields Value.Plain) := by
  match h with
  | .nil => exact yields_error
  | .cons _ .nil => exact yields_error
  | .cons (a := cells) hcells (.cons (a := criterion) hcriterion hrest) =>
    rename_i rest rest'
    rw [Expr.referencesOf, Expr.derivedOf, Expr.referencesOf, Expr.derivedOf] at hsub
    have hsub₁ := List.Subset.trans (Expr.subset_left ..) hsub
    have hsub₂ := List.Subset.trans (Expr.subset_right ..) hsub
    have hcriterion' := hcriterion.imp fun v hv =>
      hv.readable hs (List.Subset.trans (Expr.subset_left ..) hsub₂)
    have hrest' := List.Subset.trans (Expr.subset_right ..) hsub₂
    match hrest with
    | .nil =>
      have hempty : (([] : List Operand).headD .omitted).query.Within source (Covered listed)
        fun w => w = .empty := rfl
      refine sumIf_within hcells hcriterion' hempty (fun v hv => hv.readable hs hsub₁) ?_ ?_
        position
      · rintro w rfl
        exact Value.Plain.empty.readable
      · intro r s area ref _ hr
        cases hr
    | .cons (a := summed) hsummed _ =>
      rw [Expr.referencesOf, Expr.derivedOf] at hrest'
      refine sumIf_within hcells hcriterion' hsummed (fun v hv => hv.readable hs hsub₁)
        (fun w hw => hw.readable hs (List.Subset.trans (Expr.subset_left ..) hrest')) ?_ position
      intro r s area ref hv hw ha hsize
      refine .of_mem (harea (Option.mem_toList.2 ?_))
      rw [Expr.summedArea?, if_pos hname, hv.reference?, hw.reference?]
      simp [ha, hsize]

mutual

/-- The value of an expression is plain or the reference that the expression stands for, and
evaluation reads no more than cells that are written down or derived. -/
theorem evaluate_within (hs : source.Plain) (hf : scope.functions = builtins)
    (hn : ∀ entry ∈ scope.names, entry.2.Plain) : (e : Expr) →
    e.references ++ e.derived ⊆ listed →
    (evaluate scope e).Within source (Covered listed) e.Gives
  | .literal l, _ => .inl (hasSimple_plain _ l.toValue_simple)
  | .array rows, _ => by
    refine .inl (.array fun row hrow v hv => ?_)
    obtain ⟨ls, -, rfl⟩ := List.mem_map.1 hrow
    obtain ⟨l, -, rfl⟩ := List.mem_map.1 hv
    exact hasSimple_plain _ l.toValue_simple
  | .cell ref, _ => .inr ⟨_, rfl, rfl⟩
  | .range ref, _ => .inr ⟨_, rfl, rfl⟩
  | .union parts, h => by
    rw [evaluate]
    refine (unionParts_within hs hf hn parts h).bind fun x hx => ?_
    cases x with
    | error e => exact .inl (.error e)
    | ok rs => exact .inr ⟨.union rs, by rw [Expr.reference?, yields_ok.1 hx]; rfl, rfl⟩
  | .name name, _ => .inl (hasSimple_plain.named hn name)
  | .sign op operand, h => by
    rw [evaluate]
    refine (evaluate_within hs hf hn operand h).bind fun v hv => ?_
    exact (hv.readable hs h).bind fun w hw => .inl (op.apply_plain hw)
  | .percent operand, h => by
    rw [evaluate]
    refine (evaluate_within hs hf hn operand h).bind fun v hv => ?_
    exact (hv.readable hs h).bind fun w _ => .inl (w.mapNumbers_plain _)
  | .binary (.value op) left right, h => by
    rw [Expr.references, Expr.derived] at h
    have hleft := List.Subset.trans (Expr.subset_left ..) h
    have hright := List.Subset.trans (Expr.subset_right ..) h
    rw [evaluate]
    refine (evaluate_within hs hf hn left hleft).bind fun v hv => ?_
    refine (hv.readable hs hleft).bind fun v _ => ?_
    refine (evaluate_within hs hf hn right hright).bind fun w hw => ?_
    exact (hw.readable hs hright).bind fun w _ => .inl (op.apply_plain v w)
  | .binary (.reference op) left right, h => by
    have hsub : left.references ++ right.references ++ (left.derived ++ right.derived) ⊆
        (Expr.binary (.reference op) left right).references ++
          (Expr.binary (.reference op) left right).derived := by
      rw [Expr.references]
      cases op with
      | intersect => exact List.Subset.refl _
      | range =>
        rw [Expr.derived, ← List.append_assoc (left.references ++ right.references)
          (left.derived ++ right.derived)]
        exact List.subset_append_left ..
    rw [evaluate]
    have hsub := List.Subset.trans hsub h
    have hleft := List.Subset.trans (Expr.subset_left ..) hsub
    have hright := List.Subset.trans (Expr.subset_right ..) hsub
    refine (evaluate_within hs hf hn left hleft).bind fun v hv => ?_
    exact (evaluate_within hs hf hn right hright).bind fun w hw => op.apply_gives hv hw
  | .call name args, h => by
    rw [Expr.references, Expr.derived, ← List.append_assoc] at h
    have hsub := List.Subset.trans (List.subset_append_left ..) h
    have hops := operands_within hs hf hn args hsub
    rw [evaluate, Scope.call, hf]
    cases hfind : Registry.find? builtins name with
    | none => exact .inl (.number 0)
    | some f =>
      have hfind' : List.find? (fun f => f.name == upperName name) builtins = some f := hfind
      have hname : f.name = upperName name := by simpa using List.find?_some hfind'
      by_cases hsum : f.name = "SUMIF"
      · rw [hname] at hsum
        rw [hsum, find?_sumIf] at hfind'
        cases hfind'
        exact (Function.call_of_operands hasSimple_plain rfl (call_sumIf_within hs hsum hops hsub
          (List.Subset.trans (List.subset_append_right ..) h) scope.position)).imp fun _ => Or.inl
      · have hbounded : f.Bounded Value.Plain source (Covered listed) :=
          builtins_plain f (List.mem_of_find?_eq_some hfind') hsum
        exact (hbounded.call hasSimple_plain scope.position
          (operandsReadable_of_gives hs hops hsub)).imp fun _ => Or.inl
  | .omitted, _ => .inl .empty

theorem operands_within (hs : source.Plain) (hf : scope.functions = builtins)
    (hn : ∀ entry ∈ scope.names, entry.2.Plain) : (args : List Expr) →
    Expr.referencesOf args ++ Expr.derivedOf args ⊆ listed →
    List.Forall₂ (fun e o => o.query.Within source (Covered listed) e.Gives) args
      (operands scope args)
  | [], _ => .nil
  | e :: rest, h => by
    rw [Expr.referencesOf, Expr.derivedOf] at h
    have hfirst := evaluate_within hs hf hn e (List.Subset.trans (Expr.subset_left ..) h)
    have hrest := operands_within hs hf hn rest (List.Subset.trans (Expr.subset_right ..) h)
    cases e with
    | omitted => exact .cons hfirst hrest
    | _ => exact .cons hfirst hrest

theorem unionParts_within (hs : source.Plain) (hf : scope.functions = builtins)
    (hn : ∀ entry ∈ scope.names, entry.2.Plain) : (parts : List Expr) →
    Expr.referencesOf parts ++ Expr.derivedOf parts ⊆ listed →
    (unionParts scope parts).Within source (Covered listed)
      (Yields fun rs => Expr.unionReferences? parts = some rs)
  | [], _ => yields_ok.2 rfl
  | e :: rest, h => by
    rw [Expr.referencesOf, Expr.derivedOf] at h
    rw [unionParts]
    have hleft := List.Subset.trans (Expr.subset_left ..) h
    refine (evaluate_within hs hf hn e hleft).bind fun v hv => ?_
    have hrefs := toReferences_gives hv
    cases hto : v.toReferences with
    | error err => exact yields_error
    | ok rs =>
      obtain ⟨r, hr, rfl⟩ := hrefs rs hto
      refine (unionParts_within hs hf hn rest (List.Subset.trans (Expr.subset_right ..) h)).bind
        fun x hx => ?_
      refine yields_map.2 (hx.imp fun rs hrs => ?_)
      rw [Expr.unionReferences?, hr, hrs]
      rfl

end

theorem readResult_within {allowed : Reference → Prop} {v : Value}
    (h : v.Readable Value.Plain source allowed) :
    v.readResult.Within source allowed fun _ => True := by
  cases v with
  | reference r =>
    cases r with
    | cell ref => exact ⟨h.1, fun _ _ => trivial⟩
    | range ref =>
      rw [Value.readResult]
      split
      · exact ⟨h.1, fun _ _ => trivial⟩
      · trivial
    | union parts => trivial
  | _ => trivial

end

/-- Every cell that is asked for when a formula is evaluated and its value is read, as the result
of the formula or in full, is in a reference that it writes down or in an area that it derives. -/
theorem asked_covered (e : Expr) {scope : Scope} {source : Source}
    (hf : scope.functions = builtins) (hn : ∀ entry ∈ scope.names, entry.2.Plain)
    (hs : source.Plain) :
    (∀ r ∈ (formulaResult scope e).asked source, Covered (e.references ++ e.derived) r) ∧
      ∀ r ∈ (evaluate scope e >>= Value.read).asked source,
        Covered (e.references ++ e.derived) r := by
  have heval := evaluate_within hs hf hn e (List.Subset.refl _)
  have hread {v : Value} (hv : e.Gives v) := hv.readable hs (List.Subset.refl _)
  constructor
  · have hresult : (formulaResult scope e).Within source (Covered (e.references ++ e.derived))
        fun _ => True :=
      heval.bind fun v hv => (readResult_within (hread hv)).bind fun _ _ => trivial
    exact hresult.asked
  · exact (heval.bind fun v hv => hread hv).asked

theorem asked_covered_colon :
    let e : Expr := .sign .negate (.binary (.reference .range)
      (.range ⟨none, .ofIndices 1 1 2 2⟩) (.cell ⟨none, .relative 3 3⟩))
    ∀ r ∈ (formulaResult ⟨builtins, [], none⟩ e).asked
        ⟨fun _ => .ok (.number 0), fun _ => .ok [[.number 0]]⟩,
      Covered (e.references ++ e.derived) r :=
  have hsource : Source.Plain ⟨fun _ => .ok (.number 0), fun _ => .ok [[.number 0]]⟩ :=
    { cell := fun _ _ h => by cases h; exact .number 0
      range := fun _ _ h => by cases h; simp [PlainRows] }
  (asked_covered _ rfl (fun _ h => absurd h List.not_mem_nil) hsource).1

/-- The references that a formula writes down are not all that it reads: a colon between references
reads the area around them, `SUMIF` one in the size of its first argument, and a function hands on a
reference that a cell or an element of a name holds. -/
theorem asked_not_covered_references :
    let numbers : Source := ⟨fun _ => .ok (.number 0), fun _ => .ok [[.number 0]]⟩
    let pointers : Source :=
      ⟨fun _ => .ok (.reference (.cell ⟨none, .relative 5 5⟩)), fun _ => .ok [[.number 0]]⟩
    let pointer : Value := .array [[.reference (.cell ⟨none, .relative 5 5⟩)]]
    let colon : Expr := .sign .negate (.binary (.reference .range)
      (.range ⟨none, .ofIndices 1 1 2 2⟩) (.cell ⟨none, .relative 3 3⟩))
    let summed : Expr := .call "SUMIF"
      [.range ⟨none, .ofIndices 1 1 2 1⟩, .literal (.number 1), .cell ⟨none, .relative 1 2⟩]
    let handed : Expr :=
      .sign .negate (.call "IF" [.literal (.boolean true), .cell ⟨none, .relative 1 1⟩])
    let element : Expr :=
      .sign .negate (.call "INDEX" [.name "X", .literal (.number 1), .literal (.number 1)])
    (parseFormula "=-A1:B2:C3" = .ok colon ∧
      ¬ ∀ r ∈ (formulaResult ⟨builtins, [], none⟩ colon).asked numbers,
        Covered colon.references r) ∧
    (¬ ∀ r ∈ (formulaResult ⟨builtins, [], none⟩ summed).asked numbers,
      Covered summed.references r) ∧
    (¬ ∀ r ∈ (formulaResult ⟨builtins, [], none⟩ handed).asked pointers,
      Covered handed.references r) ∧
    ¬ ∀ r ∈ (formulaResult ⟨builtins, [("X", pointer)], none⟩ element).asked numbers,
      Covered element.references r := by
  intro numbers pointers pointer colon summed handed element
  have hcolon : (formulaResult ⟨builtins, [], none⟩ colon).asked numbers =
      [.range ⟨none, .ofIndices 1 1 3 3⟩] := rfl
  have hsummed : (formulaResult ⟨builtins, [], none⟩ summed).asked numbers =
      [.range ⟨none, .ofIndices 1 1 2 1⟩, .range ⟨none, .ofIndices 1 2 2 2⟩] := rfl
  have hhanded : (formulaResult ⟨builtins, [], none⟩ handed).asked pointers =
      [.cell ⟨none, .relative 1 1⟩, .cell ⟨none, .relative 5 5⟩] := rfl
  have helement : (formulaResult ⟨builtins, [("X", pointer)], none⟩ element).asked numbers =
      [.cell ⟨none, .relative 5 5⟩] := rfl
  refine ⟨⟨by cbv, fun h => ?_⟩, fun h => ?_, fun h => ?_, fun h => ?_⟩
  · have hbad := h (.range ⟨none, .ofIndices 1 1 3 3⟩) (by simp [hcolon])
    exact absurd (hbad none 3 1 (by decide)) (by decide)
  · have hbad := h (.range ⟨none, .ofIndices 1 2 2 2⟩) (by simp [hsummed])
    exact absurd (hbad none 2 2 (by decide)) (by decide)
  · have hbad := h (.cell ⟨none, .relative 5 5⟩) (by simp [hhanded])
    exact absurd (hbad none 5 5 (by decide)) (by decide)
  · have hbad := h (.cell ⟨none, .relative 5 5⟩) (by simp [helement])
    exact absurd (hbad none 5 5 (by decide)) (by decide)

end Spreadsheet
