import Spreadsheet.Engine
import Spreadsheet.Proofs.Bare
import Spreadsheet.Proofs.Evaluation.Errors

/-!
Formulas that differ in `$` flags alone have one result. Their values are the same up to the flags
of references, and what is read for such values is the same.
-/

namespace Spreadsheet

/-- Requests that differ in flags alone have one answer. -/
structure Source.IgnoresFlags (source : Source) : Prop where
  cell : ∀ ref : CellRef, source.cell ref.bare = source.cell ref
  range : ∀ ref : RangeRef, source.range ref.bare = source.range ref

/-! ### Queries that run alike -/

/-- The runs of the queries are the same for one who sees just the `view` of a result. -/
def Query.Alike (source : Source) (view : α → γ) (q q' : Query α) : Prop :=
  (view <$> q).run source = (view <$> q').run source

namespace Query

variable {source : Source} {view : α → γ} {view' : β → δ} {q q' : Query α}

theorem alike_iff : Alike source view q q' ↔
    (q.run source).1.map view = (q'.run source).1.map view ∧
      (q.run source).2 = (q'.run source).2 := by
  rw [Alike, run_map, run_map, Prod.mk.injEq]

theorem Alike.of_run (h : q.run source = q'.run source) : Alike source view q q' := by
  rw [alike_iff, h]
  exact ⟨rfl, rfl⟩

theorem Alike.run (h : Alike source id q q') : q.run source = q'.run source := by
  have hid (x : Except String α) : x.map id = x := by cases x <;> rfl
  obtain ⟨hresult, hnames⟩ := alike_iff.1 h
  rw [hid, hid] at hresult
  exact Prod.ext hresult hnames

theorem alike_done (h : view a = view a') : Alike source view (done a) (done a') :=
  alike_iff.2 ⟨congrArg Except.ok h, rfl⟩

theorem Alike.bind {f f' : α → Query β} (h : Alike source view q q')
    (hf : ∀ a a', view a = view a' → Alike source view' (f a) (f' a')) :
    Alike source view' (q >>= f) (q' >>= f') := by
  obtain ⟨hresult, hnames⟩ := alike_iff.1 h
  rw [alike_iff, run_bind, run_bind, hnames]
  cases hq : (q.run source).1 with
  | ok a =>
    rw [hq] at hresult
    obtain ⟨a', hq', ha⟩ := map_eq_ok.1 hresult.symm
    obtain ⟨hresult, hnames⟩ := alike_iff.1 (hf a a' ha.symm)
    rw [hq']
    exact ⟨hresult, congrArg (_ ++ ·) hnames⟩
  | error message =>
    rw [hq] at hresult
    rw [map_eq_error.1 hresult.symm]
    exact ⟨rfl, rfl⟩

/-- Queries with equal runs, and then queries that run alike for each result. -/
theorem Alike.then {f f' : α → Query β} (h : Alike source id q q')
    (hf : ∀ a, Alike source view' (f a) (f' a)) : Alike source view' (q >>= f) (q' >>= f') := by
  apply h.bind
  rintro a _ rfl
  exact hf a

/-- What runs alike for a value and for its view runs alike for values of one view. -/
theorem Alike.of_view {view : α → α} {f : α → Query β}
    (hf : ∀ a, Alike source view' (f (view a)) (f a)) (h : view a = view a') :
    Alike source view' (f a) (f a') := by
  have hview : Alike source view' (f (view a)) (f a') := h ▸ hf a'
  exact (hf a).symm.trans hview

theorem Alike.thenView {view : α → α} {f : α → Query β} (h : Alike source view q q')
    (hf : ∀ a, Alike source view' (f (view a)) (f a)) :
    Alike source view' (q >>= f) (q' >>= f) :=
  h.bind fun _ _ => .of_view hf

end Query

section

variable {source : Source}

/-! ### Reading -/

namespace Source.IgnoresFlags

theorem readCell_bare (hs : source.IgnoresFlags) (ref : CellRef) :
    (Query.readCell ref.bare).Alike source id (Query.readCell ref) := by
  apply Query.Alike.of_run
  rw [Query.readCell, Query.readCell, Query.run, Query.run, hs.cell]

theorem readRange_bare (hs : source.IgnoresFlags) (ref : RangeRef) :
    (Query.readRange ref.bare).Alike source id (Query.readRange ref) := by
  apply Query.Alike.of_run
  rw [Query.readRange, Query.readRange, Query.run, Query.run, hs.range]

end Source.IgnoresFlags

mutual

theorem Reference.read_bare (hs : source.IgnoresFlags) :
    (r : Reference) → r.bare.read.Alike source id r.read
  | .cell ref => hs.readCell_bare ref
  | .range ref => (hs.readRange_bare ref).then fun _ => rfl
  | .union parts => (readParts_bare hs parts).then fun _ => rfl

theorem readParts_bare (hs : source.IgnoresFlags) : (parts : List Reference) →
    (readParts (Reference.bareParts parts)).Alike source id (readParts parts)
  | [] => rfl
  | r :: rest => by
    apply (r.read_bare hs).then
    intro v
    exact (readParts_bare hs rest).then fun _ => rfl

end

theorem Value.read_bare (hs : source.IgnoresFlags) (v : Value) :
    v.bare.read.Alike source id v.read := by
  cases v with
  | reference r => exact r.read_bare hs
  | _ => rfl

theorem Value.readResult_bare (hs : source.IgnoresFlags) (v : Value) :
    v.bare.readResult.Alike source id v.readResult := by
  cases v with
  | reference r =>
    cases r with
    | cell ref => exact hs.readCell_bare ref
    | range ref =>
      change Query.Alike source id (if ref.range.isSingleCell then _ else _) _
      rw [readResult]
      split
      · exact (hs.readRange_bare ref).then fun _ => rfl
      · rfl
    | union parts => rfl
  | _ => rfl

theorem read_alike (hs : source.IgnoresFlags) {v w : Value} (h : v.bare = w.bare) :
    v.read.Alike source id w.read :=
  .of_view (Value.read_bare hs) h

theorem readRange_alike (hs : source.IgnoresFlags) {ref ref' : RangeRef}
    (h : ref.bare = ref'.bare) : (Query.readRange ref).Alike source id (Query.readRange ref') :=
  .of_view hs.readRange_bare h

/-! ### Arguments -/

def Argument.bare (a : Argument) : Argument :=
  { a with reference := a.reference.map Reference.bare }

/-- Both slots are empty, or the values are the same up to flags. -/
inductive Operand.Alike (source : Source) : Operand → Operand → Prop
  | omitted : Alike source .omitted .omitted
  | given (h : Query.Alike source Value.bare q q') : Alike source (.given q) (.given q')

theorem Operand.Alike.query {o o' : Operand} (h : o.Alike source o') :
    o.query.Alike source Value.bare o'.query := by
  cases h with
  | omitted => rfl
  | given h => exact h

variable {os os' : List Operand} {view : Argument → γ}

theorem Operand.Alike.argument (hs : source.IgnoresFlags) {c : Category}
    (hview : ∀ r v, view (.ofRead c r.bare v) = view (.ofRead c r v)) {o o' : Operand}
    (h : o.Alike source o') : (o.argument c).Alike source view (o'.argument c) := by
  cases h with
  | omitted => rfl
  | given h =>
    apply h.thenView
    intro v
    cases v with
    | reference r => exact (r.read_bare hs).then fun v => Query.alike_done (hview r v)
    | _ => rfl

theorem Function.readOperands_alike (hs : source.IgnoresFlags) {c : Category}
    (hview : ∀ r v, view (.ofRead c r.bare v) = view (.ofRead c r v))
    (h : List.Forall₂ (Operand.Alike source) os os') :
    (readOperands c os).Alike source (List.map view) (readOperands c os') := by
  induction h with
  | nil => rfl
  | cons ho _ ih =>
    rw [readOperands_cons, readOperands_cons]
    apply (ho.argument hs hview).bind
    intro a a' ha
    apply ih.bind
    intro as as' has
    exact Query.alike_done (congrArg₂ List.cons ha has)

/-! ### Functions -/

/-- Calls with operands that are the same up to flags run alike. -/
def Function.IgnoresFlags (f : Function) : Prop :=
  ∀ (source : Source) (position : Option Position) (os os' : List Operand), source.IgnoresFlags →
    List.Forall₂ (Operand.Alike source) os os' →
    (f.call position os).Alike source id (f.call position os')

namespace Function

/-- Arguments keep the reference that they were read for in the information functions alone. -/
theorem ignoresFlags_of_category {f : Function}
    {g : Option Position → List Argument → Result Value} (hbody : f.body = .values g)
    (hcategory : f.category ≠ .information) : f.IgnoresFlags := by
  intro source position os os' hs h
  have hview (r : Reference) (v : Value) :
      id (Argument.ofRead f.category r.bare v) = id (.ofRead f.category r v) := by
    simp [Argument.ofRead, Category.preservesReference, hcategory]
  have hread := readOperands_alike hs hview h
  rw [List.map_id_fun] at hread
  rw [call, call, h.length_eq, hbody]
  split
  · exact hread.then fun _ => rfl
  · rfl

theorem ignoresFlags_of_bare {f : Function} {g : Option Position → List Argument → Result Value}
    (hbody : f.body = .values g)
    (hg : ∀ position args, g position (args.map Argument.bare) = g position args) :
    f.IgnoresFlags := by
  intro source position os os' hs h
  have hview (r : Reference) (v : Value) :
      (Argument.ofRead f.category r.bare v).bare = (Argument.ofRead f.category r v).bare := by
    cases f.category <;> simp [Argument.bare, Argument.ofRead, Category.preservesReference,
      Reference.bare_bare]
  have hread := readOperands_alike hs hview h
  rw [call, call, h.length_eq, hbody]
  split
  · apply hread.thenView
    intro args
    have hblocking : f.blockingError? (args.map Argument.bare) = f.blockingError? args := by
      rw [blockingError?, blockingError?, List.findSome?_map]
      rfl
    rw [onArguments, onArguments, hblocking, hg]
    rfl
  · rfl

theorem ignoresFlags_of_operands {f : Function}
    {g : Option Position → List Operand → Query (Result Value)} (hbody : f.body = .operands g)
    (hg : ∀ (source : Source) (position : Option Position) (os os' : List Operand),
      source.IgnoresFlags → List.Forall₂ (Operand.Alike source) os os' →
      (g position os).Alike source id (g position os')) : f.IgnoresFlags := by
  intro source position os os' hs h
  rw [call, call, h.length_eq, hbody]
  split
  · exact (hg source position os os' hs h).then fun _ => rfl
  · rfl

end Function

theorem valueAt_bare (args : List Argument) (i : Nat) :
    valueAt (args.map Argument.bare) i = valueAt args i := by
  rw [valueAt, valueAt, List.getElem?_map]
  cases args[i]? <;> rfl

namespace Information

theorem isRef_bare (args : List Argument) : isRef (args.map Argument.bare) = isRef args := by
  cases args with
  | nil => rfl
  | cons a rest =>
    rw [isRef, isRef, List.map_cons]
    change Except.ok (Value.boolean (a.reference.map Reference.bare).isSome) = _
    rw [Option.isSome_map]
    rfl

theorem type_bare (args : List Argument) : type (args.map Argument.bare) = type args := by
  cases args with
  | nil => rfl
  | cons a rest =>
    rw [type, type, List.map_cons]
    simp [orError, Argument.bare]

theorem test_bare (p : Value → Bool) (args : List Argument) :
    test p (args.map Argument.bare) = test p args := by
  rw [test, test, valueAt_bare]

theorem errorType_bare (args : List Argument) :
    errorType (args.map Argument.bare) = errorType args := by
  rw [errorType, errorType, valueAt_bare]

theorem functions_ignoreFlags : ∀ f ∈ functions, f.IgnoresFlags := by
  have htest (name : String) (p : Value → Bool) :
      (Function.ofValues name .information 1 (some 1) (test p)).IgnoresFlags :=
    Function.ignoresFlags_of_bare rfl fun _ => test_bare p
  simp only [functions, List.forall_mem_cons]
  refine ⟨htest _ _, htest _ _, htest _ _, htest _ _, htest _ _, htest _ _, htest _ _, ?_,
    htest _ _, ?_, ?_, ?_, fun f hf => absurd hf List.not_mem_nil⟩
  · exact Function.ignoresFlags_of_bare rfl fun _ => isRef_bare
  · exact Function.ignoresFlags_of_bare rfl fun _ _ => rfl
  · apply Function.ignoresFlags_of_bare rfl
    exact fun _ args => congrArg (Value.number <$> ·) (type_bare args)
  · exact Function.ignoresFlags_of_bare rfl fun _ args =>
      congrArg (Value.number <$> ·) (errorType_bare args)

end Information

namespace Lookup

theorem single?_alike {os os' : List Operand} (h : List.Forall₂ (Operand.Alike source) os os') :
    (single? os).Alike source (Option.map Value.bare) (single? os') := by
  cases h with
  | nil => rfl
  | cons ho _ =>
    cases ho with
    | omitted => rfl
    | given h => exact h.bind fun v w hvw => Query.alike_done (congrArg some hvw)

theorem place_ignoresFlags {f : Function} {ofStart : Address → Nat} {ofCell : Position → Nat}
    (hbody : f.body = .operands (place ofStart ofCell)) (hstart : ∀ a, ofStart a.bare = ofStart a) :
    f.IgnoresFlags := by
  apply Function.ignoresFlags_of_operands hbody
  intro source position os os' _ h
  apply (single?_alike h).thenView
  intro v
  match v with
  | some (.reference r) =>
    have hindex : r.bare.area?.map (fun area => ofStart area.topLeft) =
        r.area?.map fun area => ofStart area.topLeft :=
      Reference.area?_congr (fun area => hstart area.topLeft) r
    change Query.Alike source id (.done ((orError .value (r.bare.area?.map _)).map _)) _
    rw [hindex]
    rfl
  | none => rfl
  | some (.number _) | some (.text _) | some (.boolean _) | some (.error _) | some (.array _)
  | some .empty => rfl

theorem extent_ignoresFlags {f : Function} {ofArea : Range → Nat}
    {ofRows : List (List Value) → Nat} (hbody : f.body = .operands (extent ofArea ofRows))
    (harea : ∀ a, ofArea a.bare = ofArea a) : f.IgnoresFlags := by
  apply Function.ignoresFlags_of_operands hbody
  intro source position os os' _ h
  apply (single?_alike h).thenView
  intro v
  match v with
  | some (.reference r) =>
    change Query.Alike source id (.done ((orError .ref (r.bare.area?.map ofArea)).map _)) _
    rw [r.area?_congr harea]
    rfl
  | none => rfl
  | some (.number _) | some (.text _) | some (.boolean _) | some (.error _) | some (.array _)
  | some .empty => rfl

end Lookup

namespace Conditional

theorem countIn_bare (hs : source.IgnoresFlags) (criterion : Operand) (v : Value) :
    (countIn criterion v.bare).Alike source id (countIn criterion v) := by
  cases v with
  | reference r => exact (r.read_bare hs).then fun _ => rfl
  | _ => rfl

theorem countIn_alike (hs : source.IgnoresFlags) {criterion criterion' : Operand}
    (h : criterion.Alike source criterion') (v : Value) :
    (countIn criterion v).Alike source id (countIn criterion' v) := by
  by_cases hv : ∃ e, v = .error e
  · obtain ⟨e, rfl⟩ := hv
    rfl
  · have hne (e : ErrorValue) (he : v = .error e) : False := hv ⟨e, he⟩
    rw [countIn_of_ne hne, countIn_of_ne hne]
    have hread : v.read.Alike source id v.read := rfl
    apply hread.then
    intro values
    apply h.query.bind
    intro c c' hc
    exact (read_alike hs hc).then fun _ => rfl

theorem countIf_alike (hs : source.IgnoresFlags) (position : Option Position)
    {os os' : List Operand} (h : List.Forall₂ (Operand.Alike source) os os') :
    (countIf position os).Alike source id (countIf position os') := by
  match h with
  | .cons hcells (.cons hcriterion .nil) =>
    rw [countIf_eq, countIf_eq]
    apply hcells.query.bind
    intro v w hvw
    exact (Query.Alike.of_view (countIn_bare hs _) hvw).trans (countIn_alike hs hcriterion w)
  | .nil | .cons _ .nil | .cons _ (.cons _ (.cons _ _)) => rfl

/-- The range that the summed cells are resized to, if both values are references. -/
def resized? : Value → Value → Option RangeRef
  | .reference r, .reference s => r.area?.bind fun area => sameSize? area s
  | _, _ => none

theorem summedRows_given (v : Value) (rows : List (List Value)) (q : Query Value) :
    summedRows v rows (.given q) = q >>= fun w =>
      match resized? v w with
      | some ref => Query.readRange ref
      | none => do return (← w.read).toRows := rfl

theorem sameSize?_bare (area : Range) (r : Reference) :
    (sameSize? area.bare r.bare).map RangeRef.bare = (sameSize? area r).map RangeRef.bare := by
  rw [sameSize?, sameSize?, r.area?_bare, r.sheet?_bare]
  cases r.area? with
  | none => rfl
  | some target =>
    have hrange (corner : Address) : (Range.ofCorners target.topLeft.bare corner).bare =
        (Range.ofCorners target.topLeft corner).bare := by
      rw [Range.bare_ofCorners, Range.bare_ofCorners]
      rfl
    exact congrArg (fun range => some (RangeRef.mk r.sheet? range)) (hrange _)

theorem resized?_bare (v w : Value) :
    (resized? v.bare w.bare).map RangeRef.bare = (resized? v w).map RangeRef.bare := by
  cases v with
  | reference r =>
    cases w with
    | reference s =>
      change (r.bare.area?.bind fun area => sameSize? area s.bare).map _ =
        (r.area?.bind fun area => sameSize? area s).map _
      rw [r.area?_bare]
      cases r.area? with
      | none => rfl
      | some area => exact sameSize?_bare area s
    | _ => rfl
  | _ => rfl

theorem summedRows_alike (hs : source.IgnoresFlags) {v v' : Value} (hv : v.bare = v'.bare)
    (rows : List (List Value)) {o o' : Operand} (h : o.Alike source o') :
    (summedRows v rows o).Alike source id (summedRows v' rows o') := by
  cases h with
  | omitted => rfl
  | given h =>
    rw [summedRows_given, summedRows_given]
    apply h.bind
    intro w w' hw
    have hresized : (resized? v w).map RangeRef.bare = (resized? v' w').map RangeRef.bare := by
      rw [← resized?_bare v w, hv, hw, resized?_bare v' w']
    cases hr : resized? v w with
    | none =>
      rw [hr] at hresized
      rw [Option.map_eq_none_iff.1 hresized.symm]
      exact (read_alike hs hw).then fun _ => rfl
    | some ref =>
      rw [hr] at hresized
      obtain ⟨ref', hr', href⟩ := Option.map_eq_some_iff.1 hresized.symm
      rw [hr']
      exact readRange_alike hs href.symm

theorem sumIf_alike (hs : source.IgnoresFlags) (position : Option Position)
    {os os' : List Operand} (h : List.Forall₂ (Operand.Alike source) os os') :
    (sumIf position os).Alike source id (sumIf position os') := by
  match h with
  | .cons hcells (.cons hcriterion hrest) =>
    apply hcells.query.bind
    intro v v' hv
    apply (read_alike hs hv).then
    intro rows
    apply hcriterion.query.bind
    intro c c' hc
    apply (read_alike hs hc).then
    intro c
    apply Query.Alike.then
    · apply summedRows_alike hs hv
      cases hrest with
      | nil => exact .omitted
      | cons ho _ => exact ho
    · exact fun _ => rfl
  | .nil | .cons _ .nil => rfl

end Conditional

theorem operands_ignoreFlags :
    ∀ f ∈ Conditional.functions ++ Lookup.functions.take 4, f.IgnoresFlags := by
  simp only [Conditional.functions, Lookup.functions, List.take, List.cons_append, List.nil_append,
    List.forall_mem_cons]
  refine ⟨?_, ?_, ?_, ?_, ?_, ?_, fun f hf => absurd hf List.not_mem_nil⟩
  · exact Function.ignoresFlags_of_operands rfl fun _ position _ _ hs =>
      Conditional.sumIf_alike hs position
  · exact Function.ignoresFlags_of_operands rfl fun _ position _ _ hs =>
      Conditional.countIf_alike hs position
  · exact Lookup.place_ignoresFlags rfl fun _ => rfl
  · exact Lookup.extent_ignoresFlags rfl fun _ => rfl
  · exact Lookup.place_ignoresFlags rfl fun _ => rfl
  · exact Lookup.extent_ignoresFlags rfl fun _ => rfl

set_option maxRecDepth 2000 in
theorem builtins_of_information :
    (builtins.filter fun f => f.category == .information) = Information.functions := rfl

theorem builtins_ignoreFlags : ∀ f ∈ builtins, f.IgnoresFlags := by
  intro f hf
  cases hbody : f.body with
  | operands g =>
    have hneeds : f.needsOperands = true := by rw [Function.needsOperands, hbody]
    exact operands_ignoreFlags f (mem_needsOperands hf hneeds)
  | values g =>
    by_cases hcategory : f.category = .information
    · apply Information.functions_ignoreFlags
      rw [← builtins_of_information]
      exact List.mem_filter.2 ⟨hf, beq_iff_eq.2 hcategory⟩
    · exact Function.ignoresFlags_of_category hbody hcategory

/-! ### Evaluation -/

variable {scope : Scope}

theorem bare_union (x : Result (List Reference)) :
    (Value.ofResult ((fun rs => .reference (.union rs)) <$> x)).bare =
      .ofResult ((fun rs => .reference (.union rs)) <$> x.map (List.map Reference.bare)) := by
  cases x with
  | error e => rfl
  | ok rs => exact congrArg (fun rs => Value.reference (.union rs)) (Reference.bareParts_eq_map rs)

theorem map_bare_append (rs : List Reference) (x : Result (List Reference)) :
    ((rs ++ ·) <$> x).map (List.map Reference.bare) =
      (rs.map Reference.bare ++ ·) <$> x.map (List.map Reference.bare) := by
  cases x with
  | error e => rfl
  | ok rs' => exact congrArg Except.ok List.map_append

mutual

/-- A formula and the same without flags have values that are the same up to flags. -/
theorem evaluate_bare (hs : source.IgnoresFlags) (hf : ∀ f ∈ scope.functions, f.IgnoresFlags) :
    (e : Expr) → (evaluate scope e.bare).Alike source Value.bare (evaluate scope e)
  | .cell ref => Query.alike_done (congrArg Value.reference (Reference.bare_bare (.cell ref)))
  | .range ref => Query.alike_done (congrArg Value.reference (Reference.bare_bare (.range ref)))
  | .literal _ => rfl
  | .array _ => rfl
  | .name _ => rfl
  | .omitted => rfl
  | .union parts => by
    apply (unionParts_bare hs hf parts).bind
    intro x x' hx
    apply Query.alike_done
    rw [bare_union, hx, ← bare_union]
  | .sign op operand => by
    apply (evaluate_bare hs hf operand).bind
    intro v w hvw
    exact (read_alike hs hvw).then fun _ => rfl
  | .percent operand => by
    apply (evaluate_bare hs hf operand).bind
    intro v w hvw
    exact (read_alike hs hvw).then fun _ => rfl
  | .binary (.value op) left right => by
    apply (evaluate_bare hs hf left).bind
    intro v v' hv
    apply (read_alike hs hv).then
    intro v
    apply (evaluate_bare hs hf right).bind
    intro w w' hw
    exact (read_alike hs hw).then fun _ => rfl
  | .binary (.reference op) left right => by
    apply (evaluate_bare hs hf left).bind
    intro v v' hv
    apply (evaluate_bare hs hf right).bind
    intro w w' hw
    apply Query.alike_done
    rw [← op.apply_bare v w, hv, hw, op.apply_bare]
  | .call name args => by
    rw [Expr.bare, evaluate, evaluate, Scope.call, Scope.call]
    cases hfind : scope.functions.find? name with
    | none => rfl
    | some f =>
      have hcall := hf f (Registry.mem_of_find? hfind) source scope.position _ _ hs
        (operands_bare hs hf args)
      exact .of_run hcall.run

theorem operands_bare (hs : source.IgnoresFlags) (hf : ∀ f ∈ scope.functions, f.IgnoresFlags) :
    (es : List Expr) → List.Forall₂ (Operand.Alike source) (operands scope (Expr.bareAll es))
      (operands scope es)
  | [] => .nil
  | e :: rest => by
    have he := evaluate_bare hs hf e
    have hrest := operands_bare hs hf rest
    cases e with
    | omitted => exact .cons .omitted hrest
    | _ => exact .cons (.given he) hrest

theorem unionParts_bare (hs : source.IgnoresFlags)
    (hf : ∀ f ∈ scope.functions, f.IgnoresFlags) :
    (es : List Expr) → (unionParts scope (Expr.bareAll es)).Alike source
      (Except.map (List.map Reference.bare)) (unionParts scope es)
  | [] => rfl
  | e :: rest => by
    apply (evaluate_bare hs hf e).bind
    intro v w hvw
    have hparts := v.toReferences_bare
    rw [hvw, w.toReferences_bare] at hparts
    cases hw : w.toReferences with
    | error err =>
      rw [hw] at hparts
      rw [map_eq_error.1 hparts.symm]
      rfl
    | ok rs =>
      rw [hw] at hparts
      obtain ⟨rs', hv, hrs⟩ := map_eq_ok.1 hparts.symm
      rw [hv]
      apply (unionParts_bare hs hf rest).bind
      intro x x' hx
      apply Query.alike_done
      rw [map_bare_append, hrs, hx, ← map_bare_append]

end

theorem formulaResult_bare (hs : source.IgnoresFlags)
    (hf : ∀ f ∈ scope.functions, f.IgnoresFlags) (e : Expr) :
    (formulaResult scope e.bare).Alike source id (formulaResult scope e) := by
  apply (evaluate_bare hs hf e).bind
  intro v w hvw
  exact (Query.Alike.of_view (Value.readResult_bare hs) hvw).then fun _ => rfl

end

/-- Formulas that differ in the flags of their cells and ranges alone have one result, or cannot be
read for one reason, and they call the same unknown functions; a table records the same for them. -/
theorem evaluate_eq_of_bare_eq {e e' : Expr} (h : e.bare = e'.bare) (engine : Engine)
    (position : Option Position) (hs : engine.source.IgnoresFlags)
    (hf : ∀ f ∈ engine.functions, f ∈ builtins) :
    (formulaResult (engine.scope position) e).run engine.source =
        (formulaResult (engine.scope position) e').run engine.source ∧
      engine.evaluate e position = engine.evaluate e' position ∧
      ∀ (t : DependencyTable) (cell : CellKey), t.register e cell = t.register e' cell := by
  have hignore : ∀ f ∈ (engine.scope position).functions, f.IgnoresFlags :=
    fun f hmem => builtins_ignoreFlags f (hf f hmem)
  have hresult : (formulaResult (engine.scope position) e).run engine.source =
      (formulaResult (engine.scope position) e').run engine.source := by
    rw [← (formulaResult_bare hs hignore e).run, h, (formulaResult_bare hs hignore e').run]
  refine ⟨hresult, ?_, fun t cell => ?_⟩
  · rw [Engine.evaluate, Engine.evaluate, hresult]
  · rw [← t.register_bare e, h, t.register_bare]

/-- A range that is made from two cells, with a `$` at one end or at the other. -/
theorem evaluate_eq_of_bare_eq_sumIf :
    let cell (row : Nat) (rowAbs colAbs : Bool) : Expr := .cell ⟨none, ⟨row, 1, rowAbs, colAbs⟩⟩
    let total (e : Expr) : Expr := .binary (.value (.arithmetic .add))
      (.call "SUMIF" [e, .literal (.number 2)]) (.call "F" [])
    let e := total (.binary (.reference .range) (cell 1 true false) (cell 3 false true))
    let e' := total (.binary (.reference .range) (cell 1 false false) (cell 3 true true))
    let source : Source := ⟨fun _ => .ok .empty, fun _ => .ok [[.number 1], [.number 2], [.empty]]⟩
    let engine : Engine := ⟨builtins, [], source, []⟩
    e.bare = e'.bare ∧ engine.evaluate e none = engine.evaluate e' none ∧
      engine.evaluate e none = (.ok (.number 2), { engine with log := ["F"] }) := by
  intro cell total e e' source engine
  have h : e.bare = e'.bare := rfl
  have hs : engine.source.IgnoresFlags := ⟨fun _ => rfl, fun _ => rfl⟩
  exact ⟨h, (evaluate_eq_of_bare_eq h engine none hs fun _ hf => hf).2.1, rfl⟩

end Spreadsheet
