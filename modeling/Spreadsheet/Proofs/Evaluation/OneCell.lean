import Spreadsheet.Proofs.Evaluation.Bare
import Spreadsheet.Proofs.Evaluation.Expanding

/-!
A range of one cell in the place of the cell. In a call of a function that expands arrays, both give
the same unless the cell is blank, empty text or an error; a blank cell then counts as a value of
its own, and an error in it ends the call.
-/

namespace Spreadsheet

section

variable {source : Source} {f : Function} {os os' : List Operand} {o o' : Operand}
  {a a' : Argument}

/-! ### One argument among others -/

/-- The operand becomes the argument, and notes no function on the way. -/
def Operand.Gives (source : Source) (c : Category) (o : Operand) (a : Argument) : Prop :=
  (o.argument c).run source = (.ok a, [])

namespace Function

/-- The arguments before and after a place. -/
def around (c : Category) (os os' : List Operand) : Query (List Argument × List Argument) := do
  let as ← readOperands c os
  return (as, ← readOperands c os')

theorem readOperands_around (c : Category) (os os' : List Operand) :
    readOperands c (os ++ os') = (fun p => p.1 ++ p.2) <$> around c os os' := by
  rw [readOperands_append]
  change _ = around c os os' >>= fun p => .done (p.1 ++ p.2)
  simp only [around, Query.bind_assoc]
  rfl

theorem readOperands_insert {c : Category} (ha : o.Gives source c a) :
    (readOperands c (os ++ o :: os')).run source =
      ((fun p => p.1 ++ a :: p.2) <$> around c os os').run source := by
  rw [readOperands_append, readOperands_cons]
  change _ = (around c os os' >>= fun p => .done (p.1 ++ a :: p.2)).run source
  rw [around, Query.bind_assoc]
  apply Query.Alike.run
  apply Query.Alike.then rfl
  intro as
  simp only [Query.bind_assoc]
  have hdone : (o.argument c).run source = (Query.done a).run source := ha
  exact (Query.Alike.of_run hdone).then fun _ => rfl

variable {g : Option Position → List Argument → Result Value}

/-- The value of a call on the arguments that were read. -/
def closeOn (f : Function) (g : Option Position → List Argument → Result Value)
    (position : Option Position) (args : List Argument) : Value :=
  close (f.onArguments (g position) args)

theorem call_of_values (hbody : f.body = .values g)
    (hcount : f.acceptsCount os.length = true) (position : Option Position) :
    f.call position os = f.closeOn g position <$> readOperands f.category os := by
  rw [call, if_pos hcount, hbody]
  rfl

theorem call_insert (hbody : f.body = .values g) (ha : o.Gives source f.category a)
    (hcount : f.acceptsCount (os ++ o :: os').length = true) (position : Option Position) :
    (f.call position (os ++ o :: os')).run source =
      ((fun p => f.closeOn g position (p.1 ++ a :: p.2)) <$> around f.category os os').run
        source := by
  rw [call_of_values hbody hcount, Query.run_map, readOperands_insert ha, Query.run_map,
    Query.run_map]
  cases ((around f.category os os').run source).1 <;> rfl

theorem blockingError?_insert (hvalue : a.value.error? = a'.value.error?) (as bs : List Argument) :
    f.blockingError? (as ++ a :: bs) = f.blockingError? (as ++ a' :: bs) := by
  simp only [blockingError?, List.findSome?_append, List.findSome?_cons, hvalue]

theorem blockingError?_of_none (hvalue : a.value.error? = none) (as bs : List Argument) :
    f.blockingError? (as ++ a :: bs) = f.blockingError? (as ++ bs) := by
  simp only [blockingError?, List.findSome?_append, List.findSome?_cons, hvalue]

theorem Alike.call (h : f.Alike a a') (hvalue : a.value.error? = a'.value.error?)
    (ha : o.Gives source f.category a) (ha' : o'.Gives source f.category a')
    (position : Option Position) :
    (f.call position (os ++ o :: os')).run source =
      (f.call position (os ++ o' :: os')).run source := by
  obtain ⟨g, hbody, hg⟩ := h
  have hlength : (os ++ o :: os').length = (os ++ o' :: os').length := by simp
  cases hcount : f.acceptsCount (os ++ o :: os').length with
  | false =>
    rw [Function.call, Function.call, ← hlength, hcount]
    rfl
  | true =>
    rw [call_insert hbody ha hcount, call_insert hbody ha' (hlength ▸ hcount)]
    simp only [closeOn, onArguments, blockingError?_insert hvalue, hg]

theorem PassesOver.call (h : f.PassesOver a) (hvalue : a.value.error? = none)
    (ha : o.Gives source f.category a)
    (hcount : f.acceptsCount (os ++ o :: os').length = true)
    (hcount' : f.acceptsCount (os ++ os').length = true) (position : Option Position) :
    (f.call position (os ++ o :: os')).run source = (f.call position (os ++ os')).run source := by
  obtain ⟨g, hbody, hg⟩ := h
  rw [call_insert hbody ha hcount, call_of_values hbody hcount', readOperands_around, Query.run_map,
    Query.run_map, Query.run_map]
  simp only [closeOn, onArguments, blockingError?_of_none hvalue, hg]
  cases ((around f.category os os').run source).1 <;> rfl

end Function

/-! ### Errors -/

/-- The operand can be an array with errors in it, but is no error. -/
def Operand.NoError (source : Source) (o : Operand) : Prop :=
  ∀ e, ((o.query >>= Value.read).run source).1 ≠ .ok (.error e)

theorem Category.nullValue_error? (c : Category) : c.nullValue.error? = none := by cases c <;> rfl

theorem Operand.NoError.argument {c : Category} (ho : o.NoError source)
    (ha : ((o.argument c).run source).1 = .ok a) : a.value.error? = none := by
  cases o with
  | omitted =>
    cases ha
    exact c.nullValue_error?
  | given q =>
    rw [Operand.argument, Query.run_bind_fst] at ha
    obtain ⟨v, hv, ha⟩ := bind_eq_ok.1 ha
    have hread (e : ErrorValue) : (v.read.run source).1 ≠ .ok (.error e) := by
      rw [← Query.bind_ends_in hv]
      exact ho e
    cases v with
    | reference r =>
      rw [Query.run_map] at ha
      obtain ⟨w, hw, rfl⟩ := map_eq_ok.1 ha
      cases w with
      | error e => exact absurd hw (hread e)
      | empty =>
        rw [Argument.ofRead]
        dsimp only
        split
        · exact c.nullValue_error?
        · rfl
      | _ => rfl
    | error e => exact absurd rfl (hread e)
    | _ =>
      cases ha
      rfl

namespace Function

theorem findSome?_of_readOperands {c : Category} {args : List Argument}
    (hos : ∀ o ∈ os, o.NoError source) (h : ((readOperands c os).run source).1 = .ok args) :
    args.findSome? (fun a => a.value.error?) = none := by
  induction os generalizing args with
  | nil =>
    cases h
    rfl
  | cons o os ih =>
    rw [readOperands_cons, Query.run_bind_fst] at h
    obtain ⟨a, ha, h⟩ := bind_eq_ok.1 h
    rw [Query.run_bind_fst] at h
    obtain ⟨as, has, h⟩ := bind_eq_ok.1 h
    cases h
    obtain ⟨ho, hos⟩ := List.forall_mem_cons.1 hos
    rw [List.findSome?_cons, ho.argument ha]
    exact ih hos has

theorem exists_around {c : Category} {p : List Argument × List Argument}
    (h : ((around c os os').run source).1 = .ok p) :
    ((readOperands c os).run source).1 = .ok p.1 := by
  rw [around, Query.run_bind_fst] at h
  obtain ⟨as, has, h⟩ := bind_eq_ok.1 h
  rw [Query.run_bind_fst] at h
  obtain ⟨bs, -, h⟩ := bind_eq_ok.1 h
  cases h
  exact has

/-- An error in a cell is the result, where no error comes before it. -/
theorem call_of_found_error (hbody : f.body = .values g) (haccepts : f.acceptsErrors = false)
    (hos : ∀ o ∈ os, o.NoError source) (ha : o.Gives source f.category (.found (.error e)))
    (ha' : o'.Gives source f.category a') (hcount : f.acceptsCount (os ++ o :: os').length = true)
    (position : Option Position) :
    (f.call position (os ++ o :: os')).run source =
      ((fun _ => .error e) <$> f.call position (os ++ o' :: os')).run source := by
  have hlength : (os ++ o :: os').length = (os ++ o' :: os').length := by simp
  rw [Query.run_map, call_insert hbody ha hcount, call_insert hbody ha' (hlength ▸ hcount),
    Query.run_map, Query.run_map]
  cases h : ((around f.category os os').run source).1 with
  | error message => rfl
  | ok p =>
    have hbefore := findSome?_of_readOperands hos (exists_around h)
    have hblocking : f.blockingError? (p.1 ++ .found (.error e) :: p.2) = some e := by
      rw [blockingError?, haccepts, List.findSome?_append, hbefore]
      rfl
    have hclose : f.closeOn g position (p.1 ++ .found (.error e) :: p.2) = .error e := by
      rw [closeOn, onArguments, hblocking]
      rfl
    exact congrArg (fun v => (Except.ok v, ((around f.category os os').run source).2)) hclose

/-- An error that the function stops at is the value of the call, unless the call is an error
without it. -/
theorem StopsAtErrors.closeOn (h : f.StopsAtErrors) :
    ∃ g, f.body = .values g ∧ ∀ position as bs e,
      f.closeOn g position (as ++ .single false (.error e) :: bs) = .error e ∨
        ∃ e', f.closeOn g position (as ++ .single false (.error e) :: bs) = .error e' ∧
          ∀ v, f.closeOn g position (as ++ .single true v :: bs) = .error e' := by
  obtain ⟨g, hbody, hg⟩ := h
  refine ⟨g, hbody, fun position as bs e => ?_⟩
  have hblocking (literal : Bool) (v : Value) :
      f.blockingError? (as ++ .single literal v :: bs) = f.blockingError? (as ++ bs) :=
    blockingError?_of_none rfl as bs
  simp only [Function.closeOn, onArguments, hblocking]
  cases f.blockingError? (as ++ bs) with
  | some e' => exact .inr ⟨e', rfl, fun v => rfl⟩
  | none =>
    rcases hg position as bs e with h | ⟨e', h, hv⟩
    · rw [h]
      exact .inl rfl
    · simp only [h, hv]
      exact .inr ⟨e', rfl, fun v => rfl⟩

theorem StopsAtErrors.call (h : f.StopsAtErrors)
    (ha : o.Gives source f.category (.single false (.error e)))
    (hcount : f.acceptsCount (os ++ o :: os').length = true) (position : Option Position)
    (hw : ((f.call position (os ++ o :: os')).run source).1 = .ok w) :
    w = .error e ∨ ∃ e', w = .error e' ∧
      ∀ o' v, o'.Gives source f.category (.single true v) →
        ((f.call position (os ++ o' :: os')).run source).1 = .ok (.error e') := by
  obtain ⟨g, hbody, hclose⟩ := h.closeOn
  rw [call_insert hbody ha hcount, Query.run_map] at hw
  obtain ⟨p, hp, rfl⟩ := map_eq_ok.1 hw
  rcases hclose position p.1 p.2 e with h | ⟨e', h, hv⟩
  · exact .inl h
  · refine .inr ⟨e', h, fun o' v ha' => ?_⟩
    have hlength : (os ++ o :: os').length = (os ++ o' :: os').length := by simp
    rw [call_insert hbody ha' (hlength ▸ hcount), Query.run_map, hp]
    exact congrArg Except.ok (hv v)

end Function

end

/-! ### A cell and a range -/

section

variable {source : Source} {scope : Scope} {cell : CellRef} {range : RangeRef} {c : Category}

theorem gives_reference (hc : c ≠ .information) {r : Reference}
    (hread : r.read.run source = (.ok v, [])) :
    (Operand.given (.done (.reference r))).Gives source c
      (.found (if v.isEmpty then c.nullValue else v)) := by
  have hpreserves : c.preservesReference = false := by
    simpa [Category.preservesReference] using hc
  have hargument : Argument.ofRead c r v = .found (if v.isEmpty then c.nullValue else v) := by
    simp [Argument.ofRead, Argument.found, hpreserves]
  change (Argument.ofRead c r <$> r.read).run source = _
  rw [Query.run_map, hread, ← hargument]
  rfl

theorem gives_cell (scope : Scope) (hc : c ≠ .information) (hcell : source.cell cell = .ok v) :
    (Operand.given (evaluate scope (.cell cell))).Gives source c
      (.found (if v.isEmpty then c.nullValue else v)) := by
  apply gives_reference hc
  rw [Reference.read, Query.readCell, Query.run, hcell]
  rfl

theorem gives_range (scope : Scope) (hc : c ≠ .information)
    (hrange : source.range range = .ok [[v]]) :
    (Operand.given (evaluate scope (.range range))).Gives source c (.single false v) := by
  have hread : (Reference.range range).read.run source = (.ok (.array [[v]]), []) := by
    rw [Reference.read, Query.run_map, Query.readRange, Query.run, hrange]
    rfl
  exact gives_reference hc hread

theorem gives_literal (l : Literal) :
    (Operand.given (evaluate scope (.literal l))).Gives source c (.ofValue l.toValue) := by
  cases l <;> rfl

theorem gives_array (l : Literal) :
    (Operand.given (evaluate scope (.array [[l]]))).Gives source c (.single true l.toValue) := rfl

theorem operands_insert (before after : List Expr) (x : Expr) (hx : x ≠ .omitted) :
    operands scope (before ++ x :: after) =
      operands scope before ++ .given (evaluate scope x) :: operands scope after := by
  rw [operands_append]
  cases x with
  | omitted => exact absurd rfl hx
  | _ => rfl

theorem operands_eq_nil_iff {args : List Expr} : operands scope args = [] ↔ args = [] := by
  rw [← List.length_eq_zero_iff, length_operands, List.length_eq_zero_iff]

theorem noError_of_args {args : List Expr}
    (h : ∀ b ∈ args, ∀ e, ((evaluate scope b >>= Value.read).run source).1 ≠ .ok (.error e)) :
    ∀ o ∈ operands scope args, o.NoError source := by
  intro o ho e
  obtain ⟨b, hb, hquery⟩ := exists_arg ho
  rw [← hquery]
  exact h b hb e

end

/-! ### Blanks -/

section

variable {source : Source} {f : Function} {os os' : List Operand} {o o' : Operand}

theorem Function.SkipsBlanks.call (h : f.SkipsBlanks)
    (ho : o.Gives source f.category (.single false .empty)) (position : Option Position) :
    (f.call position (os ++ o :: os')).run source =
      if os ++ os' = [] then
        (.ok (if f.name = "PRODUCT" then .number 0 else .error .value), [])
      else (f.call position (os ++ os')).run source := by
  have hcount : f.acceptsCount (os ++ o :: os').length = true := by
    rw [h.acceptsCount, List.length_append, List.length_cons]
    exact decide_eq_true (by omega)
  split
  · next hnil =>
    obtain ⟨rfl, rfl⟩ := List.append_eq_nil_iff.1 hnil
    obtain ⟨g, hbody, halone⟩ := h.alone
    have hblocking : f.blockingError? [.single false .empty] = none :=
      (Function.blockingError?_of_none rfl [] []).trans (ite_self _)
    rw [Function.call_insert hbody ho hcount]
    change (Except.ok (close (f.onArguments (g position) [.single false .empty])), []) = _
    rw [Function.onArguments, hblocking]
    dsimp only
    rw [halone]
    split <;> rfl
  · next hne =>
    have hcount' : f.acceptsCount (os ++ os').length = true := by
      rw [h.acceptsCount]
      exact decide_eq_true (List.length_pos_iff.2 hne)
    exact h.passesOver.call rfl ho hcount hcount' position

theorem Arithmetic.closeOn_sum_blank (position : Option Position) (as bs : List Argument) :
    let f : Function := .ofNumbers "SUM" .math 1 none sum
    let close (a : Argument) :=
      f.closeOn (fun _ args => .number <$> sum args) position (as ++ a :: bs)
    close (.single false .empty) = close (.found (.number 0)) ∨
      close (.found (.number 0)) = .number 0 ∧ close (.single false .empty) = .number (-0.0) := by
  intro f close
  have hfound : f.blockingError? (as ++ .found (.number 0) :: bs) = f.blockingError? (as ++ bs) :=
    Function.blockingError?_of_none rfl as bs
  have hblank : f.blockingError? (as ++ .single false .empty :: bs) = f.blockingError? (as ++ bs) :=
    Function.blockingError?_of_none rfl as bs
  simp only [close, Function.closeOn, Function.onArguments, hfound, hblank]
  cases f.blockingError? (as ++ bs) with
  | some e => exact .inl rfl
  | none =>
    rcases sum_blank as bs with h | ⟨hzero, hnegative⟩
    · rw [h]
      exact .inl rfl
    · rw [hzero, hnegative]
      exact .inr ⟨rfl, rfl⟩

theorem Arithmetic.call_sum_blank (ho : o.Gives source .math (.found (.number 0)))
    (ho' : o'.Gives source .math (.single false .empty)) (position : Option Position) :
    let f : Function := .ofNumbers "SUM" .math 1 none sum
    let call (o : Operand) := (f.call position (os ++ o :: os')).run source
    call o' = call o ∨
      (call o).1 = .ok (.number 0) ∧ call o' = (.ok (.number (-0.0)), (call o).2) := by
  intro f call
  have hcount (o : Operand) : f.acceptsCount (os ++ o :: os').length = true := by
    rw [List.length_append, List.length_cons]
    exact Bool.and_eq_true_iff.2 ⟨decide_eq_true (by change 1 ≤ _; omega), rfl⟩
  have hcall {o : Operand} {a : Argument} (ha : o.Gives source .math a) : call o =
      ((fun p => f.closeOn (fun _ args => .number <$> sum args) position (p.1 ++ a :: p.2)) <$>
        Function.around .math os os').run source :=
    Function.call_insert rfl ha (hcount o) position
  rw [hcall ho, hcall ho', Query.run_map, Query.run_map]
  cases ((Function.around .math os os').run source).1 with
  | error message => exact .inl rfl
  | ok p =>
    rcases closeOn_sum_blank position p.1 p.2 with h | ⟨hzero, hnegative⟩
    · exact .inl (congrArg (fun v => (Except.ok v, _)) h)
    · exact .inr ⟨congrArg Except.ok hzero, congrArg (fun v => (Except.ok v, _)) hnegative⟩

end

/-! ### Calls -/

section

variable {scope : Scope} {name : String} {f : Function} {cell : CellRef} {range : RangeRef}

/-- A range of one cell in a call of a function that expands arrays, where the range gives the value
`v` that the cell gives. Both calls are the same for a number, a boolean and text, but for the empty
text that `COUNTA` takes for a blank. A blank makes no difference to functions that take one for
what a blank cell is, and to `SUM` none but the sign of zero; to `PRODUCT` and the logical functions
the blank cell is 0, and they pass over the blank in the range. An error in the cell ends the call.
In the range it reaches the function, which counts it or returns it, unless it meets another error
before. -/
theorem call_range_of_cell (source : Source) (hf : f ∈ builtins)
    (hname : f.name ∈ ["COUNT", "COUNTA", "COUNTBLANK", "AVERAGE", "MAX", "MIN", "GCD",
      "SUMPRODUCT", "CONCAT", "IMSUM", "IMPRODUCT", "PRODUCT", "AND", "OR", "XOR", "SUM",
      "AVERAGEA", "LCM"])
    (hfind : scope.functions.find? name = some f) (hcell : source.cell cell = .ok v)
    (hrange : source.range range = .ok [[v]]) (before after : List Expr) :
    let call (x : Expr) := (evaluate scope (.call name (before ++ x :: after))).run source
    (v.Simple → v.error? = none → (f.name = "COUNTA" → v ≠ .text "") →
      call (.range range) = call (.cell cell)) ∧
    (v = .empty →
      (f.name ∈ ["COUNT", "COUNTA", "COUNTBLANK", "AVERAGE", "MAX", "MIN", "GCD", "SUMPRODUCT",
          "CONCAT", "IMSUM", "IMPRODUCT"] →
        call (.range range) = call (.cell cell)) ∧
      (f.name = "SUM" →
        call (.range range) = call (.cell cell) ∨
          (call (.cell cell)).1 = .ok (.number 0) ∧
            call (.range range) = (.ok (.number (-0.0)), (call (.cell cell)).2)) ∧
      (f.name ∈ ["PRODUCT", "AND", "OR", "XOR"] →
        call (.cell cell) = call (.literal (.number 0)) ∧
          call (.range range) =
            if before ++ after = [] then
              (.ok (if f.name = "PRODUCT" then .number 0 else .error .value), [])
            else (evaluate scope (.call name (before ++ after))).run source)) ∧
    (∀ e, v = .error e → f.acceptsCount (before ++ .cell cell :: after).length = true →
      (∀ b ∈ before, ∀ e', ((evaluate scope b >>= Value.read).run source).1 ≠ .ok (.error e')) →
      call (.cell cell) =
          ((call (.range range)).1.map fun _ => .error e, (call (.range range)).2) ∧
        (f.name ∈ ["COUNT", "COUNTA", "COUNTBLANK"] →
          call (.range range) = call (.array [[.boolean true]])) ∧
        (f.name ∉ ["COUNT", "COUNTA", "COUNTBLANK"] →
          ∀ w, (call (.range range)).1 = .ok w → w = .error e ∨
            ∃ e', w = .error e' ∧ ∀ l, (call (.array [[l]])).1 = .ok (.error e'))) := by
  intro call
  have hexpanding : f ∈ expanding := mem_of_name_mem hf (List.Subset.refl _) hname
  obtain ⟨hcategory, haccepts⟩ := expanding_category hexpanding
  have hcall (x : Expr) (hx : x ≠ .omitted) : call x = (f.call scope.position
      (operands scope before ++ .given (evaluate scope x) :: operands scope after)).run source := by
    change (evaluate scope (.call name (before ++ x :: after))).run source = _
    rw [evaluate_call hfind, operands_insert before after x hx]
  have hcallCell := hcall (.cell cell) nofun
  have hcallRange := hcall (.range range) nofun
  have hgivesCell := gives_cell scope hcategory hcell
  have hgivesRange := gives_range scope hcategory hrange
  refine ⟨?value, ?blank, ?error⟩
  case value =>
    intro hv herror htext
    have hempty : v.isEmpty = false := by cases hv <;> rfl
    rw [hempty] at hgivesCell
    rw [hcallCell, hcallRange]
    exact ((expanding_alike hexpanding hv htext).call herror hgivesCell hgivesRange _).symm
  case blank =>
    rintro rfl
    change Operand.Gives source f.category _ (.found f.category.nullValue) at hgivesCell
    have hnull : (Argument.found f.category.nullValue).value.error? = none :=
      f.category.nullValue_error?
    refine ⟨fun hread => ?_, fun hsum => ?_, fun hskip => ?_⟩
    · rw [hcallCell, hcallRange]
      exact ((readingBlanks_alike f (mem_readingBlanks hf hread)).call hnull hgivesCell
        hgivesRange _).symm
    · obtain rfl := eq_sum_of_name hf hsum
      rw [hcallCell, hcallRange]
      exact Arithmetic.call_sum_blank hgivesCell hgivesRange scope.position
    · have hskips := skippingBlanks_skipsBlanks f (mem_skippingBlanks hf hskip)
      have hzero : Operand.Gives source f.category
          (.given (evaluate scope (.literal (.number 0)))) (.ofValue (.number 0)) :=
        gives_literal (.number 0)
      constructor
      · rw [hcallCell, hcall (.literal (.number 0)) nofun]
        exact hskips.alike.call hnull hgivesCell hzero _
      · rw [hcallRange, hskips.call hgivesRange, ← operands_append, evaluate_call hfind]
        simp only [operands_eq_nil_iff]
  case error =>
    rintro e rfl hcount hbefore
    have hcount' (o : Operand) :
        f.acceptsCount (operands scope before ++ o :: operands scope after).length = true := by
      rw [← hcount]
      simp [length_operands]
    have hos : ∀ o ∈ operands scope before, o.NoError source := noError_of_args hbefore
    refine ⟨?_, fun hcounting => ?_, fun hcounting w hw => ?_⟩
    · obtain ⟨g, hbody, -⟩ := expanding_alike hexpanding (.error e) nofun
      rw [hcallCell, hcallRange, ← Query.run_map]
      exact Function.call_of_found_error hbody haccepts hos hgivesCell hgivesRange (hcount' _) _
    · have hmem : f ∈ counting := mem_of_name_mem hf (List.subset_append_left _ _) hcounting
      rw [hcallRange, hcall (.array [[.boolean true]]) nofun]
      exact (counting_errors f hmem e).call rfl hgivesRange (gives_array (.boolean true)) _
    · obtain ⟨-, hstops⟩ := computing_opensArrays f (mem_computing hexpanding hcounting)
      rw [hcallRange] at hw
      rcases hstops.call hgivesRange (hcount' _) _ hw with h | ⟨e', h, harray⟩
      · exact .inl h
      · refine .inr ⟨e', h, fun l => ?_⟩
        rw [hcall (.array [[l]]) nofun]
        exact harray _ l.toValue (gives_array l)

/-- An error in the cell is the result, and in the range it is not counted. -/
theorem call_range_of_cell_count :
    let scope : Scope := ⟨builtins, [], none⟩
    let source : Source := ⟨fun _ => .ok (.error .div0), fun _ => .ok [[.error .div0]]⟩
    let a1 : Address := .relative 1 1
    let call (x : Expr) := (evaluate scope (.call "count" [.literal (.number 1), x])).run source
    call (.cell ⟨none, a1⟩) = (.ok (.error .div0), []) ∧
      call (.range ⟨none, .single a1⟩) = call (.array [[.boolean true]]) := by
  intro scope source a1 call
  let f : Function := .ofNumbers "COUNT" .statistical 1 none Statistics.count
  have hfind : scope.functions.find? "count" = some f := rfl
  have hf : f ∈ builtins := Registry.mem_of_find? hfind
  have hcell : source.cell ⟨none, a1⟩ = .ok (.error .div0) := rfl
  have hrange : source.range ⟨none, .single a1⟩ = .ok [[.error .div0]] := rfl
  obtain ⟨-, -, herror⟩ := call_range_of_cell source hf List.mem_cons_self hfind hcell hrange
    [.literal (.number 1)] []
  have hbefore : ∀ b ∈ [Expr.literal (.number 1)], ∀ e,
      ((evaluate scope b >>= Value.read).run source).1 ≠ .ok (.error e) := by
    simp only [List.forall_mem_singleton]
    exact fun e => nofun
  obtain ⟨hfound, hcounted, -⟩ := herror .div0 rfl rfl hbefore
  exact ⟨hfound, hcounted List.mem_cons_self⟩

/-- A blank cell is false to a conjunction, and a blank in a range is no part of it. -/
theorem not_call_range_of_cell :
    let scope : Scope := ⟨builtins, [], none⟩
    let source : Source := ⟨fun _ => .ok .empty, fun _ => .ok [[.empty]]⟩
    let a1 : Address := .relative 1 1
    let call (x : Expr) := (evaluate scope (.call "AND" [.literal (.boolean true), x])).run source
    call (.range ⟨none, .single a1⟩) ≠ call (.cell ⟨none, a1⟩) := by
  intro scope source a1 call h
  have hvalues : (.ok (.boolean true) : Except String Value) = .ok (.boolean false) :=
    congrArg Prod.fst h
  cases hvalues

end

end Spreadsheet
