import Mathlib.Data.List.Nodup
import Spreadsheet.Proofs.Evaluation.Kinds
import Spreadsheet.Proofs.Evaluation.Runs

/-!
Errors among the arguments of a call. A function of values is not called if one of its arguments is
an error: the call is the first of them. Of the built-in functions that read their operands
themselves, `SUMIF` alone passes over errors.
-/

namespace Spreadsheet

section

variable {source : Source} {operands : List Operand}

theorem Operand.argument_of_error (c : Category) {o : Operand}
    (he : (o.query.run source).1 = .ok (.error e)) :
    ((o.argument c).run source).1 = .ok (.ofValue (.error e)) := by
  cases o with
  | omitted => cases he
  | given q =>
    rw [argument]
    exact (Query.bind_ends_in he).trans rfl

/-- An operand that is no argument could not be evaluated or not be read. -/
theorem Operand.fails_of_argument {c : Category} {o : Operand}
    (h : ((o.argument c).run source).1 = .error message) :
    ((o.query >>= Value.read).run source).1 = .error message := by
  cases o with
  | omitted => cases h
  | given q =>
    apply Query.bind_fails_iff.2
    rcases Query.bind_fails_iff.1 h with h | ⟨v, hv, h⟩
    · exact .inl h
    · apply Or.inr
      refine ⟨v, hv, ?_⟩
      cases v with
      | reference r =>
        rw [Query.run_map] at h
        exact map_eq_error.1 h
      | _ => cases h

namespace Function

theorem exists_error_of_readOperands {c : Category} (ho : o ∈ operands)
    (he : (o.query.run source).1 = .ok (.error e))
    (h : ((readOperands c operands).run source).1 = .ok args) :
    ∃ first, args.findSome? (fun a => a.value.error?) = some first := by
  induction operands generalizing args with
  | nil => cases ho
  | cons o' rest ih =>
    rw [readOperands_cons, Query.run_bind_fst] at h
    obtain ⟨a, ha, h⟩ := bind_eq_ok.1 h
    rw [Query.run_bind_fst] at h
    obtain ⟨as, has, h⟩ := bind_eq_ok.1 h
    cases h
    rw [List.findSome?_cons]
    rcases List.mem_cons.1 ho with rfl | ho
    · rw [Operand.argument_of_error c he] at ha
      cases ha
      exact ⟨e, rfl⟩
    · cases a.value.error? with
      | some first => exact ⟨first, rfl⟩
      | none => exact ih ho has

theorem exists_failure_of_readOperands {c : Category}
    (h : ((readOperands c operands).run source).1 = .error message) :
    ∃ o ∈ operands, ((o.query >>= Value.read).run source).1 = .error message := by
  induction operands with
  | nil => cases h
  | cons o rest ih =>
    rw [readOperands_cons] at h
    rcases Query.bind_fails_iff.1 h with h | ⟨a, -, h⟩
    · exact ⟨o, List.mem_cons_self, Operand.fails_of_argument h⟩
    · rcases Query.bind_fails_iff.1 h with h | ⟨as, -, h⟩
      · obtain ⟨o, ho, h⟩ := ih h
        exact ⟨o, List.mem_cons_of_mem _ ho, h⟩
      · cases h

/-- A call in which some operand is an error is an error, and it fails only as one of its operands
does. -/
def PassesErrors (f : Function) : Prop :=
  ∀ (source : Source) (position : Option Position) (operands : List Operand) (o : Operand)
    (e : ErrorValue), f.acceptsCount operands.length = true → o ∈ operands →
    (o.query.run source).1 = .ok (.error e) →
    (∀ v, ((f.call position operands).run source).1 = .ok v → ∃ e', v = .error e') ∧
    ∀ message, ((f.call position operands).run source).1 = .error message →
      ∃ o ∈ operands, ((o.query >>= Value.read).run source).1 = .error message

/-- The call of a function of values is the first error among its arguments. -/
theorem call_of_first_error {f : Function} {g : Option Position → List Argument → Result Value}
    (hbody : f.body = .values g) (haccepts : f.acceptsErrors = false)
    (hcount : f.acceptsCount operands.length = true)
    (h : ((readOperands f.category operands).run source).1 = .ok args)
    (he : args.findSome? (fun a => a.value.error?) = some e) (position : Option Position) :
    ((f.call position operands).run source).1 = .ok (.error e) := by
  rw [call, if_pos hcount, hbody]
  apply (Query.bind_ends_in h).trans
  change Except.ok (close (f.onArguments (g position) args)) = _
  have hblocking : f.blockingError? args = some e := by
    rw [blockingError?, haccepts]
    exact he
  rw [onArguments, hblocking]
  rfl

theorem passesErrors_of_values {f : Function}
    {g : Option Position → List Argument → Result Value} (hbody : f.body = .values g)
    (haccepts : f.acceptsErrors = false) : f.PassesErrors := by
  intro source position operands o e hcount ho he
  cases hread : ((readOperands f.category operands).run source).1 with
  | ok args =>
    obtain ⟨first, hfirst⟩ := exists_error_of_readOperands ho he hread
    have hcall := call_of_first_error hbody haccepts hcount hread hfirst position
    rw [hcall]
    exact ⟨fun v hv => ⟨first, (Except.ok.inj hv).symm⟩, nofun⟩
  | error reason =>
    have hcall : ((f.call position operands).run source).1 = .error reason := by
      rw [call, if_pos hcount, hbody]
      exact Query.bind_fails_iff.2 (.inl hread)
    rw [hcall]
    refine ⟨nofun, fun message hmessage => ?_⟩
    cases hmessage
    exact exists_failure_of_readOperands hread

end Function

/-! ### Functions that read their operands -/

namespace Function

theorem call_of_body {f : Function} {g : Option Position → List Operand → Query (Result Value)}
    (hbody : f.body = .operands g) (hcount : f.acceptsCount operands.length = true)
    (position : Option Position) :
    ((f.call position operands).run source).1 =
      ((g position operands).run source).1.map fun x => close (.ofResult x) := by
  rw [Function.call, if_pos hcount, hbody]
  exact congrArg Prod.fst (Query.run_map _ _)

theorem eq_singleton_of_acceptsCount {f : Function} (hmax : f.maxArgs = some 1)
    (hcount : f.acceptsCount operands.length = true) (ho : o ∈ operands) : operands = [o] := by
  rw [acceptsCount, hmax] at hcount
  simp only [Option.all_some, Bool.and_eq_true, decide_eq_true_eq] at hcount
  match operands with
  | [] => cases ho
  | [o'] => rw [List.mem_singleton.1 ho]
  | _ :: _ :: rest => simp at hcount

/-- A function that looks at the value of its only operand hands on an error there. -/
theorem passesErrors_of_single {f : Function} {F : Option Position → Option Value → Result Value}
    (hbody : f.body = .operands fun position operands => F position <$> Lookup.single? operands)
    (hmax : f.maxArgs = some 1) (hF : ∀ position e, F position (some (.error e)) = .error e) :
    f.PassesErrors := by
  intro source position operands o e hcount ho he
  obtain rfl := eq_singleton_of_acceptsCount hmax hcount ho
  cases o with
  | omitted => cases he
  | given q =>
    have hcall : ((f.call position [.given q]).run source).1 = .ok (.error e) := by
      change (q.run source).1 = _ at he
      rw [call_of_body hbody hcount, Query.run_map, Lookup.single?, Query.run_map, he]
      change Except.ok (close (.ofResult (F position (some (.error e))))) = _
      rw [hF]
      rfl
    rw [hcall]
    exact ⟨fun v hv => ⟨e, (Except.ok.inj hv).symm⟩, nofun⟩

end Function

theorem Lookup.place_passesErrors {f : Function} {ofStart : Address → Nat}
    {ofCell : Position → Nat} (hbody : f.body = .operands (place ofStart ofCell))
    (hmax : f.maxArgs = some 1) : f.PassesErrors :=
  Function.passesErrors_of_single hbody hmax fun _ _ => rfl

theorem Lookup.extent_passesErrors {f : Function} {ofArea : Range → Nat}
    {ofRows : List (List Value) → Nat} (hbody : f.body = .operands (extent ofArea ofRows))
    (hmax : f.maxArgs = some 1) : f.PassesErrors :=
  Function.passesErrors_of_single hbody hmax fun _ _ => rfl

namespace Conditional

/-- What `COUNTIF` makes of the value of its first operand. -/
def countIn (criterion : Operand) (v : Value) : Query (Result Value) := do
  if let .error e := v then return .error e
  let values := (← v.read).elements
  let c ← (← criterion.query).read
  if let .error e := c then return .error e
  return .ok (.number (Float.ofNat (values.countP (Criterion.ofValue c).holds)))

theorem countIf_eq (position : Option Position) (cells criterion : Operand) :
    countIf position [cells, criterion] = cells.query >>= countIn criterion := rfl

theorem countIn_of_ne {criterion : Operand} {v : Value} (hv : ∀ e, v ≠ .error e) :
    countIn criterion v = do
      let values := (← v.read).elements
      let c ← (← criterion.query).read
      if let .error e := c then return .error e
      return .ok (.number (Float.ofNat (values.countP (Criterion.ofValue c).holds))) := by
  cases v with
  | error e => exact absurd rfl (hv e)
  | _ => rfl

/-- Where the criterion is an error, the call is one, unless the cells cannot be read. -/
theorem countIn_of_error {criterion : Operand} {v : Value} (hv : ∀ e, v ≠ .error e)
    (he : (criterion.query.run source).1 = .ok (.error e)) :
    ((countIn criterion v).run source).1 = (v.read.run source).1.map fun _ => .error e := by
  rw [countIn_of_ne hv, Query.run_bind_fst]
  cases (v.read.run source).1 with
  | error message => rfl
  | ok w => exact (Query.bind_ends_in he).trans rfl

theorem countIf_passesErrors {f : Function} (hbody : f.body = .operands countIf)
    (hmin : f.minArgs = 2) (hmax : f.maxArgs = some 2) : f.PassesErrors := by
  intro source position operands o e hcount ho he
  obtain ⟨cells, criterion, rfl⟩ : ∃ cells criterion, operands = [cells, criterion] := by
    rw [Function.acceptsCount, hmin, hmax] at hcount
    match operands with
    | [cells, criterion] => exact ⟨cells, criterion, rfl⟩
    | [] | [_] | _ :: _ :: _ :: _ => simp at hcount
  rw [Function.call_of_body hbody hcount, countIf_eq, Query.run_bind_fst]
  cases hcells : (cells.query.run source).1 with
  | error reason =>
    refine ⟨nofun, fun message hmessage => ⟨cells, List.mem_cons_self, ?_⟩⟩
    cases hmessage
    exact Query.bind_fails_iff.2 (.inl hcells)
  | ok v =>
    change (∀ w, ((countIn criterion v).run source).1.map _ = .ok w → _) ∧
      ∀ message, ((countIn criterion v).run source).1.map _ = .error message → _
    by_cases hv : ∃ e', v = .error e'
    · obtain ⟨e', rfl⟩ := hv
      exact ⟨fun w hw => ⟨e', (Except.ok.inj hw).symm⟩, nofun⟩
    · have hne (e' : ErrorValue) (h : v = .error e') : False := hv ⟨e', h⟩
      rcases List.mem_pair.1 ho with rfl | rfl
      · rw [hcells] at he
        exact (hne e (Except.ok.inj he)).elim
      · rw [countIn_of_error hne he]
        cases hread : (v.read.run source).1 with
        | ok w => exact ⟨fun w hw => ⟨e, (Except.ok.inj hw).symm⟩, nofun⟩
        | error reason =>
          refine ⟨nofun, fun message hmessage => ⟨cells, List.mem_cons_self, ?_⟩⟩
          cases hmessage
          exact Query.bind_fails_iff.2 (.inr ⟨v, hcells, hread⟩)

/-- The sum is a number, whatever the operands are. -/
theorem sumIf_makes_number (position : Option Position) (cells criterion : Operand)
    (rest : List Operand) :
    (sumIf position (cells :: criterion :: rest)).Within source (fun _ => True)
      fun result => ∃ x, result = .ok (.number x) := by
  apply (Query.within_true _).bind
  intro v _
  apply (Query.within_true _).bind
  intro rows _
  apply (Query.within_true _).bind
  intro w _
  apply (Query.within_true _).bind
  intro c _
  apply (Query.within_true _).bind
  intro summed _
  exact ⟨_, rfl⟩

theorem call_sumIf {f : Function} (hbody : f.body = .operands sumIf) (hmin : f.minArgs = 2)
    (hcount : f.acceptsCount operands.length = true) {position : Option Position}
    (h : ((f.call position operands).run source).1 = .ok v) :
    (∃ x, v = .number x ∧ x.isFinite = true) ∨ v = .error .num := by
  obtain ⟨cells, criterion, rest, rfl⟩ :
      ∃ cells criterion rest, operands = cells :: criterion :: rest := by
    rw [Function.acceptsCount, hmin] at hcount
    match operands with
    | cells :: criterion :: rest => exact ⟨cells, criterion, rest, rfl⟩
    | [] | [_] => simp at hcount
  rw [Function.call_of_body hbody hcount] at h
  obtain ⟨result, hresult, rfl⟩ := map_eq_ok.1 h
  obtain ⟨x, rfl⟩ :=
    Query.within_true_iff.1 (sumIf_makes_number position cells criterion rest) result hresult
  rw [Value.ofResult, Function.close]
  split
  · next hfinite => exact .inl ⟨x, rfl, hfinite⟩
  · exact .inr rfl

end Conditional

end

/-! ### Built-in functions -/

theorem builtins_acceptingErrors :
    (builtins.filter fun f => f.acceptsErrors && !f.needsOperands &&
      f.category != .information).map Function.name = ["IF", "IFERROR", "IFNA"] := rfl

theorem builtins_needingOperands :
    builtins.filter Function.needsOperands = Conditional.functions ++ Lookup.functions.take 4 :=
  rfl

theorem mem_needsOperands {f : Function} (hf : f ∈ builtins) (hneeds : f.needsOperands = true) :
    f ∈ Conditional.functions ++ Lookup.functions.take 4 := by
  rw [← builtins_needingOperands]
  exact List.mem_filter.2 ⟨hf, hneeds⟩

theorem passesErrors_of_needsOperands :
    ∀ f ∈ Conditional.functions ++ Lookup.functions.take 4, f.name ≠ "SUMIF" →
      f.PassesErrors := by
  simp only [Conditional.functions, Lookup.functions, List.take, List.cons_append, List.nil_append,
    List.forall_mem_cons]
  exact ⟨fun h => absurd rfl h, fun _ => Conditional.countIf_passesErrors rfl rfl rfl,
    fun _ => Lookup.place_passesErrors rfl rfl, fun _ => Lookup.extent_passesErrors rfl rfl,
    fun _ => Lookup.place_passesErrors rfl rfl, fun _ => Lookup.extent_passesErrors rfl rfl,
    fun f hf => absurd hf List.not_mem_nil⟩

theorem acceptsErrors_of_builtin {f : Function} {g : Option Position → List Argument → Result Value}
    (hf : f ∈ builtins) (hbody : f.body = .values g) (hcategory : f.category ≠ .information)
    (hname : f.name ∉ ["IF", "IFERROR", "IFNA"]) : f.acceptsErrors = false := by
  cases haccepts : f.acceptsErrors with
  | false => rfl
  | true =>
    have hmem : f.name ∈ ["IF", "IFERROR", "IFNA"] := by
      rw [← builtins_acceptingErrors]
      apply List.mem_map_of_mem
      apply List.mem_filter.2
      simp [hf, haccepts, hcategory, Function.needsOperands, hbody]
    exact absurd hmem hname

/-- `SUMIF` apart, the built-in functions that are not made to look at errors pass them on. -/
theorem passesErrors_of_builtin {f : Function} (hf : f ∈ builtins)
    (hcategory : f.category ≠ .information) (hname : f.name ∉ ["IF", "IFERROR", "IFNA"])
    (hsum : f.name ≠ "SUMIF") : f.PassesErrors := by
  cases hbody : f.body with
  | values g =>
    apply Function.passesErrors_of_values hbody
    exact acceptsErrors_of_builtin hf hbody hcategory hname
  | operands g =>
    have hneeds : f.needsOperands = true := by rw [Function.needsOperands, hbody]
    exact passesErrors_of_needsOperands f (mem_needsOperands hf hneeds) hsum

theorem Registry.mem_of_find? {registry : Registry} (h : registry.find? name = some f) :
    f ∈ registry :=
  List.mem_of_find?_eq_some h

theorem builtins_names_nodup : (builtins.map Function.name).Nodup := by decide +kernel

theorem eq_of_name_eq {f g : Function} (hf : f ∈ builtins) (hg : g ∈ builtins)
    (hname : f.name = g.name) : f = g :=
  List.inj_on_of_nodup_map builtins_names_nodup hf hg hname

theorem eq_sumIf_of_builtin {f : Function} (hf : f ∈ builtins) (hname : f.name = "SUMIF") :
    f = .ofOperands "SUMIF" .math 2 (some 3) Conditional.sumIf := by
  have hfind : Registry.find? builtins "SUMIF" =
      some (.ofOperands "SUMIF" .math 2 (some 3) Conditional.sumIf) := rfl
  exact eq_of_name_eq hf (Registry.mem_of_find? hfind) hname

section

variable {scope : Scope} {name : String} {f : Function} {args : List Expr}

theorem evaluate_call (hfind : scope.functions.find? name = some f) :
    evaluate scope (.call name args) = f.call scope.position (operands scope args) := by
  rw [evaluate, Scope.call, hfind]

theorem exists_operand {e : Expr} (he : e ∈ args) :
    ∃ o ∈ operands scope args, o.query = evaluate scope e := by
  apply List.mem_map.1
  rw [operands_query]
  exact List.mem_map_of_mem he

theorem exists_arg {o : Operand} (ho : o ∈ operands scope args) :
    ∃ e ∈ args, evaluate scope e = o.query := by
  apply List.mem_map.1
  rw [← operands_query]
  exact List.mem_map_of_mem ho

/-- A call of a built-in function with an argument that is an error is an error, unless the function
looks at errors or is `SUMIF`. It fails only where an argument cannot be read, and a function of
values gives the first of the errors among its arguments. `SUMIF` takes no error from an argument:
its call is a number, or `#NUM!` if that is too large. -/
theorem call_of_error (source : Source) (hf : f ∈ builtins)
    (hfind : scope.functions.find? name = some f) (hcategory : f.category ≠ .information)
    (hname : f.name ∉ ["IF", "IFERROR", "IFNA"]) (hcount : f.acceptsCount args.length = true)
    (ha : a ∈ args) (he : ((evaluate scope a).run source).1 = .ok (.error e)) :
    let outcome := ((evaluate scope (.call name args)).run source).1
    (f.name ≠ "SUMIF" →
      (∀ v, outcome = .ok v → ∃ e', v = .error e') ∧
      (∀ message, outcome = .error message →
        ∃ b ∈ args, ((evaluate scope b >>= Value.read).run source).1 = .error message) ∧
      (f.needsOperands = false → ∀ read,
        ((Function.readOperands f.category (operands scope args)).run source).1 = .ok read →
        ∃ first, read.findSome? (fun b => b.value.error?) = some first ∧
          outcome = .ok (.error first))) ∧
    (f.name = "SUMIF" → ∀ v, outcome = .ok v →
      (∃ x, v = .number x ∧ x.isFinite = true) ∨ v = .error .num) := by
  intro outcome
  have hcall : outcome = ((f.call scope.position (operands scope args)).run source).1 := by
    change ((evaluate scope (.call name args)).run source).1 = _
    rw [evaluate_call hfind]
  have hoperand : ∃ o ∈ operands scope args, o.query = evaluate scope a := exists_operand ha
  obtain ⟨o, ho, hquery⟩ := hoperand
  rw [← hquery] at he
  rw [← length_operands scope args] at hcount
  rw [hcall]
  constructor
  · intro hsum
    obtain ⟨hvalue, hfails⟩ :=
      passesErrors_of_builtin hf hcategory hname hsum source scope.position _ o e hcount ho he
    refine ⟨hvalue, ?_, ?_⟩
    · intro message hmessage
      obtain ⟨o', ho', hread⟩ := hfails message hmessage
      obtain ⟨b, hb, hquery'⟩ := exists_arg ho'
      rw [← hquery'] at hread
      exact ⟨b, hb, hread⟩
    · intro hneeds read hread
      obtain ⟨first, hfirst⟩ := Function.exists_error_of_readOperands ho he hread
      refine ⟨first, hfirst, ?_⟩
      cases hbody : f.body with
      | operands g =>
        rw [Function.needsOperands, hbody] at hneeds
        cases hneeds
      | values g =>
        have haccepts := acceptsErrors_of_builtin hf hbody hcategory hname
        exact Function.call_of_first_error hbody haccepts hcount hread hfirst scope.position
  · intro hsum v hv
    rw [eq_sumIf_of_builtin hf hsum] at hcount hv
    exact Conditional.call_sumIf rfl rfl hcount hv

/-- The error in a cell comes before the one that is written in the call. -/
theorem call_of_error_first :
    let scope : Scope := ⟨builtins, [], none⟩
    let source : Source := ⟨fun _ => .ok (.error .notAvailable), fun _ => .ok []⟩
    let args : List Expr := [.cell ⟨none, .relative 1 1⟩, .literal (.error .div0)]
    ((evaluate scope (.call "sum" args)).run source).1 = .ok (.error .notAvailable) := by
  intro scope source args
  let f : Function := .ofNumbers "SUM" .math 1 none Arithmetic.sum
  have hfind : scope.functions.find? "sum" = some f := rfl
  have hf : f ∈ builtins := Registry.mem_of_find? hfind
  have hcount : f.acceptsCount args.length = true := rfl
  have ha : .literal (.error .div0) ∈ args := List.mem_cons_of_mem _ List.mem_cons_self
  have he : ((evaluate scope (.literal (.error .div0))).run source).1 = .ok (.error .div0) := rfl
  obtain ⟨hpassed, -⟩ := call_of_error source hf hfind (by decide) (by decide) hcount ha he
  obtain ⟨-, -, hfirst⟩ := hpassed (by decide)
  obtain ⟨first, hfirst, houtcome⟩ := hfirst rfl _ rfl
  cases hfirst
  exact houtcome

/-- `SUMIF` passes over an error, also where the sibling of it that counts does not. -/
theorem not_error_sumIf :
    let scope : Scope := ⟨builtins, [], none⟩
    let args : List Expr := [.literal (.error .notAvailable), .literal (.number 1)]
    ((evaluate scope (.call "SUMIF" args)).run .zero).1 = .ok (.number 0) ∧
      ((evaluate scope (.call "COUNTIF" args)).run .zero).1 = .ok (.error .notAvailable) :=
  ⟨rfl, rfl⟩

end

end Spreadsheet
