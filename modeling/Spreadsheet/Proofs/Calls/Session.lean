import Spreadsheet.Proofs.Calls.Formula
import Spreadsheet.Proofs.Evaluation.Arrays

/-!
Sessions with an engine. An engine remembers the values of names and the unknown functions that were
called, and nothing else: an answer is that of a new engine with the same names, and the log can be
told from the requests.
-/

namespace Spreadsheet

/-! ### Requests -/

namespace Engine

/-- What a user asks of an engine. -/
inductive Request
  | calculate (text : String) (position : Option Position)
  | compile (text : String)
  | evaluate (e : Expr) (position : Option Position)
  | references (text : String)
  | setName (name : String) (v : Value)
  | clearLog

namespace Request

/-- The formula that is evaluated for a request, and where. -/
def formula? : Request → Option (Expr × Option Position)
  | calculate text position => (read text).toOption.map fun e => (e, position)
  | evaluate e position => some (e, position)
  | _ => none

/-- Requests that ask nothing of an engine itself: those that only read a text, and those that fail
to read one. -/
def Idle : Request → Prop
  | calculate text _ => ∃ failure, read text = .error failure
  | compile _ | references _ => True
  | evaluate _ _ | setName _ _ | clearLog => False

end Request

inductive Answer
  | value (result : Except EngineFailure Value)
  | formula (result : Except EngineFailure Expr)
  | listed (result : Except EngineFailure (List Reference))
  | done

/-- The answer to a request, and the engine after it. -/
def answer (engine : Engine) : Request → Answer × Engine
  | .calculate text position =>
    let (result, next) := engine.calculate text position
    (.value result, next)
  | .compile text => (.formula (read text), engine)
  | .evaluate e position =>
    let (result, next) := engine.evaluate e position
    (.value result, next)
  | .references text => (.listed (references text), engine)
  | .setName name v => (.done, engine.setName name v)
  | .clearLog => (.done, engine.clearLog)

/-- The engine after some requests. -/
def after (engine : Engine) (requests : List Request) : Engine :=
  requests.foldl (fun engine request => (engine.answer request).2) engine

/-- The values that requests give to names, in order. -/
def assigned (requests : List Request) : List (String × Value) :=
  requests.filterMap fun
    | .setName name v => some (name, v)
    | _ => none

/-- The unknown functions that a request to the engine notes. -/
def noted (engine : Engine) (request : Request) : List String :=
  match request.formula? with
  | some (e, position) => (formulaResult (engine.scope position) e).noted engine.source
  | none => []

/-- The unknown functions that the formula of a request calls, told along the formula. -/
def calls (engine : Engine) (request : Request) : List String :=
  match request.formula? with
  | some (e, position) => e.calls (engine.scope position) engine.source
  | none => []

end Engine

/-- The value that a name was given last, whatever the case of its letters. -/
def lastValue? (assignments : List (String × Value)) (name : String) : Option Value :=
  (assignments.filter fun a => upperName a.1 == upperName name).getLast?.map Prod.snd

section

variable (source : Source) (names : List (String × Value)) (functions : List Function)

/-- The unknown functions that were called since the log was cleared, in order. The latest request
stands first, and each calls what it calls of a new engine with the values that names were given
before. -/
def calledSinceClear (called : Engine → Engine.Request → List String) :
    List Engine.Request → List String
  | [] => []
  | .clearLog :: _ => []
  | request :: earlier =>
    calledSinceClear called earlier ++
      called (.new source (names ++ Engine.assigned earlier.reverse) functions) request

end

/-! ### Names -/

theorem Names.find?_set (ns : Names) (n : String) (v : Value) (name : String) :
    (ns.set n v).find? name = if upperName n == upperName name then some v else ns.find? name := by
  rw [find?, set, List.lookup_cons, BEq.comm]
  cases upperName n == upperName name <;> rfl

theorem lastValue?_concat (assignments : List (String × Value)) (n : String) (v : Value)
    (name : String) : lastValue? (assignments ++ [(n, v)]) name =
      if upperName n == upperName name then some v else lastValue? assignments name := by
  rw [lastValue?, lastValue?, List.filter_append, List.filter_singleton]
  cases upperName n == upperName name with
  | true => rw [cond_true, List.getLast?_concat, if_pos rfl, Option.map_some]
  | false => rw [cond_false, List.append_nil, if_neg Bool.false_ne_true]

theorem Engine.find?_new (source : Source) (assignments : List (String × Value))
    (functions : List Function) (name : String) :
    (Engine.new source assignments functions).names.find? name = lastValue? assignments name := by
  induction assignments using List.reverseRecOn with
  | nil => rfl
  | append_singleton assignments last ih =>
    rw [new, List.foldl_concat, Names.find?_set, lastValue?_concat, ← ih]
    rfl

/-! ### Scopes -/

/-- In both scopes everything means the same. -/
structure Scope.Alike (scope scope' : Scope) : Prop where
  functions : scope.functions = scope'.functions
  names : ∀ name, scope.names.find? name = scope'.names.find? name
  position : scope.position = scope'.position

section

variable {scope scope' : Scope}

theorem Scope.Alike.call (h : scope.Alike scope') : scope.call = scope'.call := by
  funext name operands
  rw [Scope.call, Scope.call, h.functions, h.position]

mutual

theorem evaluate_congr (h : scope.Alike scope') : (e : Expr) → evaluate scope e = evaluate scope' e
  | .literal _ => rfl
  | .array _ => rfl
  | .cell _ => rfl
  | .range _ => rfl
  | .omitted => rfl
  | .union parts => by rw [evaluate, evaluate, unionParts_congr h parts]
  | .name name => by rw [evaluate, evaluate, h.names]
  | .sign op operand => by rw [evaluate, evaluate, evaluate_congr h operand]
  | .percent operand => by rw [evaluate, evaluate, evaluate_congr h operand]
  | .binary (.value op) left right => by
    rw [evaluate, evaluate, evaluate_congr h left, evaluate_congr h right]
  | .binary (.reference op) left right => by
    rw [evaluate, evaluate, evaluate_congr h left, evaluate_congr h right]
  | .call name args => by rw [evaluate, evaluate, operands_congr h args, h.call]

theorem operands_congr (h : scope.Alike scope') :
    (args : List Expr) → operands scope args = operands scope' args
  | [] => rfl
  | e :: rest => by
    have hrest := operands_congr h rest
    by_cases he : e = .omitted
    · subst he
      exact congrArg (_ :: ·) hrest
    · rw [operands, operands, evaluate_congr h e, hrest] <;> exact he

theorem unionParts_congr (h : scope.Alike scope') :
    (parts : List Expr) → unionParts scope parts = unionParts scope' parts
  | [] => rfl
  | e :: rest => by rw [unionParts, unionParts, evaluate_congr h e, unionParts_congr h rest]

end

theorem formulaResult_congr (h : scope.Alike scope') :
    formulaResult scope = formulaResult scope' := by
  funext e
  rw [formulaResult, formulaResult, evaluate_congr h]

end

/-! ### The log -/

theorem eraseDups_concat (names : List String) (name : String) :
    (names ++ [name]).eraseDups =
      if names.eraseDups.contains name then names.eraseDups else names.eraseDups ++ [name] := by
  rw [List.eraseDups_append]
  by_cases h : name ∈ names
  · simp [List.removeAll, h]
  · simp [List.removeAll, h, List.eraseDups_cons]

theorem addNew_eraseDups (called names : List String) :
    addNew called.eraseDups names = (called ++ names).eraseDups := by
  induction names using List.reverseRecOn with
  | nil => exact congrArg List.eraseDups (List.append_nil called).symm
  | append_singleton names name ih =>
    rw [addNew, List.foldl_concat, ← addNew, ih, ← List.append_assoc, eraseDups_concat]

namespace Engine

theorem noted_eq_calls {engine : Engine} (hf : ∀ f ∈ engine.functions, f.Transparent) :
    engine.noted = engine.calls := by
  funext request
  rw [noted, calls]
  cases request.formula? with
  | none => rfl
  | some formula => exact noted_formulaResult hf formula.1

/-- What becomes of an engine with a request. Those that evaluate nothing note nothing. -/
theorem answer_snd (engine : Engine) (request : Request) :
    (engine.answer request).2 =
      match request with
      | .setName name v => engine.setName name v
      | .clearLog => engine.clearLog
      | request => { engine with log := addNew engine.log (engine.noted request) } := by
  cases request with
  | calculate text position =>
    dsimp only [answer, calculate, noted, Request.formula?]
    cases read text <;> rfl
  | _ => rfl

theorem answer_idle (engine : Engine) {request : Request} (h : request.Idle) :
    (engine.answer request).2 = engine := by
  cases request with
  | calculate text position =>
    obtain ⟨failure, hfailure⟩ := h
    rw [answer, calculate, hfailure]
  | compile text => rfl
  | references text => rfl
  | evaluate e position => exact h.elim
  | setName name v => exact h.elim
  | clearLog => exact h.elim

/-- An answer depends on what the parts of a formula mean, and not on the log. -/
theorem answer_congr {engine engine' : Engine} (hsource : engine.source = engine'.source)
    (h : ∀ position, (engine.scope position).Alike (engine'.scope position)) (request : Request) :
    (engine.answer request).1 = (engine'.answer request).1 := by
  have hevaluate (e : Expr) (position : Option Position) :
      (engine.evaluate e position).1 = (engine'.evaluate e position).1 := by
    rw [evaluate, evaluate, formulaResult_congr (h position), hsource]
  cases request with
  | calculate text position =>
    rw [answer, answer, calculate, calculate]
    cases read text with
    | ok e => exact congrArg Answer.value (hevaluate e position)
    | error failure => rfl
  | evaluate e position => exact congrArg Answer.value (hevaluate e position)
  | _ => rfl

theorem noted_congr {engine engine' : Engine} (hsource : engine.source = engine'.source)
    (h : ∀ position, (engine.scope position).Alike (engine'.scope position)) :
    engine.noted = engine'.noted := by
  funext request
  rw [noted, noted, hsource]
  cases request.formula? with
  | none => rfl
  | some formula => exact congrArg (Query.noted _) (congrFun (formulaResult_congr (h _)) formula.1)

/-! ### Sessions -/

section

variable (source : Source) (names : List (String × Value)) (functions : List Function)

/-- The engine is what requests make of a new one. -/
structure Follows (requests : List Request) (engine : Engine) : Prop where
  log : engine.log = (calledSinceClear source names functions noted requests.reverse).eraseDups
  names : ∀ name, engine.names.find? name = lastValue? (names ++ assigned requests) name
  functions : engine.functions = functions.foldl Registry.register builtins
  source : engine.source = source

variable {source names functions} {requests : List Request} {engine : Engine}

theorem Follows.alike (h : Follows source names functions requests engine)
    {bindings : List (String × Value)}
    (hbindings : ∀ name, lastValue? bindings name = lastValue? (names ++ assigned requests) name)
    (position : Option Position) :
    (engine.scope position).Alike ((new source bindings functions).scope position) where
  functions := h.functions
  names name := by
    refine (h.names name).trans ((hbindings name).symm.trans ?_)
    exact (find?_new source bindings functions name).symm
  position := rfl

theorem assigned_concat (requests : List Request) (request : Request) :
    assigned (requests ++ [request]) = assigned requests ++ assigned [request] :=
  List.filterMap_append

theorem Follows.logged (h : Follows source names functions requests engine) {request : Request}
    (hassigned : assigned [request] = [])
    (hcalled : calledSinceClear source names functions noted (request :: requests.reverse) =
      calledSinceClear source names functions noted requests.reverse ++
        (new source (names ++ assigned requests.reverse.reverse) functions).noted request) :
    Follows source names functions (requests ++ [request])
      { engine with log := addNew engine.log (engine.noted request) } := by
  refine ⟨?_, fun name => ?_, h.functions, h.source⟩
  · rw [List.reverse_concat, hcalled, List.reverse_reverse, h.log, addNew_eraseDups,
      noted_congr h.source (h.alike fun name => rfl)]
  · rw [assigned_concat, hassigned, List.append_nil]
    exact h.names name

theorem Follows.answer (h : Follows source names functions requests engine) (request : Request) :
    Follows source names functions (requests ++ [request]) (engine.answer request).2 := by
  rw [answer_snd]
  cases request with
  | setName name v =>
    refine ⟨?_, fun name' => ?_, h.functions, h.source⟩
    · rw [List.reverse_concat]
      exact h.log.trans (congrArg List.eraseDups (List.append_nil _).symm)
    · rw [assigned_concat, ← List.append_assoc]
      refine (Names.find?_set _ _ _ _).trans ?_
      rw [h.names]
      exact (lastValue?_concat _ _ _ _).symm
  | clearLog =>
    refine ⟨?_, fun name => ?_, h.functions, h.source⟩
    · rw [List.reverse_concat]
      rfl
    · rw [assigned_concat, ← List.append_assoc]
      exact (h.names name).trans (congrArg (lastValue? · name) (List.append_nil _).symm)
  | _ => exact h.logged rfl rfl

theorem follows_after (requests : List Request) :
    Follows source names functions requests ((new source names functions).after requests) := by
  induction requests using List.reverseRecOn with
  | nil =>
    refine ⟨rfl, fun name => ?_, rfl, rfl⟩
    rw [assigned, List.filterMap_nil, List.append_nil]
    exact find?_new source names functions name
  | append_singleton requests request ih =>
    rw [after, List.foldl_concat]
    exact ih.answer request

end

theorem calledSinceClear_noted {functions : List Function} (hf : ∀ f ∈ functions, f.Transparent)
    (source : Source) (names : List (String × Value)) (latestFirst : List Request) :
    calledSinceClear source names functions noted latestFirst =
      calledSinceClear source names functions calls latestFirst := by
  have hcalls (bindings : List (String × Value)) :
      (new source bindings functions).noted = (new source bindings functions).calls := by
    apply noted_eq_calls
    intro f h
    exact (Registry.mem_foldl_register h).elim (builtins_transparent f) (hf f)
  induction latestFirst with
  | nil => rfl
  | cons request earlier ih =>
    cases request with
    | clearLog => rfl
    | _ => exact congrArg₂ (· ++ ·) ih (congrFun (hcalls _) _)

/-- Sessions have no hidden state. After any requests an engine answers as a new engine does, if
each name has there the value that it was given last; its log holds the unknown functions that were
called since the log was cleared, in the order of their first calls, each once; and requests that
only read a text, or fail to read one, leave the engine as it is. -/
theorem after_new (source : Source) (names : List (String × Value)) (functions : List Function)
    (requests : List Request) :
    let engine := (new source names functions).after requests
    (∀ bindings : List (String × Value),
      (∀ name, lastValue? bindings name = lastValue? (names ++ assigned requests) name) →
      ∀ request, (engine.answer request).1 = ((new source bindings functions).answer request).1) ∧
    engine.log = (calledSinceClear source names functions noted requests.reverse).eraseDups ∧
    ((∀ f ∈ functions, f.Transparent) →
      engine.log = (calledSinceClear source names functions calls requests.reverse).eraseDups) ∧
    ∀ request : Request, request.Idle → (engine.answer request).2 = engine := by
  have h : Follows source names functions requests ((new source names functions).after requests) :=
    follows_after requests
  refine ⟨fun bindings hbindings => ?_, h.log, fun hf => ?_, fun request => answer_idle _⟩
  · exact answer_congr h.source (h.alike hbindings)
  · rw [h.log, calledSinceClear_noted hf]

/-- A session with a cell that cannot be read, a function that returns its argument, and a name that
is given another value. -/
theorem after_new_rate :
    let source : Source :=
      ⟨fun ref => if ref.address.col = 1 then .error "locked" else .ok (.number 0),
        fun _ => .ok [[.number 0]]⟩
    let names : List (String × Value) := [("rate", .number 2)]
    let functions := [Function.ofValues "SAME" .custom 1 none fun args => valueAt args 0]
    let requests : List Request := [
      .calculate "=OLD()" none,
      .clearLog,
      .setName "Rate" (.number 3),
      .calculate "=foo(bar())+SUM(" none,
      .calculate "=foo(bar())+same(baz())" none,
      .calculate "=qux()+same(foo())+A1+late()" none,
      .references "=never()"]
    let engine := (new source names functions).after requests
    engine.log = ["FOO", "BAZ", "QUX"] ∧
    (engine.answer (.calculate "=RATE*2" none)).1 =
      ((new source [("RATE", .number 3)] functions).answer (.calculate "=RATE*2" none)).1 ∧
    (engine.answer (.calculate "=never()+" none)).2 = engine := by
  intro source names functions requests engine
  have hfunctions : ∀ f ∈ functions, f.Transparent := by
    intro f hf
    rw [List.mem_singleton.1 hf]
    exact Function.transparent_of_values rfl
  have hupper : upperName "rate" = upperName "RATE" ∧ upperName "Rate" = upperName "RATE" := by
    decide +kernel
  have hnames (name : String) :
      lastValue? [("RATE", .number 3)] name = lastValue? (names ++ assigned requests) name := by
    have hvalues : names ++ assigned requests =
        [] ++ [("rate", .number 2)] ++ [("Rate", .number 3)] := rfl
    rw [hvalues, lastValue?_concat, lastValue?_concat, hupper.1, hupper.2]
    refine (lastValue?_concat [] "RATE" (.number 3) name).trans ?_
    split <;> rfl
  have hsyntax : (read "=never()+").isOk = false := by decide +kernel
  obtain ⟨hanswer, -, hlog, hidle⟩ := after_new source names functions requests
  refine ⟨(hlog hfunctions).trans (by decide +kernel), hanswer _ hnames _, hidle _ ?_⟩
  cases hread : read "=never()+" with
  | ok e =>
    rw [hread] at hsyntax
    exact nomatch hsyntax
  | error failure => exact ⟨failure, hread⟩

end Engine

end Spreadsheet
