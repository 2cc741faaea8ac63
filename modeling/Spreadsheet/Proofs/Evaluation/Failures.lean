import Spreadsheet.Engine
import Spreadsheet.Proofs.Evaluation.Asked
import Spreadsheet.Proofs.Outcome

/-!
How evaluation fails. Nothing but a request that the source of cells refuses ends an evaluation, and
the first one does, whatever functions stand around it. Errors that functions raise are values.
-/

namespace Spreadsheet

namespace Source

variable {source source' : Source}

/-- Why a request is refused, none if it is answered. -/
def refusal? (source : Source) : Reference → Option String
  | .cell ref =>
    match source.cell ref with
    | .ok _ => none
    | .error message => some message
  | .range ref =>
    match source.range ref with
    | .ok _ => none
    | .error message => some message
  | .union _ => none

/-- All requests are answered but the last, which is refused. -/
def RefusesLast (source : Source) (requests : List Reference) (message : String) : Prop :=
  ∃ before last, requests = before ++ [last] ∧ (∀ r ∈ before, source.refusal? r = none) ∧
    source.refusal? last = some message

/-- The sources answer or refuse the requests alike. -/
structure AgreesOn (source source' : Source) (requests : List Reference) : Prop where
  cell : ∀ ref, .cell ref ∈ requests → source'.cell ref = source.cell ref
  range : ∀ ref, .range ref ∈ requests → source'.range ref = source.range ref

theorem AgreesOn.tail (h : source.AgreesOn source' (r :: requests)) :
    source.AgreesOn source' requests :=
  ⟨fun ref hr => h.cell ref (List.mem_cons_of_mem _ hr),
    fun ref hr => h.range ref (List.mem_cons_of_mem _ hr)⟩

theorem RefusesLast.singleton (h : source.refusal? r = some message) :
    source.RefusesLast [r] message :=
  ⟨[], r, rfl, fun _ hr => absurd hr List.not_mem_nil, h⟩

theorem not_refusesLast_nil : ¬ source.RefusesLast [] message := by
  intro h
  obtain ⟨before, last, he, -⟩ := h
  exact absurd he.symm (List.append_ne_nil_of_right_ne_nil _ (List.cons_ne_nil _ _))

theorem refusesLast_singleton :
    source.RefusesLast [r] message ↔ source.refusal? r = some message := by
  constructor
  · intro h
    obtain ⟨before, last, he, -, hlast⟩ := h
    cases before with
    | nil =>
      cases he
      exact hlast
    | cons b before =>
      have hnil := (List.cons.inj he).2
      exact absurd hnil.symm (List.append_ne_nil_of_right_ne_nil _ (List.cons_ne_nil _ _))
  · exact .singleton

/-- A request that is answered leaves it to the others which is refused. -/
theorem refusesLast_cons (h : source.refusal? r = none) :
    source.RefusesLast (r :: requests) message ↔ source.RefusesLast requests message := by
  constructor
  · intro hr
    obtain ⟨before, last, he, hbefore, hlast⟩ := hr
    cases before with
    | nil =>
      cases he
      rw [h] at hlast
      cases hlast
    | cons b before =>
      exact ⟨before, last, (List.cons.inj he).2,
        fun r hr => hbefore r (List.mem_cons_of_mem _ hr), hlast⟩
  · intro hr
    obtain ⟨before, last, rfl, hbefore, hlast⟩ := hr
    exact ⟨r :: before, last, rfl, List.forall_mem_cons.2 ⟨h, hbefore⟩, hlast⟩

theorem RefusesLast.exists_mem (h : source.RefusesLast requests message) :
    ∃ r ∈ requests, source.refusal? r = some message := by
  obtain ⟨before, last, rfl, -, hlast⟩ := h
  exact ⟨last, List.mem_concat_self, hlast⟩

end Source

namespace Query

/-- The query makes a request first, and goes on as the source replies. -/
structure Asks (q : Query α) (r : Reference) (reply : Source → Except String (Query α)) : Prop where
  run : ∀ source, q.run source =
    match reply source with
    | .ok rest => rest.run source
    | .error message => (.error message, [])
  asked : ∀ source, q.asked source = r ::
    match reply source with
    | .ok rest => rest.asked source
    | .error _ => []
  refusal? : ∀ source, source.refusal? r =
    match reply source with
    | .ok _ => none
    | .error message => some message
  congr : ∀ source source' requests, source.AgreesOn source' requests → r ∈ requests →
    reply source' = reply source

theorem asks_cell (ref : CellRef) (next : Value → Query α) :
    (cell ref next).Asks (.cell ref) fun source => (source.cell ref).map next := by
  constructor
  · intro source
    rw [Query.run]
    cases source.cell ref <;> rfl
  · intro source
    rw [Query.asked]
    cases source.cell ref <;> rfl
  · intro source
    rw [Source.refusal?]
    cases source.cell ref <;> rfl
  · intro source source' requests h hr
    rw [h.cell ref hr]

theorem asks_range (ref : RangeRef) (next : List (List Value) → Query α) :
    (range ref next).Asks (.range ref) fun source =>
      (source.range ref).map fun rows => next (padRows rows) := by
  constructor
  · intro source
    rw [Query.run]
    cases source.range ref <;> rfl
  · intro source
    rw [Query.asked]
    cases source.range ref <;> rfl
  · intro source
    rw [Source.refusal?]
    cases source.range ref <;> rfl
  · intro source source' requests h hr
    rw [h.range ref hr]

/-- Induction over queries that treats both kinds of requests alike. -/
theorem asks_induction {motive : Query α → Prop} (done : ∀ a, motive (.done a))
    (asks : ∀ q r reply, q.Asks r reply →
      (∀ source rest, reply source = .ok rest → motive rest) → motive q)
    (unknown : ∀ function next, motive next → motive (.unknown function next)) :
    ∀ q, motive q := by
  intro q
  induction q with
  | done a => exact done a
  | cell ref next ih =>
    apply asks _ _ _ (asks_cell ref next)
    intro source rest h
    obtain ⟨v, -, rfl⟩ := map_eq_ok.1 h
    exact ih v
  | range ref next ih =>
    apply asks _ _ _ (asks_range ref next)
    intro source rest h
    obtain ⟨rows, -, rfl⟩ := map_eq_ok.1 h
    exact ih (padRows rows)
  | unknown function next ih => exact unknown function next ih

variable {source source' : Source}

/-- A query fails with just what the source says to the first request that it refuses, and makes no
request after that. -/
theorem run_eq_error_iff (q : Query α) :
    (q.run source).1 = .error message ↔ source.RefusesLast (q.asked source) message := by
  induction q using asks_induction with
  | done a =>
    constructor
    · intro h
      cases h
    · intro h
      exact absurd h Source.not_refusesLast_nil
  | asks q r reply hq ih =>
    have hr := hq.refusal? source
    rw [hq.run, hq.asked]
    cases hreply : reply source with
    | ok rest =>
      rw [hreply] at hr
      rw [Source.refusesLast_cons hr]
      exact ih source rest hreply
    | error reason =>
      rw [hreply] at hr
      rw [Source.refusesLast_singleton, hr, Except.error.injEq, Option.some.injEq]
  | unknown function next ih => exact ih

/-- The requests are all that a run depends on. -/
theorem run_congr {q : Query α} (h : source.AgreesOn source' (q.asked source)) :
    q.run source' = q.run source ∧ q.asked source' = q.asked source := by
  induction q using asks_induction with
  | done a => exact ⟨rfl, rfl⟩
  | asks q r reply hq ih =>
    rw [hq.asked] at h
    have hreply' := hq.congr source source' _ h (List.mem_cons_self ..)
    have htail := h.tail
    rw [hq.run, hq.run, hq.asked, hq.asked, hreply']
    cases hreply : reply source with
    | ok rest =>
      rw [hreply] at htail
      obtain ⟨hrun, hasked⟩ := ih source rest hreply htail
      exact ⟨hrun, congrArg (r :: ·) hasked⟩
    | error reason => exact ⟨rfl, rfl⟩
  | unknown function next ih =>
    obtain ⟨hrun, hasked⟩ := ih h
    simp only [run, hrun]
    exact ⟨trivial, hasked⟩

/-- Every request is made: a source that refuses it and answers those before ends the run there. -/
theorem run_of_refusal {q : Query α} (hq : q.asked source = before ++ r :: after)
    (h : source.AgreesOn source' before) (hr : source'.refusal? r = some message) :
    (q.run source').1 = .error message ∧ q.asked source' = before ++ [r] := by
  induction q using asks_induction generalizing before with
  | done a => exact absurd hq.symm (List.append_ne_nil_of_right_ne_nil _ (List.cons_ne_nil _ _))
  | asks q r' reply hasks ih =>
    rw [hasks.asked] at hq
    rw [hasks.run, hasks.asked]
    cases before with
    | nil =>
      obtain ⟨rfl, -⟩ := List.cons.inj hq
      rw [hasks.refusal?] at hr
      cases hreply : reply source' with
      | ok rest =>
        rw [hreply] at hr
        cases hr
      | error reason =>
        rw [hreply] at hr
        cases hr
        exact ⟨rfl, rfl⟩
    | cons b before =>
      obtain ⟨rfl, hrest⟩ := List.cons.inj hq
      rw [hasks.congr source source' _ h (List.mem_cons_self ..)]
      cases hreply : reply source with
      | ok rest =>
        rw [hreply] at hrest
        obtain ⟨hrun, hasked⟩ := ih source rest hreply hrest h.tail
        exact ⟨hrun, congrArg (r' :: ·) hasked⟩
      | error reason =>
        rw [hreply] at hrest
        exact absurd hrest.symm (List.append_ne_nil_of_right_ne_nil _ (List.cons_ne_nil _ _))
  | unknown function next ih => exact ih hq h

theorem run_bind (q : Query α) (f : α → Query β) :
    (q >>= f).run source =
      match (q.run source).1 with
      | .ok a => (((f a).run source).1, (q.run source).2 ++ ((f a).run source).2)
      | .error message => (.error message, (q.run source).2) := by
  induction q with
  | done a => rfl
  | cell ref next ih =>
    change (cell ref fun v => next v >>= f).run source = _
    rw [run, run]
    cases source.cell ref with
    | ok v => exact ih v
    | error message => rfl
  | range ref next ih =>
    change (range ref fun rows => next rows >>= f).run source = _
    rw [run, run]
    cases source.range ref with
    | ok rows => exact ih (padRows rows)
    | error message => rfl
  | unknown function next ih =>
    change (unknown function (next >>= f)).run source = _
    rw [run, run, ih]
    cases (next.run source).1 <;> rfl

theorem run_map (f : α → β) (q : Query α) :
    (f <$> q).run source = ((q.run source).1.map f, (q.run source).2) := by
  change (q >>= fun a => .done (f a)).run source = _
  rw [run_bind]
  cases (q.run source).1 with
  | ok a =>
    dsimp only [run]
    rw [List.append_nil]
    rfl
  | error message => rfl

theorem map_bind (f : β → γ) (q : Query α) (g : α → Query β) :
    f <$> (q >>= g) = q >>= fun a => f <$> g a := by
  induction q with
  | done a => rfl
  | cell ref next ih => exact congrArg (cell ref) (funext ih)
  | range ref next ih => exact congrArg (range ref) (funext ih)
  | unknown function next ih => exact congrArg (unknown function) ih

end Query

namespace Function

/-- What a function computes from its operands, a spreadsheet error that it raises or that ends its
call still told from a value. -/
def outcome (f : Function) (position : Option Position) (operands : List Operand) :
    Query (Result Value) :=
  match f.body with
  | .operands g => g position operands
  | .values g => do
    let args ← readOperands f.category operands
    return match f.blockingError? args with
      | some e => .error e
      | none => g position args

theorem call_eq_outcome {f : Function} {operands : List Operand}
    (h : f.acceptsCount operands.length = true) (position : Option Position) :
    f.call position operands = (fun x => close (.ofResult x)) <$> f.outcome position operands := by
  unfold Function.call outcome
  rw [if_pos h]
  cases f.body with
  | operands g => rfl
  | values g =>
    rw [Query.map_bind]
    refine congrArg (readOperands f.category operands >>= ·) (funext fun args => ?_)
    show Query.done (close (f.onArguments (g position) args)) = _
    unfold onArguments
    cases f.blockingError? args with
    | none => rfl
    | some e => rfl

end Function

theorem length_operands (scope : Scope) (args : List Expr) :
    (operands scope args).length = args.length := by
  induction args with
  | nil => rfl
  | cons e rest ih => cases e <;> exact congrArg (· + 1) ih

theorem Source.AgreesOn.refl (source : Source) (requests : List Reference) :
    source.AgreesOn source requests :=
  ⟨fun _ _ => rfl, fun _ _ => rfl⟩

end Spreadsheet
