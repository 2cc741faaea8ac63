import Spreadsheet.Proofs.Evaluation.Bare

/-!
Which operands a call evaluates. A call with operands that note their places, and nothing else,
tells which of them it evaluates, and in what order. What a call notes is then what those operands
note.
-/

namespace Spreadsheet

/-- The unknown functions that are noted up to the end of the query. -/
def Query.noted (source : Source) (q : Query α) : List String := (q.run source).2

/-- The query without what it notes. -/
def Query.silent : Query α → Query α
  | done a => done a
  | cell ref next => cell ref fun v => (next v).silent
  | range ref next => range ref fun rows => (next rows).silent
  | unknown _ next => next.silent

/-- The mark of a place among the operands, as long as the place is far. -/
def mark (i : Nat) : String := String.ofList (List.replicate i '|')

/-- The operand that notes a mark when it is evaluated, and nothing else. -/
def Operand.marked (i : Nat) : Operand → Operand
  | omitted => omitted
  | given q => given (.unknown (mark i) q.silent)

namespace Function

/-- The places of the operands that a call evaluates, in order. -/
def evaluated (f : Function) (source : Source) (position : Option Position)
    (operands : List Operand) : List Nat :=
  ((f.call position (operands.mapIdx Operand.marked)).noted source).map String.length

/-- Calls of the function note what the operands note that they evaluate, and nothing else. -/
def Transparent (f : Function) : Prop :=
  ∀ (source : Source) (position : Option Position) (operands : List Operand),
    (f.call position operands).noted source =
      (f.evaluated source position operands).flatMap
        ((operands.map fun o => o.query.noted source).getD · [])

end Function

/-! ### Queries that note more -/

/-- The second query does what the first does, and notes a list of names for each that the first
notes. -/
def Query.Expands (source : Source) (names : String → List String) (q q' : Query α) : Prop :=
  (q'.run source).1 = (q.run source).1 ∧ q'.noted source = (q.noted source).flatMap names

section

variable {source : Source} {names : String → List String}

namespace Query

theorem noted_bind (q : Query α) (f : α → Query β) :
    (q >>= f).noted source = q.noted source ++
      match (q.run source).1 with
      | .ok a => (f a).noted source
      | .error _ => [] := by
  rw [noted, run_bind]
  cases (q.run source).1 with
  | ok a => rfl
  | error message => exact (List.append_nil _).symm

theorem noted_bind_const {q : Query α} {f : α → Query β} {later : List String}
    (hf : ∀ a, (f a).noted source = later) :
    (q >>= f).noted source =
      q.noted source ++ if (q.run source).1.isOk then later else [] := by
  rw [noted_bind]
  cases (q.run source).1 with
  | ok a => exact congrArg (_ ++ ·) (hf a)
  | error message => rfl

/-- What comes after the query notes nothing. -/
theorem noted_bind_silent {q : Query α} {f : α → Query β} (hf : ∀ a, (f a).noted source = []) :
    (q >>= f).noted source = q.noted source := by
  rw [noted_bind_const hf, ite_self, List.append_nil]

theorem noted_bind_eq_nil {q : Query α} {f : α → Query β} (h : q.noted source = [])
    (hf : ∀ a, (f a).noted source = []) : (q >>= f).noted source = [] :=
  (noted_bind_silent hf).trans h

theorem Expands.of_noted_eq_nil {q : Query α} (h : q.noted source = []) :
    q.Expands source names q := by
  refine ⟨rfl, ?_⟩
  rw [h]
  rfl

theorem Expands.bind {q q' : Query α} {f f' : α → Query β} (h : q.Expands source names q')
    (hf : ∀ a, (f a).Expands source names (f' a)) :
    (q >>= f).Expands source names (q' >>= f') := by
  obtain ⟨hresult, hnoted⟩ := h
  constructor
  · rw [run_bind_fst, run_bind_fst, hresult]
    exact congrArg ((q.run source).1 >>= ·) (funext fun a => (hf a).1)
  · rw [noted_bind, noted_bind, hresult, hnoted, List.flatMap_append]
    cases (q.run source).1 with
    | ok a => exact congrArg (_ ++ ·) (hf a).2
    | error message => rfl

theorem silent_run (q : Query α) : q.silent.run source = ((q.run source).1, []) := by
  induction q with
  | done a => rfl
  | cell ref next ih =>
    rw [silent, run, run]
    cases source.cell ref with
    | ok v => exact ih v
    | error message => rfl
  | range ref next ih =>
    rw [silent, run, run]
    cases source.range ref with
    | ok rows => exact ih (padRows rows)
    | error message => rfl
  | unknown function next ih => exact ih

end Query

theorem Query.marked_run (i : Nat) (q : Query α) :
    (unknown (mark i) q.silent).run source = ((q.run source).1, [mark i]) := by
  rw [run, q.silent_run]

/-! ### Reading -/

theorem Query.noted_readCell (ref : CellRef) : (readCell ref).noted source = [] := by
  rw [readCell, noted, run]
  cases source.cell ref <;> rfl

theorem Query.noted_readRange (ref : RangeRef) : (readRange ref).noted source = [] := by
  rw [readRange, noted, run]
  cases source.range ref <;> rfl

theorem Query.noted_map (f : α → β) (q : Query α) : (f <$> q).noted source = q.noted source := by
  rw [noted, run_map]
  rfl

mutual

theorem Reference.noted_read : (r : Reference) → r.read.noted source = []
  | .cell ref => Query.noted_readCell ref
  | .range ref => (Query.noted_map _ _).trans (Query.noted_readRange ref)
  | .union parts => Query.noted_bind_eq_nil (noted_readParts parts) fun _ => rfl

theorem noted_readParts : (parts : List Reference) → (readParts parts).noted source = []
  | [] => rfl
  | r :: rest => by
    apply Query.noted_bind_eq_nil r.noted_read
    exact fun v => Query.noted_bind_eq_nil (noted_readParts rest) fun _ => rfl

end

theorem Value.noted_read (v : Value) : v.read.noted source = [] := by
  cases v with
  | reference r => exact r.noted_read
  | _ => rfl

theorem Value.noted_readResult (v : Value) : v.readResult.noted source = [] := by
  cases v with
  | reference r =>
    cases r with
    | cell ref => exact Query.noted_readCell ref
    | union parts => rfl
    | range ref =>
      rw [readResult]
      split
      · exact Query.noted_bind_eq_nil (Query.noted_readRange ref) fun _ => rfl
      · rfl
  | _ => rfl

/-! ### Calls -/

/-- Both slots are empty, or the second operand notes more than the first. -/
inductive Operand.Expands (source : Source) (names : String → List String) :
    Operand → Operand → Prop
  | omitted : Expands source names .omitted .omitted
  | given (h : Query.Expands source names q q') : Expands source names (.given q) (.given q')

variable {os os' : List Operand}

theorem Operand.Expands.query {o o' : Operand} (h : o.Expands source names o') :
    o.query.Expands source names o'.query := by
  cases h with
  | omitted => exact ⟨rfl, rfl⟩
  | given h => exact h

/-- What is read for a value notes nothing. -/
theorem Operand.noted_ofValue (c : Category) (v : Value) :
    (match v with
      | .reference r => Argument.ofRead c r <$> r.read
      | v => .done (.ofValue v) : Query Argument).noted source = [] := by
  cases v with
  | reference r => exact (Query.noted_map _ _).trans r.noted_read
  | _ => rfl

theorem Operand.Expands.argument {o o' : Operand} (h : o.Expands source names o') (c : Category) :
    (o.argument c).Expands source names (o'.argument c) := by
  cases h with
  | omitted => exact ⟨rfl, rfl⟩
  | given h =>
    apply h.bind
    exact fun v => Query.Expands.of_noted_eq_nil (Operand.noted_ofValue c v)

namespace Function

theorem readOperands_expands (c : Category)
    (h : List.Forall₂ (Operand.Expands source names) os os') :
    (readOperands c os).Expands source names (readOperands c os') := by
  induction h with
  | nil => exact ⟨rfl, rfl⟩
  | cons ho _ ih =>
    rw [readOperands_cons, readOperands_cons]
    apply (ho.argument c).bind
    exact fun a => ih.bind fun args => ⟨rfl, rfl⟩

/-- Calls note more where their operands do, and else do the same. -/
def Uniform (f : Function) : Prop :=
  ∀ (source : Source) (names : String → List String) (position : Option Position)
    (os os' : List Operand), List.Forall₂ (Operand.Expands source names) os os' →
    (f.call position os).Expands source names (f.call position os')

theorem uniform_of_values {f : Function} {g : Option Position → List Argument → Result Value}
    (hbody : f.body = .values g) : f.Uniform := by
  intro source names position os os' h
  rw [call, call, h.length_eq, hbody]
  split
  · exact (readOperands_expands f.category h).bind fun args => ⟨rfl, rfl⟩
  · exact ⟨rfl, rfl⟩

theorem uniform_of_operands {f : Function}
    {g : Option Position → List Operand → Query (Result Value)} (hbody : f.body = .operands g)
    (hg : ∀ (source : Source) (names : String → List String) (position : Option Position)
      (os os' : List Operand), List.Forall₂ (Operand.Expands source names) os os' →
      (g position os).Expands source names (g position os')) : f.Uniform := by
  intro source names position os os' h
  rw [call, call, h.length_eq, hbody]
  split
  · exact (hg source names position os os' h).bind fun x => ⟨rfl, rfl⟩
  · exact ⟨rfl, rfl⟩

theorem length_mark (i : Nat) : (mark i).length = i := by
  rw [mark, String.length_ofList, List.length_replicate]

theorem Uniform.transparent {f : Function} (h : f.Uniform) : f.Transparent := by
  intro source position operands
  let names (name : String) : List String :=
    (operands.map fun o => o.query.noted source).getD name.length []
  have hmarked : List.Forall₂ (Operand.Expands source names) (operands.mapIdx Operand.marked)
      operands := by
    refine List.forall₂_iff_get.2 ⟨List.length_mapIdx, fun i _ hi => ?_⟩
    rw [List.get_eq_getElem, List.get_eq_getElem, List.getElem_mapIdx]
    have hnames : names (mark i) = operands[i].query.noted source := by
      simp only [names, length_mark, List.getD_eq_getElem?_getD, List.getElem?_map,
        List.getElem?_eq_getElem hi, Option.map_some, Option.getD_some]
    cases ho : operands[i] with
    | omitted => exact .omitted
    | given q =>
      rw [ho] at hnames
      refine .given ⟨?_, ?_⟩
      · rw [q.marked_run]
      · rw [Query.noted, Query.noted, q.marked_run, List.flatMap_singleton, hnames]
        rfl
  rw [evaluated, List.flatMap_map]
  exact (h source names position _ _ hmarked).2

end Function

/-! ### Built-in functions -/

theorem Lookup.single?_expands (h : List.Forall₂ (Operand.Expands source names) os os') :
    (single? os).Expands source names (single? os') := by
  cases h with
  | nil => exact ⟨rfl, rfl⟩
  | cons ho _ =>
    cases ho with
    | omitted => exact ⟨rfl, rfl⟩
    | given h => exact h.bind fun v => ⟨rfl, rfl⟩

theorem Function.uniform_of_single {f : Function}
    {F : Option Position → Option Value → Result Value}
    (hbody : f.body = .operands fun position operands => F position <$> Lookup.single? operands) :
    f.Uniform := by
  apply uniform_of_operands hbody
  intro source names position os os' h
  exact (Lookup.single?_expands h).bind fun v => ⟨rfl, rfl⟩

namespace Conditional

theorem countIn_expands {criterion criterion' : Operand}
    (h : criterion.Expands source names criterion') (v : Value) :
    (countIn criterion v).Expands source names (countIn criterion' v) := by
  by_cases hv : ∃ e, v = .error e
  · obtain ⟨e, rfl⟩ := hv
    exact ⟨rfl, rfl⟩
  · have hne (e : ErrorValue) (he : v = .error e) : False := hv ⟨e, he⟩
    rw [countIn_of_ne hne, countIn_of_ne hne]
    apply (Query.Expands.of_noted_eq_nil v.noted_read).bind
    intro values
    apply h.query.bind
    intro c
    apply (Query.Expands.of_noted_eq_nil c.noted_read).bind
    intro c
    cases c <;> exact ⟨rfl, rfl⟩

theorem countIf_expands (position : Option Position)
    (h : List.Forall₂ (Operand.Expands source names) os os') :
    (countIf position os).Expands source names (countIf position os') := by
  match h with
  | .cons hcells (.cons hcriterion .nil) =>
    rw [countIf_eq, countIf_eq]
    exact hcells.query.bind fun v => countIn_expands hcriterion v
  | .nil | .cons _ .nil | .cons _ (.cons _ (.cons _ _)) => exact ⟨rfl, rfl⟩

theorem summedRows_expands (v : Value) (rows : List (List Value)) {o o' : Operand}
    (h : o.Expands source names o') :
    (summedRows v rows o).Expands source names (summedRows v rows o') := by
  cases h with
  | omitted => exact ⟨rfl, rfl⟩
  | given h =>
    rw [summedRows_given, summedRows_given]
    apply h.bind
    intro w
    apply Query.Expands.of_noted_eq_nil
    cases resized? v w with
    | some ref => exact Query.noted_readRange ref
    | none => exact (Query.noted_map _ _).trans w.noted_read

theorem sumIf_expands (position : Option Position)
    (h : List.Forall₂ (Operand.Expands source names) os os') :
    (sumIf position os).Expands source names (sumIf position os') := by
  match h with
  | .cons hcells (.cons hcriterion hrest) =>
    apply hcells.query.bind
    intro v
    apply (Query.Expands.of_noted_eq_nil v.noted_read).bind
    intro rows
    apply hcriterion.query.bind
    intro c
    apply (Query.Expands.of_noted_eq_nil c.noted_read).bind
    intro c
    apply Query.Expands.bind
    · apply summedRows_expands
      cases hrest with
      | nil => exact .omitted
      | cons ho _ => exact ho
    · exact fun summed => ⟨rfl, rfl⟩
  | .nil | .cons _ .nil => exact ⟨rfl, rfl⟩

end Conditional

theorem operands_uniform : ∀ f ∈ Conditional.functions ++ Lookup.functions.take 4, f.Uniform := by
  simp only [Conditional.functions, Lookup.functions, List.take, List.cons_append, List.nil_append,
    List.forall_mem_cons]
  refine ⟨?_, ?_, ?_, ?_, ?_, ?_, fun f hf => absurd hf List.not_mem_nil⟩
  · exact Function.uniform_of_operands rfl fun _ _ position _ _ =>
      Conditional.sumIf_expands position
  · exact Function.uniform_of_operands rfl fun _ _ position _ _ =>
      Conditional.countIf_expands position
  · exact Function.uniform_of_single rfl
  · exact Function.uniform_of_single rfl
  · exact Function.uniform_of_single rfl
  · exact Function.uniform_of_single rfl

end

/-- The built-in functions note nothing of their own, and neither do functions of values. -/
theorem builtins_transparent : ∀ f ∈ builtins, f.Transparent := by
  intro f hf
  apply Function.Uniform.transparent
  cases hbody : f.body with
  | values g => exact Function.uniform_of_values hbody
  | operands g =>
    have hneeds : f.needsOperands = true := by rw [Function.needsOperands, hbody]
    exact operands_uniform f (mem_needsOperands hf hneeds)

theorem Function.transparent_of_values {f : Function}
    {g : Option Position → List Argument → Result Value} (hbody : f.body = .values g) :
    f.Transparent :=
  (uniform_of_values hbody).transparent

namespace Function

/-- The places, from `i` on, of the operands that are evaluated from left to right up to the first
that fails. -/
def reached (source : Source) (c : Category) (i : Nat) : List Operand → List Nat
  | [] => []
  | .omitted :: rest => reached source c (i + 1) rest
  | .given q :: rest =>
    i :: if (((Operand.given q).argument c).run source).1.isOk then reached source c (i + 1) rest
      else []

theorem run_argument_marked (source : Source) (c : Category) (i : Nat) (q : Query Value) :
    (((Operand.given q).marked i).argument c).run source =
      ((((Operand.given q).argument c).run source).1, [mark i]) := by
  rw [Operand.marked, Operand.argument, Operand.argument]
  apply Prod.ext
  · rw [Query.run_bind_fst, Query.run_bind_fst, q.marked_run]
  · change Query.noted source _ = _
    rw [Query.noted_bind, Query.noted, q.marked_run]
    cases (q.run source).1 with
    | ok v => exact congrArg ([mark i] ++ ·) (Operand.noted_ofValue c v)
    | error message => rfl

theorem noted_readOperands (source : Source) (c : Category) (i : Nat) (operands : List Operand) :
    ((readOperands c (operands.mapIdx fun j => Operand.marked (i + j))).noted source).map
      String.length = reached source c i operands := by
  induction operands generalizing i with
  | nil => rfl
  | cons o rest ih =>
    have hnext : (fun j => Operand.marked (i + (j + 1))) =
        fun j => Operand.marked (i + 1 + j) := by
      funext j
      rw [Nat.add_right_comm, Nat.add_assoc]
    rw [List.mapIdx_cons, hnext, readOperands_cons, Query.noted_bind]
    cases o with
    | omitted =>
      rw [reached, ← ih (i + 1)]
      exact congrArg (List.map String.length) (Query.noted_map _ _)
    | given q =>
      rw [reached, ← ih (i + 1), Query.noted, run_argument_marked]
      cases (((Operand.given q).argument c).run source).1 with
      | error message => exact congrArg ([·]) (length_mark i)
      | ok a =>
        apply congrArg₂ List.cons (length_mark i)
        exact congrArg (List.map String.length) (Query.noted_map _ _)

/-- A function of values evaluates its operands from left to right, up to the first that fails. -/
theorem evaluated_of_values {f : Function} {g : Option Position → List Argument → Result Value}
    (hbody : f.body = .values g) {operands : List Operand}
    (hcount : f.acceptsCount operands.length = true) (source : Source)
    (position : Option Position) :
    f.evaluated source position operands = reached source f.category 0 operands := by
  rw [← noted_readOperands, evaluated, call, List.length_mapIdx, if_pos hcount, hbody]
  simp only [Nat.zero_add]
  exact congrArg (List.map String.length) (Query.noted_map _ _)

end Function

end Spreadsheet
