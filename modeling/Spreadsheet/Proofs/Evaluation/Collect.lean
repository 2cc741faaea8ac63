import Spreadsheet.Function.Registry
import Spreadsheet.Proofs.Evaluation.Zeros
import Spreadsheet.Proofs.Outcome

/-!
Functions that collect what each of their arguments gives, from left to right. What an argument
changes in such a call is what it gives by itself, so that arguments which give the same can stand
for each other.
-/

namespace Spreadsheet

/-- What the arguments give one after the other, up to the first that gives an error. -/
def collect (parts : Argument → Result (List β)) : List Argument → Result (List β)
  | [] => .ok []
  | a :: rest => do return (← parts a) ++ (← collect parts rest)

theorem collect_append (parts : Argument → Result (List β)) (as bs : List Argument) :
    collect parts (as ++ bs) = do return (← collect parts as) ++ (← collect parts bs) := by
  induction as with
  | nil =>
    cases h : collect parts bs with
    | error e => exact h
    | ok zs => exact h
  | cons b as ih =>
    rw [List.cons_append, collect, ih, collect]
    cases parts b with
    | error e => rfl
    | ok ws =>
      cases collect parts as with
      | error e => rfl
      | ok xs =>
        cases collect parts bs with
        | error e => rfl
        | ok zs => exact congrArg Except.ok (List.append_assoc ws xs zs).symm

theorem collect_insert (parts : Argument → Result (List β)) (as bs : List Argument) (a : Argument) :
    collect parts (as ++ a :: bs) = do
      let xs ← collect parts as
      let ys ← parts a
      let zs ← collect parts bs
      return xs ++ (ys ++ zs) := by
  rw [collect_append, collect]
  cases collect parts as with
  | error e => rfl
  | ok xs =>
    cases parts a with
    | error e => rfl
    | ok ys => cases collect parts bs <;> rfl

theorem collect_ok (parts : Argument → List β) (args : List Argument) :
    collect (fun a => .ok (parts a)) args = .ok (args.flatMap parts) := by
  induction args with
  | nil => rfl
  | cons a args ih =>
    rw [collect, ih]
    rfl

theorem flatten_mapM (parts : Argument → Result (List β)) (args : List Argument) :
    List.flatten <$> args.mapM parts = collect parts args := by
  induction args with
  | nil => rfl
  | cons a args ih =>
    rw [List.mapM_cons, collect, ← ih]
    cases parts a with
    | error e => rfl
    | ok ys => cases args.mapM parts <;> rfl

/-- The values of an argument, each with whether it is written in the call itself. -/
def expandedOf (a : Argument) : List (Value × Bool) :=
  match a.value with
  | .array rows => rows.flatten.map fun v => (v, false)
  | v => [(v, a.literal)]

theorem expandedValues_eq (args : List Argument) : expandedValues args = args.flatMap expandedOf :=
  rfl

theorem mapM_expandedValues (h : Value × Bool → Result β) (args : List Argument) :
    (expandedValues args).mapM h = collect (fun a => (expandedOf a).mapM h) args := by
  rw [expandedValues_eq]
  induction args with
  | nil => rfl
  | cons a args ih => rw [List.flatMap_cons, List.mapM_append, collect, ih]

/-! ### Arguments in the place of each other -/

namespace Argument

/-- The argument for a value that a cell holds. -/
def found (v : Value) : Argument := ⟨v, none, false, false⟩

/-- The argument for an array of one value, which is written in the call or read. -/
def single (literal : Bool) (v : Value) : Argument := ⟨.array [[v]], none, false, literal⟩

end Argument

namespace Function

variable {f : Function} {a a' : Argument}

/-- The function makes the same of the one argument and of the other. -/
def Alike (f : Function) (a a' : Argument) : Prop :=
  ∃ g, f.body = .values g ∧
    ∀ position as bs, g position (as ++ a :: bs) = g position (as ++ a' :: bs)

/-- The function makes the same of other arguments without this one. -/
def PassesOver (f : Function) (a : Argument) : Prop :=
  ∃ g, f.body = .values g ∧
    ∀ position as bs, g position (as ++ a :: bs) = g position (as ++ bs)

/-- An error in an array of one value is the result, unless the result is an error whatever that
value is. -/
def StopsAtErrors (f : Function) : Prop :=
  ∃ g, f.body = .values g ∧ ∀ position as bs e,
    g position (as ++ .single false (.error e) :: bs) = .error e ∨
      ∃ e', g position (as ++ .single false (.error e) :: bs) = .error e' ∧
        ∀ v, g position (as ++ .single true v :: bs) = .error e'

/-- The function is one of what its arguments give. -/
def Collects (f : Function) (parts : Argument → Result (List β)) : Prop :=
  ∃ finish, f.body = .values fun _ args => collect parts args >>= finish

variable {parts : Argument → Result (List β)}

theorem Collects.alike (h : f.Collects parts) (ha : parts a = parts a') : f.Alike a a' := by
  obtain ⟨finish, hbody⟩ := h
  refine ⟨_, hbody, fun position as bs => ?_⟩
  rw [collect_insert, collect_insert, ha]

theorem Collects.passesOver (h : f.Collects parts) (ha : parts a = .ok []) : f.PassesOver a := by
  obtain ⟨finish, hbody⟩ := h
  refine ⟨_, hbody, fun position as bs => ?_⟩
  rw [collect_insert, collect_append, ha]
  rfl

theorem Collects.stopsAtErrors (h : f.Collects parts)
    (ha : ∀ e, parts (.single false (.error e)) = .error e) : f.StopsAtErrors := by
  obtain ⟨finish, hbody⟩ := h
  refine ⟨_, hbody, fun position as bs e => ?_⟩
  rw [collect_insert, ha]
  cases has : collect parts as with
  | error e' =>
    refine .inr ⟨e', rfl, fun v => ?_⟩
    rw [collect_insert, has]
    rfl
  | ok xs => exact .inl rfl

end Function

/-! ### The functions that expand arrays -/

namespace Function

variable {parts : Argument → Result (List β)}

theorem collects_of_value (finish : List β → Result Value) {g : List Argument → Result Value}
    (hg : ∀ args, g args = collect parts args >>= finish) :
    (ofValues n c low high g).Collects parts :=
  ⟨finish, congrArg Body.values (funext fun _ => funext hg)⟩

theorem collects_of_number (finish : List β → Result Float) {g : List Argument → Result Float}
    (hg : ∀ args, g args = collect parts args >>= finish) :
    (ofNumbers n c low high g).Collects parts := by
  apply collects_of_value fun xs => .number <$> finish xs
  intro args
  rw [hg]
  cases collect parts args <;> rfl

end Function

section

variable {h : Value × Bool → Result β}

/-- A function of what it makes of the values of its arguments one by one. -/
theorem collects_expanded (finish : List β → Result Value) {g : List Argument → Result Value}
    (hg : ∀ args, g args = (expandedValues args).mapM h >>= finish) :
    (Function.ofValues n c low high g).Collects fun a => (expandedOf a).mapM h := by
  apply Function.collects_of_value finish
  intro args
  rw [hg, mapM_expandedValues]

theorem collects_expanded_number (finish : List β → Result Float)
    {g : List Argument → Result Float}
    (hg : ∀ args, g args = (expandedValues args).mapM h >>= finish) :
    (Function.ofNumbers n c low high g).Collects fun a => (expandedOf a).mapM h := by
  apply Function.collects_of_number finish
  intro args
  rw [hg, mapM_expandedValues]

end

/-- The numbers that an argument gives to an aggregate. -/
def numbersOf (a : Argument) : Result (List Float) :=
  (List.filterMap id) <$> (expandedOf a).mapM aggregated

theorem aggregatedNumbers_eq (args : List Argument) :
    aggregatedNumbers args = collect numbersOf args := by
  rw [aggregatedNumbers, mapM_expandedValues]
  change (List.filterMap id) <$> collect _ args = _
  induction args with
  | nil => rfl
  | cons a args ih =>
    rw [collect, collect, ← ih, numbersOf]
    cases (expandedOf a).mapM aggregated with
    | error e => rfl
    | ok xs =>
      cases collect (fun a => (expandedOf a).mapM aggregated) args with
      | error e => rfl
      | ok ys => exact congrArg Except.ok List.filterMap_append

theorem collects_numbers (finish : List Float → Result Float) {g : List Argument → Result Float}
    (hg : ∀ args, g args = aggregatedNumbers args >>= finish) :
    (Function.ofNumbers n c low high g).Collects numbersOf := by
  apply Function.collects_of_number finish
  intro args
  rw [hg, aggregatedNumbers_eq]

theorem collects_counted {p : Value × Bool → Bool} {g : List Argument → Result Float}
    (hg : ∀ args, g args = .ok (Float.ofNat ((expandedValues args).countP p))) :
    (Function.ofNumbers n c low high g).Collects fun a =>
      (expandedOf a).mapM fun x => (.ok (p x) : Result Bool) := by
  apply collects_expanded_number fun bs => .ok (Float.ofNat (bs.countP id))
  intro args
  have hmap : (expandedValues args).mapM (fun x => (.ok (p x) : Result Bool)) =
      .ok ((expandedValues args).map p) := List.mapM_pure
  rw [hg, hmap]
  change _ = Except.ok (Float.ofNat (((expandedValues args).map p).countP id))
  rw [List.countP_map]
  rfl

theorem Statistics.countA_collects :
    (Function.ofNumbers n c low high countA).Collects fun a => .ok [(presentValues a).length] := by
  apply Function.collects_of_number fun lengths => .ok (Float.ofNat lengths.sum)
  intro args
  rw [collect_ok, ← List.map_eq_flatMap, countA, List.length_flatMap]
  rfl

theorem Logic.truths_eq (args : List Argument) :
    truths args = collect truthOf args >>= fun bs => do
      if bs.isEmpty then throw .value
      return bs := by
  rw [truths, ← flatten_mapM]
  cases args.mapM truthOf <;> rfl

theorem Logic.collects_truths {g : List Argument → Result Value} (finish : List Bool → Bool)
    (hg : ∀ args, g args = do return .boolean (finish (← truths args))) :
    (Function.ofValues n c low high g).Collects truthOf := by
  apply Function.collects_of_value fun bs => do
    if bs.isEmpty then throw .value
    return .boolean (finish bs)
  intro args
  rw [hg, truths_eq]
  cases collect truthOf args with
  | error e => rfl
  | ok bs => cases bs <;> rfl

/-- What an argument gives to a common divisor or multiple. -/
def Arithmetic.wholeOf (blank : Nat) (a : Argument) : Result (List Nat) :=
  if a.omitted then .ok [blank] else a.value.elements.mapM (wholeOperand blank)

theorem Arithmetic.collects_whole {blank : Nat} (finish : List Nat → Result Float)
    {g : List Argument → Result Float}
    (hg : ∀ args, g args = wholeOperands blank args >>= finish) :
    (Function.ofNumbers n c low high g).Collects (wholeOf blank) := by
  apply Function.collects_of_number finish
  intro args
  rw [hg, wholeOperands, ← flatten_mapM]
  rfl

/-! ### Sums of products -/

namespace Matrix

/-- What an argument gives to a sum of products. -/
def factorsOf (a : Argument) : List (List (Result Float)) := a.value.toRows.map (·.map factor)

theorem gather_map (f : α → β) (n : Nat) (lists : List (List α)) :
    gather n (lists.map (·.map f)) = (gather n lists).map (·.map f) := by
  induction lists with
  | nil => simp [gather]
  | cons list lists ih =>
    rw [List.map_cons]
    change List.zipWith List.cons _ (gather n (lists.map (·.map f))) =
      (List.zipWith List.cons list (gather n lists)).map _
    rw [ih, List.map_zipWith, List.zipWith_map]
    rfl

/-- The height and the width of the first array. -/
def size (arrays : List (List (List α))) : Nat × Nat :=
  ((arrays.headD []).length, ((arrays.headD []).headD []).length)

/-- Whether all arrays have a size. -/
def haveSize (size : Nat × Nat) (arrays : List (List (List α))) : Bool :=
  !arrays.any fun rows => rows.length != size.1 || rows.any (·.length != size.2)

theorem size_map (f : α → β) (arrays : List (List (List α))) :
    size (arrays.map (·.map (·.map f))) = size arrays := by
  match arrays with
  | [] => rfl
  | [] :: rest => rfl
  | (row :: rows) :: rest => simp [size]

theorem haveSize_map (f : α → β) (size : Nat × Nat) (arrays : List (List (List α))) :
    haveSize size (arrays.map (·.map (·.map f))) = haveSize size arrays := by
  simp [haveSize, List.any_map, Function.comp_def]

def productOf (factors : List (Result Float)) : Result Float := do
  return Number.product (← factors.mapM id)

/-- The sum of the products of factors at the same place. -/
def sumOfProducts (arrays : List (List (List (Result Float)))) : Result Float := do
  if !haveSize (size arrays) arrays then throw .value
  let places := gather ((size arrays).1 * (size arrays).2) (arrays.map List.flatten)
  let products ← places.mapM productOf
  return products.foldl (· + ·) 0

theorem sumProduct_eq (args : List Argument) :
    sumProduct args = sumOfProducts (args.map factorsOf) := by
  have hmap : args.map factorsOf =
      (args.map fun a => a.value.toRows).map (·.map (·.map factor)) := by
    rw [List.map_map]
    rfl
  rw [hmap, sumOfProducts, size_map, haveSize_map, sumProduct]
  generalize args.map (fun a => a.value.toRows) = arrays
  have hflatten : (arrays.map (·.map (·.map factor))).map List.flatten =
      (arrays.map List.flatten).map (·.map factor) := by
    simp [List.map_map, Function.comp_def, List.map_flatten]
  rw [hflatten, gather_map]
  simp only [productOf, List.mapM_map, Function.comp_def, id_eq, haveSize, size, Bool.not_not]

theorem sumProduct_alike (ha : factorsOf a = factorsOf a') :
    (Function.ofNumbers n c low high sumProduct).Alike a a' := by
  refine ⟨_, rfl, fun position as bs => ?_⟩
  simp only [sumProduct_eq]
  simp only [List.map_append, List.map_cons, ha]

theorem haveSize_iff {size : Nat × Nat} {arrays : List (List (List α))} :
    haveSize size arrays = true ↔
      ∀ rows ∈ arrays, rows.length = size.1 ∧ ∀ row ∈ rows, row.length = size.2 := by
  simp [haveSize]

theorem eq_map_singles {arrays : List (List (List α))}
    (h : ∀ rows ∈ arrays, rows.length = 1 ∧ ∀ row ∈ rows, row.length = 1) :
    ∃ xs : List α, arrays = xs.map fun x => [[x]] := by
  induction arrays with
  | nil => exact ⟨[], rfl⟩
  | cons rows rest ih =>
    obtain ⟨hrows, hrest⟩ := List.forall_mem_cons.1 h
    obtain ⟨xs, rfl⟩ := ih hrest
    obtain ⟨row, rfl⟩ := List.length_eq_one_iff.1 hrows.1
    obtain ⟨x, rfl⟩ := List.length_eq_one_iff.1 (hrows.2 row List.mem_cons_self)
    exact ⟨x :: xs, rfl⟩

/-- Beside an array of one value, arrays of one size are arrays of one value. -/
theorem exists_singles {size : Nat × Nat} {as bs : List (List (List α))} {x : α}
    (h : haveSize size (as ++ [[x]] :: bs) = true) :
    (∃ xs : List α, as = xs.map fun x => [[x]]) ∧ ∃ ys : List α, bs = ys.map fun y => [[y]] := by
  rw [haveSize_iff, List.forall_mem_append, List.forall_mem_cons] at h
  obtain ⟨has, ⟨hheight, hwidth⟩, hbs⟩ := h
  have hwidth := hwidth [x] List.mem_cons_self
  rw [← hheight, ← hwidth] at has hbs
  exact ⟨eq_map_singles has, eq_map_singles hbs⟩

/-- Arrays of one value have one place between them. -/
theorem gather_singles (xs : List α) : gather 1 (xs.map fun x => [x]) = [xs] := by
  induction xs with
  | nil => rfl
  | cons x xs ih =>
    change List.zipWith List.cons [x] (gather 1 (xs.map fun x => [x])) = _
    rw [ih]
    rfl

theorem sumOfProducts_singles {xs : List (Result Float)} (hne : xs ≠ []) :
    sumOfProducts (xs.map fun x => [[x]]) = (0 + ·) <$> productOf xs := by
  have hsize : size (xs.map fun x => [[x]]) = (1, 1) := by
    obtain ⟨x, rest, rfl⟩ := List.exists_cons_of_ne_nil hne
    rfl
  have hhave : haveSize (1, 1) (xs.map fun x => [[x]]) = true := by
    simp [haveSize_iff]
  have hflatten : (xs.map fun x => [[x]]).map List.flatten = xs.map fun x => [x] := by
    simp
  rw [sumOfProducts, hsize, hhave, hflatten]
  change (do return (← (gather 1 _).mapM productOf).foldl (· + ·) 0 : Result Float) = _
  rw [gather_singles, List.mapM_cons]
  cases productOf xs <;> rfl

theorem productOf_insert (xs ys : List (Result Float)) (e : ErrorValue) :
    productOf (xs ++ .error e :: ys) = .error e ∨
      ∃ e', ∀ x, productOf (xs ++ x :: ys) = .error e' := by
  cases h : xs.mapM id with
  | error e' =>
    refine .inr ⟨e', fun x => ?_⟩
    rw [productOf, List.mapM_append, h]
    rfl
  | ok factors =>
    left
    rw [productOf, List.mapM_append, h, List.mapM_cons]
    rfl

theorem sumOfProducts_of_size {as bs : List (List (List (Result Float)))} {y : Result Float}
    (h : haveSize (size (as ++ [[y]] :: bs)) (as ++ [[y]] :: bs) = false) (x : Result Float) :
    sumOfProducts (as ++ [[x]] :: bs) = .error .value := by
  have hsize : size (as ++ [[x]] :: bs) = size (as ++ [[y]] :: bs) := by cases as <;> rfl
  have hhave : haveSize (size (as ++ [[y]] :: bs)) (as ++ [[x]] :: bs) = false := by
    rw [← h]
    simp [haveSize]
  rw [sumOfProducts, hsize, hhave]
  rfl

theorem sumProduct_stopsAtErrors :
    (Function.ofNumbers n c low high sumProduct).StopsAtErrors := by
  refine ⟨_, rfl, fun position as bs e => ?_⟩
  have hinsert (literal : Bool) (v : Value) : (as ++ .single literal v :: bs).map factorsOf =
      as.map factorsOf ++ [[factor v]] :: bs.map factorsOf := by
    rw [List.map_append, List.map_cons]
    rfl
  simp only [sumProduct_eq, hinsert]
  generalize as.map factorsOf = as
  generalize bs.map factorsOf = bs
  change Value.number <$> sumOfProducts (as ++ [[.error e]] :: bs) = _ ∨
    ∃ e', Value.number <$> sumOfProducts (as ++ [[.error e]] :: bs) = _ ∧ _
  cases h : haveSize (size (as ++ [[.error e]] :: bs)) (as ++ [[.error e]] :: bs) with
  | false =>
    refine .inr ⟨.value, ?_, fun v => ?_⟩
    · rw [sumOfProducts_of_size h]
      rfl
    · rw [sumOfProducts_of_size h]
      rfl
  | true =>
    obtain ⟨⟨xs, rfl⟩, ys, rfl⟩ := exists_singles h
    have hsingles (x : Result Float) :
        sumOfProducts (xs.map (fun x => [[x]]) ++ [[x]] :: ys.map fun y => [[y]]) =
          (0 + ·) <$> productOf (xs ++ x :: ys) := by
      rw [← sumOfProducts_singles (List.append_ne_nil_of_right_ne_nil _ (List.cons_ne_nil _ _)),
        List.map_append, List.map_cons]
    simp only [hsingles]
    rcases productOf_insert xs ys e with hproduct | ⟨e', hproduct⟩
    · rw [hproduct]
      exact .inl rfl
    · refine .inr ⟨e', ?_, fun v => ?_⟩
      · rw [hproduct]
        rfl
      · rw [hproduct]
        rfl

end Matrix
end Spreadsheet
