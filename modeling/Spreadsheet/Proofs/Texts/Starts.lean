import Spreadsheet.Proofs.Texts.Pieces

/-!
Start positions of pieces of text. A function that takes one rejects the numbers below 1, by a
comparison that NaN passes. So what is not rejected is a number that 1 can be taken from, or NaN,
which is read as 0.
-/

namespace Spreadsheet

variable {scope : Scope} {source : Source}

/-- The call of a function of values is an error, or what the function makes of the arguments. -/
theorem evaluates_call_cases {f : Function}
    {g : Option Position → List Argument → Result Value} {es : List Expr} {v : Value}
    (hfind : scope.functions.find? name = some f) (hbody : f.body = .values g)
    (h : (Expr.call name es).Evaluates scope source v) :
    (∃ e, v = .error e) ∨
      ∃ args w, ((Function.readOperands f.category (operands scope es)).run source).1 = .ok args ∧
        g scope.position args = .ok w := by
  rw [Expr.Evaluates, evaluate_call hfind, Function.call] at h
  split at h
  · rw [hbody, Query.run_bind_fst] at h
    obtain ⟨args, hargs, h⟩ := bind_eq_ok.1 h
    change Except.ok (Function.close (f.onArguments (g scope.position) args)) = .ok v at h
    obtain rfl := Except.ok.inj h
    rw [Function.onArguments]
    cases f.blockingError? args with
    | some e => exact .inl ⟨e, rfl⟩
    | none =>
      cases hg : g scope.position args with
      | error e => exact .inl ⟨e, rfl⟩
      | ok w => exact .inr ⟨args, w, hargs, hg⟩
  · cases h
    exact .inl ⟨.value, rfl⟩

namespace Text

open Number (toNat64)

/-! ### Characters before a position -/

/-- The position of NaN is 0, and there the words of 64 bits start over. -/
theorem charsBefore_nan {start : Float} (h : start.isNaN = true) :
    toNat64 start = 0 ∧ charsBefore start = 2 ^ 64 - 1 := by
  have hzero : start.toUInt64 = 0 := by
    change UInt64.ofNatClamp
      (Float.Model.UnpackedFloat.toInt 0 _ start.toModel.unpack).toNat = 0
    rw [unpack_eq_notANumber.2 h]
    rfl
  rw [toNat64, charsBefore, hzero]
  decide

theorem start_cases {start : Float} (h : ¬ start < 1) :
    (1 ≤ start ∧ charsBefore start + 1 = toNat64 start) ∨
      (start.isNaN = true ∧ toNat64 start = 0 ∧ charsBefore start = 2 ^ 64 - 1) := by
  cases hnan : start.isNaN with
  | true => exact .inr ⟨rfl, charsBefore_nan hnan⟩
  | false =>
    have hone : 1 ≤ start := float_le_of_not_lt (by decide) hnan h
    exact .inl ⟨hone, charsBefore_of_one_le hone⟩

/-! ### Functions that take one -/

/-- The functions of a start position, and its index among the arguments. -/
def starting : List (Function × Nat) := [
  (.ofValues "MID" .text 3 (some 3) mid, 1),
  (.ofValues "REPLACE" .text 4 (some 4) replace, 1),
  (.ofNumbers "FIND" .text 2 (some 3) find, 2),
  (.ofNumbers "SEARCH" .text 2 (some 3) search, 2)]

set_option maxRecDepth 4000 in
theorem find?_starting :
    starting.map (fun s => Registry.find? builtins s.1.name) = starting.map fun s => some s.1 := rfl

/-- There is a start position at an index, and it is not below 1. -/
def HasStart (i : Nat) (args : List Argument) : Prop :=
  ∃ start, countAt args i 1 = .ok start ∧ ¬ start < 1

theorem hasStart_of_mid (h : mid args = .ok v) : HasStart 1 args := by
  obtain ⟨cs, -, h⟩ := bind_eq_ok.1 h
  obtain ⟨start, hstart, h⟩ := bind_eq_ok.1 h
  obtain ⟨n, -, h⟩ := bind_eq_ok.1 h
  refine ⟨start, hstart, fun hlt => ?_⟩
  rw [decide_eq_true hlt] at h
  cases h

theorem hasStart_of_replace (h : replace args = .ok v) : HasStart 1 args := by
  obtain ⟨cs, -, h⟩ := bind_eq_ok.1 h
  obtain ⟨start, hstart, h⟩ := bind_eq_ok.1 h
  obtain ⟨n, -, h⟩ := bind_eq_ok.1 h
  obtain ⟨new, -, h⟩ := bind_eq_ok.1 h
  refine ⟨start, hstart, fun hlt => ?_⟩
  rw [decide_eq_true hlt] at h
  cases h

theorem hasStart_of_startAt (h : startAt args i within = .ok k) : HasStart i args := by
  obtain ⟨start, hstart, h⟩ := bind_eq_ok.1 h
  refine ⟨start, hstart, fun hlt => ?_⟩
  rw [decide_eq_true hlt] at h
  cases h

theorem hasStart_of_position {search : List Char → List Char → Option Nat}
    (h : position search args = .ok x) : HasStart 2 args := by
  obtain ⟨piece, -, h⟩ := bind_eq_ok.1 h
  obtain ⟨within, -, h⟩ := bind_eq_ok.1 h
  obtain ⟨skipped, hskipped, -⟩ := bind_eq_ok.1 h
  exact hasStart_of_startAt hskipped

theorem find?_of_mem {f : Function} {i : Nat} (hf : (f, i) ∈ starting) :
    Registry.find? builtins f.name = some f :=
  List.map_inj_left.1 find?_starting (f, i) hf

theorem hasStart_of_mem {f : Function} {i : Nat} (hf : (f, i) ∈ starting) :
    ∃ g : List Argument → Result Value, f.body = .values (fun _ => g) ∧
      ∀ args w, g args = .ok w → HasStart i args := by
  simp only [starting, List.mem_cons, List.not_mem_nil, or_false, Prod.mk.injEq] at hf
  rcases hf with ⟨rfl, rfl⟩ | ⟨rfl, rfl⟩ | ⟨rfl, rfl⟩ | ⟨rfl, rfl⟩
  · exact ⟨_, rfl, fun args w => hasStart_of_mid⟩
  · exact ⟨_, rfl, fun args w => hasStart_of_replace⟩
  · refine ⟨_, rfl, fun args w h => ?_⟩
    obtain ⟨x, hx, -⟩ := map_eq_ok.1 h
    exact hasStart_of_position hx
  · refine ⟨_, rfl, fun args w h => ?_⟩
    obtain ⟨x, hx, -⟩ := map_eq_ok.1 h
    exact hasStart_of_position hx

theorem isNaN_truncate {x : Float} (h : x.isNaN = true) :
    (Number.truncate x).isNaN = true := by
  rwa [Number.truncate, Number.toWhole, unpack_eq_notANumber.2 h]

/-- From the position of NaN, which lies behind every text, a piece is empty. -/
theorem mid_of_nan {args : List Argument} {cs : List Char} {start : Float} {n : Nat}
    (hcs : charsAt args 0 = .ok cs) (hstart : countAt args 1 1 = .ok start)
    (hn : countAt args 2 0 = .ok (Float.ofNat n)) (hnan : start.isNaN = true)
    (h : cs.length < 2 ^ 64) : mid args = .ok (.text "") := by
  obtain ⟨-, hbefore⟩ := charsBefore_nan hnan
  have hone : ¬ start < 1 := fun hlt => by
    have hnumber := (le_iff.1 (float_le_of_lt hlt)).1
    rw [hnan] at hnumber
    cases hnumber
  have hinside : (decide (start < 1) || decide (Float.ofNat n < 0)) = false := by
    rw [decide_eq_false hone, decide_eq_false (Number.not_whole_lt_zero n)]
    rfl
  have hnone : cs.drop (2 ^ 64 - 1) = [] := List.drop_of_length_le (by omega)
  rw [mid, hcs]
  dsimp only [bind, Except.bind]
  rw [hstart, hn]
  dsimp only
  rw [hinside, hbefore, hnone, List.take_nil]
  rfl

end Text

end Spreadsheet
