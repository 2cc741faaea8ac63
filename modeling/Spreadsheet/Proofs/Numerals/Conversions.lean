import Spreadsheet.Engine
import Spreadsheet.Proofs.Numerals.Complement
import Spreadsheet.Proofs.Numerals.Wholes

/-!
Functions between numbers and numerals in two's complement. Decoding undoes encoding with any number
of places, encoding undoes decoding but for the writing of the digits, and a function from numerals
of one radix to those of another goes through the decimal number, also where it fails.
-/

namespace Spreadsheet

variable {scope : Scope} {source : Source}

theorem Query.run_bind_congr {q : Query α} {f g : α → Query β}
    (h : ∀ a, (q.run source).1 = .ok a → (f a).run source = (g a).run source) :
    (q >>= f).run source = (q >>= g).run source := by
  rw [run_bind, run_bind]
  cases hq : (q.run source).1 with
  | ok a =>
    dsimp only
    rw [h a hq]
  | error message => rfl

namespace Numeral

open Number (Radix padZeros stripZeros digitIn? truncate toNat64 within)

/-! ### Encoding and decoding -/

section

variable {radix : Radix} {n : Int}

/-- The number of digits that a number is padded to. -/
def widthOf (radix : Radix) (n : Int) : Option Float → Result Nat
  | none => .ok 0
  | some p =>
    if n < 0 then .ok 0
    else if within 0 10 (truncate p) && Float.ofNat (radix.encode n).length ≤ truncate p then
      .ok (toNat64 p)
    else .error .num

theorem encode_eq (radix : Radix) (n : Int) (places : Option Float) :
    encode radix n places = if radix.holds n = true then
      (widthOf radix n places).map fun width =>
        .text (String.ofList (padZeros width (radix.encode n)))
    else .error .num := by
  rw [encode]
  cases radix.holds n with
  | false => rfl
  | true =>
    cases places with
    | none => rfl
    | some p =>
      rw [if_pos rfl, widthOf]
      dsimp only
      rw [if_neg (show ¬ (!true) = true by decide)]
      split
      · rfl
      · split <;> rfl

theorem encode_none (h : radix.holds n = true) :
    encode radix n none = .ok (.text (String.ofList (radix.encode n))) := by
  rw [encode_eq, if_pos h, widthOf, Except.map, Number.padZeros_zero]

theorem widthOf_le {places : Option Float} {width : Nat}
    (h : widthOf radix n places = .ok width) : width ≤ 10 := by
  unfold widthOf at h
  split at h
  · cases h
    exact Nat.zero_le 10
  · split at h
    · cases h
      exact Nat.zero_le 10
    · split at h
      · next hplaces =>
        cases h
        rw [Bool.and_eq_true, within, Bool.and_eq_true] at hplaces
        rw [← Number.toNat64_truncate]
        exact Number.toNat64_le (by decide) (of_decide_eq_true hplaces.1.2)
      · cases h

/-- Whatever the places, the digits of a number are decoded as it. -/
theorem decode?_of_encode {places : Option Float} {v : Value} (h : encode radix n places = .ok v) :
    ∃ s, v = .text s ∧ radix.decode? s.toList = some n := by
  rw [encode_eq] at h
  split at h
  · next hholds =>
    obtain ⟨width, hwidth, rfl⟩ := map_eq_ok.1 h
    refine ⟨_, rfl, ?_⟩
    rw [String.toList_ofList]
    exact Radix.decode?_encode hholds (widthOf_le hwidth)
  · cases h

theorem decode_text {args : List Argument} {s : String} (h : valueAt args 0 = .ok (.text s)) :
    decode radix args = orError .num (radix.decode? s.toList) := by
  rw [decode, h]
  rfl

theorem decode_eq_ok {args : List Argument} (h : decode radix args = .ok n) :
    radix.holds n = true := by
  obtain ⟨v, -, h⟩ := bind_eq_ok.1 h
  obtain ⟨s, -, h⟩ := bind_eq_ok.1 h
  cases hn : radix.decode? s.toList with
  | none =>
    rw [hn] at h
    cases h
  | some m =>
    rw [hn] at h
    cases h
    exact Radix.holds_of_decode? hn

end

/-! ### Functions by radix -/

/-- What stands for a radix in the names of functions. -/
def code : Radix → String
  | .binary => "BIN"
  | .octal => "OCT"
  | .hexadecimal => "HEX"

/-- The function from numerals of a radix to those of another. -/
def across (source target : Radix) : Function :=
  .ofValues (code source ++ "2" ++ code target) .engineering 1 (some 2) (convert source target)

def intoDecimal (source : Radix) : Function :=
  .ofNumbers (code source ++ "2DEC") .engineering 1 (some 1) (toDecimal source)

def outOfDecimal (target : Radix) : Function :=
  .ofValues ("DEC2" ++ code target) .engineering 1 (some 2) (ofDecimal target)

set_option maxRecDepth 4000 in
theorem find?_across {source target : Radix} (h : source ≠ target) :
    Registry.find? builtins (code source ++ "2" ++ code target) = some (across source target) := by
  cases source <;> cases target <;> first | exact absurd rfl h | rfl

set_option maxRecDepth 4000 in
theorem find?_intoDecimal (source : Radix) :
    Registry.find? builtins (code source ++ "2DEC") = some (intoDecimal source) := by
  cases source <;> rfl

set_option maxRecDepth 4000 in
theorem find?_outOfDecimal (target : Radix) :
    Registry.find? builtins ("DEC2" ++ code target) = some (outOfDecimal target) := by
  cases target <;> rfl

/-! ### Through the decimal number -/

/-- An argument is a number of places, or its slot is empty. -/
def IsPlaces (a : Argument) : Prop :=
  a.value.error? = none ∧ (a.omitted = true ∨ ∃ x, a.value.toNumber = .ok x)

theorem isPlaces_of_value {a : Argument} (h : a.value.toNumber = .ok x) : IsPlaces a := by
  refine ⟨?_, .inr ⟨x, h⟩⟩
  cases hv : a.value with
  | error e =>
    rw [hv] at h
    cases h
  | _ => rfl

theorem isPlaces_of_argument {p : Expr} {a : Argument}
    (h : ∀ w, p.Reads scope source w → ∃ x, w.toNumber = .ok x)
    (ha : (((Operand.given (evaluate scope p)).argument .engineering).run source).1 = .ok a) :
    IsPlaces a := by
  rw [Operand.argument, Query.run_bind_fst] at ha
  obtain ⟨v, hv, ha⟩ := bind_eq_ok.1 ha
  cases v with
  | reference r =>
    rw [Query.run_map] at ha
    obtain ⟨w, hw, rfl⟩ := map_eq_ok.1 ha
    obtain ⟨x, hx⟩ := h w ((Query.bind_ends_in hv).trans hw)
    cases w with
    | empty => exact isPlaces_of_value (x := 0) rfl
    | _ => exact isPlaces_of_value hx
  | _ =>
    cases ha
    obtain ⟨x, hx⟩ := h _ (Query.bind_ends_in hv)
    exact isPlaces_of_value hx

theorem isPlaces_of_read {places : List Expr} {as : List Argument}
    (h : ∀ p ∈ places, ∀ w, p.Reads scope source w → ∃ x, w.toNumber = .ok x)
    (has : ((Function.readOperands .engineering (operands scope places)).run source).1 = .ok as) :
    ∀ a ∈ as, IsPlaces a := by
  induction places generalizing as with
  | nil =>
    cases has
    nofun
  | cons p places ih =>
    obtain ⟨hp, hplaces⟩ := List.forall_mem_cons.1 h
    have hone {o : Operand} (ho : operands scope (p :: places) = o :: operands scope places)
        (ho' : ∀ a, ((o.argument .engineering).run source).1 = .ok a → IsPlaces a) :
        ∀ a ∈ as, IsPlaces a := by
      rw [ho, Function.readOperands_cons, Query.run_bind_fst] at has
      obtain ⟨a, ha, has⟩ := bind_eq_ok.1 has
      rw [Query.run_bind_fst] at has
      obtain ⟨rest, hrest, has⟩ := bind_eq_ok.1 has
      cases has
      exact List.forall_mem_cons.2 ⟨ho' a ha, ih hplaces hrest⟩
    by_cases homitted : p = .omitted
    · subst homitted
      refine hone rfl fun a ha => ?_
      cases ha
      exact ⟨rfl, .inl rfl⟩
    · exact hone (operands_given homitted places) fun a ha => isPlaces_of_argument hp ha

theorem placesOf_eq_ok {as : List Argument} (h : ∀ a ∈ as, IsPlaces a) :
    ∃ places, ∀ a, placesOf (a :: as) = .ok places := by
  cases as with
  | nil => exact ⟨none, fun a => rfl⟩
  | cons p as =>
    obtain ⟨-, homitted | ⟨x, hx⟩⟩ := h p List.mem_cons_self
    · refine ⟨none, fun a => ?_⟩
      have hnone : givenAt? (a :: p :: as) 1 = none := by simp [givenAt?, homitted]
      rw [placesOf, hnone]
    · cases homitted : p.omitted with
      | true =>
        refine ⟨none, fun a => ?_⟩
        have hnone : givenAt? (a :: p :: as) 1 = none := by simp [givenAt?, homitted]
        rw [placesOf, hnone]
      | false =>
        refine ⟨some x, fun a => ?_⟩
        have hgiven : givenAt? (a :: p :: as) 1 = some p.value := by simp [givenAt?, homitted]
        rw [placesOf, hgiven]
        dsimp only
        rw [hx]
        rfl

theorem ofDecimal_ofInt {target : Radix} {n : Int} (hn : n.natAbs < 2 ^ 53)
    {as : List Argument} {places : Option Float}
    (hplaces : ∀ a, placesOf (a :: as) = .ok places) :
    ofDecimal target (.ofValue (.number (Float.ofInt n)) :: as) = encode target n places := by
  have hnumber : numberAt (.ofValue (.number (Float.ofInt n)) :: as) 0 = .ok (Float.ofInt n) := rfl
  have hlow := Number.ofInt_lt_neg_iff target.half_pos target.half_lt hn
  have hhigh := Number.ofNat_le_ofInt_iff target.half_pos target.half_lt hn
  rw [ofDecimal, hnumber]
  dsimp only [bind, Except.bind]
  rw [Number.truncate_ofInt hn, Number.toInteger_ofInt hn, hplaces]
  split
  · next hout =>
    rw [Bool.or_eq_true, decide_eq_true_iff, decide_eq_true_iff, hlow, hhigh] at hout
    rw [encode_eq, if_neg]
    · rfl
    · rw [Radix.holds_iff]
      omega
  · rfl

theorem onArguments_error {f : Function} {g : List Argument → Result Value} {a : Argument}
    {as : List Argument} (hf : f.acceptsErrors = false) (h : a.value.error? = some e) :
    f.onArguments g (a :: as) = .error e := by
  rw [Function.onArguments, Function.blockingError?, hf, List.findSome?_cons, h]
  rfl

/-- On arguments that were read, converting between radices is converting to the decimal number and
then from it. -/
theorem close_across {source target : Radix} {a : Argument} {as : List Argument}
    (h : ∀ a ∈ as, IsPlaces a) :
    Function.close ((across source target).onArguments (convert source target) (a :: as)) =
      Function.close ((outOfDecimal target).onArguments (ofDecimal target)
        (.ofValue (Function.close ((intoDecimal source).onArguments
          (fun args => .number <$> toDecimal source args) [a])) :: as)) := by
  cases ha : a.value.error? with
  | some e =>
    rw [onArguments_error rfl ha, onArguments_error rfl ha]
    exact (congrArg Function.close (onArguments_error rfl rfl)).symm
  | none =>
    have has : ∀ a ∈ as, a.value.error? = none := fun a ha => (h a ha).1
    obtain ⟨places, hplaces⟩ := placesOf_eq_ok h
    have hinto : (intoDecimal source).onArguments (fun args => .number <$> toDecimal source args)
        [a] = .ofResult (.number <$> Float.ofInt <$> decode source (a :: as)) :=
      Function.onArguments_of_ok (by simpa using ha)
    rw [hinto, Function.onArguments_of_ok (List.forall_mem_cons.2 ⟨ha, has⟩), convert]
    cases hn : decode source (a :: as) with
    | error e => exact (congrArg Function.close (onArguments_error rfl rfl)).symm
    | ok n =>
      have hbound := Radix.natAbs_lt_of_holds (decode_eq_ok hn)
      have hnumber : Function.close (.number (Float.ofInt n)) = .number (Float.ofInt n) :=
        if_pos (Number.isFinite_ofInt hbound)
      change Function.close (.ofResult (placesOf (a :: as) >>= encode target n)) =
        Function.close ((outOfDecimal target).onArguments (ofDecimal target)
          (.ofValue (Function.close (.number (Float.ofInt n))) :: as))
      rw [hnumber, Function.onArguments_of_ok (List.forall_mem_cons.2 ⟨rfl, has⟩),
        ofDecimal_ofInt hbound hplaces, hplaces]
      rfl

/-- A call of a function of values on a first operand and others. -/
theorem run_call_cons {f : Function} {g : Option Position → List Argument → Result Value}
    (hbody : f.body = .values g) {o : Operand} {os : List Operand}
    (hcount : f.acceptsCount (o :: os).length = true) (position : Option Position) :
    f.call position (o :: os) = (o.argument f.category >>= fun a =>
      Function.readOperands f.category os >>= fun as =>
        .done (Function.close (f.onArguments (g position) (a :: as)))) := by
  rw [Function.call, if_pos hcount, hbody]
  dsimp only
  rw [Function.readOperands_cons, Query.bind_assoc]
  congr 1
  funext a
  rw [Query.bind_assoc]
  rfl

theorem close_intoDecimal_ne (source : Radix) (args : List Argument) (r : Reference) :
    Function.close ((intoDecimal source).onArguments
      (fun args => .number <$> toDecimal source args) args) ≠ .reference r := by
  intro h
  rw [Function.onArguments] at h
  cases he : (intoDecimal source).blockingError? args with
  | some e =>
    rw [he] at h
    cases h
  | none =>
    rw [he] at h
    cases hx : toDecimal source args with
    | error e =>
      rw [hx] at h
      cases h
    | ok x =>
      rw [hx] at h
      change (if x.isFinite then _ else _) = _ at h
      split at h <;> cases h

theorem argument_given (q : Query Value) (c : Category) :
    (Operand.given q).argument c = q >>= fun v => (Operand.given (.done v)).argument c := rfl

theorem argument_done {v : Value} (hv : ∀ r, v ≠ .reference r) (c : Category) :
    (Operand.given (.done v)).argument c = .done (.ofValue v) := by
  cases v with
  | reference r => exact absurd rfl (hv r)
  | _ => rfl

/-- The argument that a decimal number becomes. -/
theorem argument_intoDecimal {source : Radix} {s : Expr} {o : Operand}
    (hfind : scope.functions.find? (code source ++ "2DEC") = some (intoDecimal source))
    (ho : ∀ rest, operands scope (s :: rest) = o :: operands scope rest) :
    (Operand.given (evaluate scope (.call (code source ++ "2DEC") [s]))).argument .engineering =
      (o.argument .engineering >>= fun a =>
        .done (.ofValue (Function.close ((intoDecimal source).onArguments
          (fun args => .number <$> toDecimal source args) [a])))) := by
  rw [argument_given, evaluate_call hfind, ho, run_call_cons rfl rfl, Query.bind_assoc]
  congr 1
  funext a
  exact argument_done (close_intoDecimal_ne source [a]) .engineering

/-- A formula that converts between two radices comes to what the formula does that converts to the
decimal number and then from it. -/
theorem evaluate_across {source target : Radix} {cells : Source} {s : Expr} {places : List Expr}
    (hne : source ≠ target)
    (hfind : ∀ name ∈ [code source ++ "2" ++ code target, code source ++ "2DEC",
      "DEC2" ++ code target], scope.functions.find? name = Registry.find? builtins name)
    (hplaces : ∀ p ∈ places, ∀ w, p.Reads scope cells w → ∃ x, w.toNumber = .ok x) :
    (evaluate scope (.call (code source ++ "2" ++ code target) (s :: places))).run cells =
      (evaluate scope (.call ("DEC2" ++ code target)
        (.call (code source ++ "2DEC") [s] :: places))).run cells := by
  have hacross := (hfind _ (by simp)).trans (find?_across hne)
  have hinto := (hfind _ (by simp)).trans (find?_intoDecimal source)
  have hout := (hfind _ (by simp)).trans (find?_outOfDecimal target)
  rw [evaluate_call hacross, evaluate_call hout]
  obtain ⟨o, -, ho⟩ := operands_cons scope s
  have hcall : operands scope (.call (code source ++ "2DEC") [s] :: places) =
      .given (evaluate scope (.call (code source ++ "2DEC") [s])) :: operands scope places := rfl
  rw [ho, hcall]
  have hcount (p : Operand) :
      (outOfDecimal target).acceptsCount (p :: operands scope places).length =
        (across source target).acceptsCount (o :: operands scope places).length := rfl
  cases haccepts : (across source target).acceptsCount (o :: operands scope places).length with
  | false =>
    rw [Function.call, Function.call, hcount, haccepts]
    rfl
  | true =>
    have hcategory : (outOfDecimal target).category = .engineering := rfl
    rw [run_call_cons rfl haccepts, run_call_cons rfl ((hcount _).trans haccepts), hcategory,
      argument_intoDecimal hinto ho, Query.bind_assoc]
    apply Query.run_bind_congr
    intro a ha
    apply Query.run_bind_congr
    intro as has
    exact congrArg (fun v => (Query.done v).run cells)
      (close_across (isPlaces_of_read hplaces has))

/-- Numerals in two's complement go back and forth. What a number of the radix is encoded as, with
any places that are accepted, is decoded as the number. Up to ten digits in any letter case are
decoded, with white space around them, and the number is encoded as these digits in capitals,
without zeros in front of them unless it is negative; then they are ten. Converting from one radix
to another is converting to the decimal number and then from it, whatever is converted, with the
same failures and the same unknown functions noted, if the number of places is left out or a
number. -/
theorem numerals_complement :
    (∀ (radix : Radix) (n : Int), radix.holds n = true →
      (∃ v, encode radix n none = .ok v) ∧
      ∀ (places : Option Float) (v : Value) (args : List Argument),
        encode radix n places = .ok v → valueAt args 0 = .ok v → decode radix args = .ok n) ∧
    (∀ (radix : Radix) (text : String) (args : List Argument),
      valueAt args 0 = .ok (.text text) →
      ((∃ n, decode radix args = .ok n) ↔ (Unicode.trim text.toList).length ≤ 10 ∧
        ∀ c ∈ Unicode.trim text.toList, (digitIn? radix.base c).isSome = true) ∧
      ∀ n, decode radix args = .ok n →
        encode radix n none = .ok (.text (String.ofList
          (if n < 0 then Unicode.upper (Unicode.trim text.toList)
          else stripZeros (Unicode.upper (Unicode.trim text.toList))))) ∧
        (n < 0 → (Unicode.trim text.toList).length = 10)) ∧
    ∀ (scope : Scope) (cells : Source) (source target : Radix) (s : Expr) (places : List Expr),
      source ≠ target →
      (∀ name ∈ [code source ++ "2" ++ code target, code source ++ "2DEC", "DEC2" ++ code target],
        scope.functions.find? name = Registry.find? builtins name) →
      (∀ p ∈ places, ∀ w, p.Reads scope cells w → ∃ x, w.toNumber = .ok x) →
      (evaluate scope (.call (code source ++ "2" ++ code target) (s :: places))).run cells =
        (evaluate scope (.call ("DEC2" ++ code target)
          (.call (code source ++ "2DEC") [s] :: places))).run cells := by
  have hdecode {radix : Radix} {text : String} {args : List Argument} {n : Int}
      (h : valueAt args 0 = .ok (.text text)) :
      decode radix args = .ok n ↔ radix.decode? text.toList = some n := by
    rw [decode_text h]
    cases radix.decode? text.toList with
    | none => exact ⟨nofun, nofun⟩
    | some m => exact ⟨fun h => congrArg some (Except.ok.inj h), fun h => by rw [h]; rfl⟩
  refine ⟨?_, ?_, ?_⟩
  · intro radix n hholds
    refine ⟨⟨_, encode_none hholds⟩, fun places v args hv hargs => ?_⟩
    obtain ⟨s, rfl, hs⟩ := decode?_of_encode hv
    exact (hdecode hargs).2 hs
  · intro radix text args hargs
    constructor
    · rw [← Radix.isSome_decode?_iff, Option.isSome_iff_exists]
      exact exists_congr fun n => hdecode hargs
    · intro n hn
      have hread := (hdecode hargs).1 hn
      obtain ⟨hdigits, hten⟩ := Radix.encode_of_decode? hread
      rw [encode_none (Radix.holds_of_decode? hread), hdigits]
      exact ⟨rfl, hten⟩
  · intro scope cells source target s places hne hfind hplaces
    exact evaluate_across hne hfind hplaces

theorem numerals_complement_hexadecimal :
    (∃ v, encode .hexadecimal (-1) none = .ok v ∧
      decode .hexadecimal [.ofValue v] = .ok (-1)) ∧
    encode .hexadecimal 255 none = .ok (.text "FF") ∧
    (evaluate ((Engine.new .zero [] []).scope none)
      (.call "BIN2HEX" [.literal (.text "1010"), .literal (.number 4)])).run Source.zero =
      (evaluate ((Engine.new .zero [] []).scope none)
        (.call "DEC2HEX" [.call "BIN2DEC" [.literal (.text "1010")],
          .literal (.number 4)])).run Source.zero := by
  obtain ⟨hback, hforth, hacross⟩ := numerals_complement
  refine ⟨?_, ?_, ?_⟩
  · obtain ⟨⟨v, hv⟩, hdecode⟩ := hback .hexadecimal (-1) (by decide)
    exact ⟨v, hv, hdecode none v [.ofValue v] hv rfl⟩
  · obtain ⟨-, hdigits⟩ := hforth .hexadecimal " 0ff " [.ofValue (.text " 0ff ")] rfl
    exact (hdigits 255 rfl).1
  · refine hacross _ _ .binary .hexadecimal _ [.literal (.number 4)] (by decide)
      (fun _ _ => rfl) ?_
    intro p hp w hw
    rw [List.mem_singleton.1 hp] at hw
    cases hw
    exact ⟨4, rfl⟩

end Numeral

end Spreadsheet
