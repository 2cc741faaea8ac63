import Spreadsheet.Engine
import Spreadsheet.Proofs.Lexing.Characters
import Spreadsheet.Proofs.Numerals.Wholes

/-!
Roman numerals. The texts that fall into groups are just those that are written for the natural
numbers, and what is added up of their letters is the number, however the letters are read.
-/

namespace Spreadsheet

namespace Number

/-! ### Writing -/

/-- The letters that a digit is written with in a place. -/
def RomanPlace.digit (p : RomanPlace) : Nat → List Char
  | 0 => []
  | 1 => [p.one]
  | 2 => [p.one, p.one]
  | 3 => [p.one, p.one, p.one]
  | 4 => [p.one, p.five]
  | 5 => [p.five]
  | 6 => [p.five, p.one]
  | 7 => [p.five, p.one, p.one]
  | 8 => [p.five, p.one, p.one, p.one]
  | _ => [p.one, p.ten]

/-- The Roman numeral of a number. -/
def toRoman (n : Nat) : List Char :=
  List.replicate (n / 1000) 'M' ++ (RomanPlace.hundreds.digit (n / 100 % 10) ++
    (RomanPlace.tens.digit (n / 10 % 10) ++ RomanPlace.units.digit (n % 10)))

/-- What a letter stands for by itself. -/
def letterValue : Char → Nat
  | 'M' => 1000
  | 'D' => 500
  | 'C' => 100
  | 'L' => 50
  | 'X' => 10
  | 'V' => 5
  | 'I' => 1
  | _ => 0

/-- The sum of the letters, of which those before a greater one are subtracted. -/
def subtractive : List Char → Int
  | c :: d :: rest =>
    (if letterValue c < letterValue d then -(letterValue c : Int) else letterValue c) +
      subtractive (d :: rest)
  | [c] => letterValue c
  | [] => 0

/-! ### Groups -/

namespace RomanPlace

variable {p : RomanPlace} {cs rest : List Char}

theorem mem_groups_iff : cs ∈ p.groups ↔ ∃ d < 10, cs = p.digit d := by
  have hdigits : ∀ d, d ∈ [5, 6, 7, 8, 0, 1, 2, 3, 9, 4] ↔ d < 10 := by
    intro d
    simp only [List.mem_cons, List.not_mem_nil, or_false]
    omega
  change cs ∈ [5, 6, 7, 8, 0, 1, 2, 3, 9, 4].map p.digit ↔ _
  simp only [List.mem_map, hdigits, eq_comm]

theorem mem_rests_iff : rest ∈ p.rests cs ↔ ∃ d < 10, cs = p.digit d ++ rest := by
  simp only [rests, List.mem_map, List.mem_filter, List.isPrefixOf_iff_prefix, mem_groups_iff]
  constructor
  · rintro ⟨_, ⟨⟨d, hd, rfl⟩, t, rfl⟩, rfl⟩
    exact ⟨d, hd, by rw [List.drop_left]⟩
  · rintro ⟨d, hd, rfl⟩
    exact ⟨_, ⟨⟨d, hd, rfl⟩, List.prefix_append _ _⟩, List.drop_left⟩

end RomanPlace

theorem mem_afterThousands_iff {cs rest : List Char} :
    rest ∈ afterThousands cs ↔ ∃ k, cs = List.replicate k 'M' ++ rest := by
  fun_induction afterThousands cs with
  | case1 cs ih =>
    rw [List.mem_cons, ih]
    constructor
    · rintro (rfl | ⟨k, rfl⟩)
      · exact ⟨0, rfl⟩
      · exact ⟨k + 1, rfl⟩
    · rintro ⟨k, hk⟩
      cases k with
      | zero => exact .inl hk.symm
      | succ k => exact .inr ⟨k, (List.cons.inj hk).2⟩
  | case2 cs hne =>
    rw [List.mem_singleton]
    constructor
    · rintro rfl
      exact ⟨0, rfl⟩
    · rintro ⟨k, hk⟩
      cases k with
      | zero => exact hk.symm
      | succ k => exact absurd hk (hne _)

/-- The numerals are the texts that are written for numbers. -/
theorem isRoman_iff {cs : List Char} : isRoman cs = true ↔ ∃ n, cs = toRoman n := by
  simp only [isRoman, List.any_eq_true, List.mem_flatMap, mem_afterThousands_iff,
    RomanPlace.mem_rests_iff, List.isEmpty_iff]
  constructor
  · rintro ⟨_, ⟨_, ⟨_, ⟨_, ⟨k, rfl⟩, h, hh, rfl⟩, t, ht, rfl⟩, u, hu, rfl⟩, rfl⟩
    refine ⟨1000 * k + 100 * h + 10 * t + u, ?_⟩
    have hthousands : (1000 * k + 100 * h + 10 * t + u) / 1000 = k := by omega
    have hhundreds : (1000 * k + 100 * h + 10 * t + u) / 100 % 10 = h := by omega
    have htens : (1000 * k + 100 * h + 10 * t + u) / 10 % 10 = t := by omega
    have hunits : (1000 * k + 100 * h + 10 * t + u) % 10 = u := by omega
    rw [toRoman, hthousands, hhundreds, htens, hunits, List.append_nil]
  · rintro ⟨n, rfl⟩
    refine ⟨[], ⟨_, ⟨_, ⟨_, ⟨n / 1000, rfl⟩, n / 100 % 10, ?_, rfl⟩, n / 10 % 10, ?_, rfl⟩,
      n % 10, ?_, (List.append_nil _).symm⟩, rfl⟩ <;> omega

/-! ### Values -/

/-- The next letter, if there is one, stands for at most so much. -/
def HeadLe (n : Nat) (cs : List Char) : Prop := ∀ c ∈ cs.head?, letterValue c ≤ n

theorem headLe_cons {n : Nat} {c : Char} (h : letterValue c ≤ n) (cs : List Char) :
    HeadLe n (c :: cs) := by
  intro d hd
  cases hd
  exact h

/-- A way to add up letters that takes a group of a place for its digit, if only letters of lower
places come next. -/
structure Adds (f : List Char → Int) (p : RomanPlace) (n : Nat) : Prop where
  one : ∀ cs, HeadLe n cs → f (p.one :: cs) = n + f cs
  five : ∀ cs, HeadLe n cs → f (p.five :: cs) = 5 * n + f cs
  four : ∀ cs, HeadLe (n / 2) cs → f (p.one :: p.five :: cs) = 4 * n + f cs
  nine : ∀ cs, HeadLe (n / 2) cs → f (p.one :: p.ten :: cs) = 9 * n + f cs

/-- The letters of a place stand for one, five and ten of its units. -/
structure RomanPlace.Counts (p : RomanPlace) (n : Nat) : Prop where
  one : letterValue p.one = n
  five : letterValue p.five = 5 * n
  ten : letterValue p.ten = 10 * n

variable {f : List Char → Int} {p : RomanPlace} {n d : Nat} {rest : List Char}

theorem Adds.digit (h : Adds f p n) (hp : p.Counts n) (hd : d < 10) (hrest : HeadLe (n / 2) rest) :
    f (p.digit d ++ rest) = d * n + f rest := by
  have hlow : HeadLe n rest := fun c hc => Nat.le_trans (hrest c hc) (Nat.div_le_self n 2)
  have hone (cs : List Char) : HeadLe n (p.one :: cs) := headLe_cons (Nat.le_of_eq hp.one) cs
  have h1 := h.one rest hlow
  have h2 := h.one _ (hone rest)
  have h3 := h.one _ (hone (p.one :: rest))
  match d, hd with
  | 0, _ => simp [RomanPlace.digit]
  | 1, _ => simpa [RomanPlace.digit] using h1
  | 2, _ => 
    change f (p.one :: p.one :: rest) = _
    omega
  | 3, _ =>
    change f (p.one :: p.one :: p.one :: rest) = _
    omega
  | 4, _ => exact h.four rest hrest
  | 5, _ => exact h.five rest hlow
  | 6, _ =>
    have h5 := h.five _ (hone rest)
    change f (p.five :: p.one :: rest) = _
    omega
  | 7, _ =>
    have h5 := h.five _ (hone (p.one :: rest))
    change f (p.five :: p.one :: p.one :: rest) = _
    omega
  | 8, _ =>
    have h5 := h.five _ (hone (p.one :: p.one :: rest))
    change f (p.five :: p.one :: p.one :: p.one :: rest) = _
    omega
  | 9, _ => exact h.nine rest hrest

/-- A digit of a place starts with a one or a five of it. -/
theorem RomanPlace.Counts.head_digit (h : p.Counts n) (hd : d < 10) (hrest : HeadLe (n / 2) rest) :
    HeadLe (10 * n / 2) (p.digit d ++ rest) := by
  have hone (cs : List Char) : HeadLe (10 * n / 2) (p.one :: cs) :=
    headLe_cons (by rw [h.one]; omega) cs
  have hfive (cs : List Char) : HeadLe (10 * n / 2) (p.five :: cs) :=
    headLe_cons (by rw [h.five]; omega) cs
  match d, hd with
  | 0, _ => exact fun c hc => Nat.le_trans (hrest c hc) (by omega)
  | 1, _ | 2, _ | 3, _ | 4, _ | 9, _ => exact hone _
  | 5, _ | 6, _ | 7, _ | 8, _ => exact hfive _

theorem counts_hundreds : RomanPlace.hundreds.Counts 100 := ⟨rfl, rfl, rfl⟩

theorem counts_tens : RomanPlace.tens.Counts 10 := ⟨rfl, rfl, rfl⟩

theorem counts_units : RomanPlace.units.Counts 1 := ⟨rfl, rfl, rfl⟩

/-- Letters that are added up place by place come to the number that they are written for. -/
theorem sum_toRoman (hnil : f [] = 0) (hthousand : ∀ cs, f ('M' :: cs) = 1000 + f cs)
    (hhundreds : Adds f .hundreds 100) (htens : Adds f .tens 10) (hunits : Adds f .units 1)
    (n : Nat) : f (toRoman n) = n := by
  have hreplicate (k : Nat) (cs : List Char) :
      f (List.replicate k 'M' ++ cs) = 1000 * k + f cs := by
    induction k with
    | zero => simp
    | succ k ih =>
      rw [List.replicate_succ, List.cons_append, hthousand, ih]
      omega
  have hu : HeadLe (1 / 2) [] := fun c hc => nomatch hc
  have ht := counts_units.head_digit (Nat.mod_lt n (by decide)) hu
  have hh := counts_tens.head_digit (Nat.mod_lt (n / 10) (by decide)) ht
  have hsum := hunits.digit counts_units (Nat.mod_lt n (by decide)) hu
  rw [List.append_nil, hnil] at hsum
  rw [List.append_nil] at ht hh
  rw [toRoman, hreplicate, hhundreds.digit counts_hundreds (Nat.mod_lt _ (by decide)) hh,
    htens.digit counts_tens (Nat.mod_lt _ (by decide)) ht, hsum]
  omega

theorem adds_subtractive (h : p.Counts n) (hn : 0 < n) : Adds subtractive p n := by
  have hcons {c : Char} {m : Nat} (hc : letterValue c = m) (cs : List Char) (hcs : HeadLe m cs) :
      subtractive (c :: cs) = m + subtractive cs := by
    cases cs with
    | nil => simp [subtractive, hc]
    | cons d cs => rw [subtractive, hc, if_neg (Nat.not_lt.2 (hcs d rfl))]
  have hless {c d : Char} (hlt : letterValue c < letterValue d) (cs : List Char) :
      subtractive (c :: d :: cs) = -letterValue c + subtractive (d :: cs) := by
    rw [subtractive, if_pos hlt]
  have hle {k m : Nat} {cs : List Char} (hcs : HeadLe k cs) (hkm : k ≤ m) : HeadLe m cs :=
    fun c hc => Nat.le_trans (hcs c hc) hkm
  constructor
  · exact hcons h.one
  · intro cs hcs
    exact_mod_cast hcons h.five cs (hle hcs (by omega))
  · intro cs hcs
    rw [hless (by rw [h.one, h.five]; omega), hcons h.five cs (hle hcs (by omega)), h.one]
    omega
  · intro cs hcs
    rw [hless (by rw [h.one, h.ten]; omega), hcons h.ten cs (hle hcs (by omega)), h.one]
    omega

theorem subtractive_toRoman (n : Nat) : subtractive (toRoman n) = n := by
  refine sum_toRoman rfl (fun cs => ?_) (adds_subtractive counts_hundreds (by decide))
    (adds_subtractive counts_tens (by decide)) (adds_subtractive counts_units (by decide)) n
  have hmost (c : Char) : letterValue c ≤ letterValue 'M' := by
    change letterValue c ≤ 1000
    unfold letterValue
    split <;> decide
  cases cs with
  | nil => rfl
  | cons c cs => rw [subtractive, if_neg (Nat.not_lt.2 (hmost c))]; rfl

/-- A pair of letters is never taken from a group and what comes after it. -/
theorem adds_romanSum
    (h : p = .hundreds ∧ n = 100 ∨ p = .tens ∧ n = 10 ∨ p = .units ∧ n = 1) :
    Adds (fun cs => romanSum cs) p n := by
  constructor
  · intro cs hcs
    cases cs with
    | nil => rcases h with ⟨rfl, rfl⟩ | ⟨rfl, rfl⟩ | ⟨rfl, rfl⟩ <;> rfl
    | cons c cs =>
      have hc := hcs c rfl
      rcases h with ⟨rfl, rfl⟩ | ⟨rfl, rfl⟩ | ⟨rfl, rfl⟩
      all_goals
        dsimp only [RomanPlace.hundreds, RomanPlace.tens, RomanPlace.units]
        rw [romanSum, Nat.cast_add]
        all_goals
          rintro rest ⟨⟩
          exact absurd hc (by decide)
  all_goals
    intro cs _
    rcases h with ⟨rfl, rfl⟩ | ⟨rfl, rfl⟩ | ⟨rfl, rfl⟩
    all_goals
      dsimp only [RomanPlace.hundreds, RomanPlace.tens, RomanPlace.units]
      rw [romanSum, Nat.cast_add]
      rfl

theorem romanSum_toRoman (n : Nat) : romanSum (toRoman n) = n := by
  have hsum := sum_toRoman (f := fun cs => romanSum cs) rfl
    (fun cs => by rw [romanSum]; exact Nat.cast_add _ _) (adds_romanSum (by simp))
    (adds_romanSum (by simp)) (adds_romanSum (by simp)) n
  exact Int.ofNat_inj.1 hsum

theorem ofRoman?_toRoman (n : Nat) : ofRoman? (toRoman n) = some (UInt32.ofNat n) := by
  rw [ofRoman?, if_pos (isRoman_iff.2 ⟨n, rfl⟩), romanSum_toRoman]

theorem ofRoman?_eq_none {cs : List Char} (h : ∀ n, cs ≠ toRoman n) : ofRoman? cs = none := by
  rw [ofRoman?, if_neg]
  intro hroman
  obtain ⟨n, hn⟩ := isRoman_iff.1 hroman
  exact h n hn

/-! ### Capitals -/

theorem isUpper_of_mem_toRoman {c : Char} (h : c ∈ toRoman n) : c.isUpper = true := by
  have hdigit {p : RomanPlace} (hone : p.one.isUpper = true) (hfive : p.five.isUpper = true)
      (hten : p.ten.isUpper = true) (d : Nat) (hc : c ∈ p.digit d) : c.isUpper = true := by
    unfold RomanPlace.digit at hc
    split at hc <;> simp only [List.mem_cons, List.not_mem_nil, or_false] at hc
    all_goals rcases hc with rfl | rfl | rfl | rfl <;> assumption
  simp only [toRoman, List.mem_append, List.mem_replicate] at h
  rcases h with ⟨-, rfl⟩ | h | h | h
  · rfl
  · exact hdigit rfl rfl rfl _ h
  · exact hdigit rfl rfl rfl _ h
  · exact hdigit rfl rfl rfl _ h

theorem upper_toRoman (n : Nat) : Unicode.upper (toRoman n) = toRoman n := by
  have hself : ∀ c ∈ toRoman n, Unicode.upperChar c = [c] :=
    fun c hc => of_isUpper (P := fun c => Unicode.upperChar c = [c]) (isUpper_of_mem_toRoman hc)
      (by decide)
  rw [Unicode.upper, List.flatMap_congr hself, List.flatMap_singleton']

end Number

/-! ### Calls -/

namespace Numeral

open Number (toRoman ofRoman? romanSum subtractive)

variable {scope : Scope} {source : Source} {text : Expr} {t : String}

theorem arabic_eq {args : List Argument} (hargs : AreArguments args [.text t]) :
    arabic args = (orError .value (ofRoman? (Unicode.upper t.toList))).map fun n =>
      Float.ofNat n.toNat := by
  rw [arabic, hargs.textAt rfl]
  dsimp only [bind, Except.bind]
  cases orError ErrorValue.value (ofRoman? (Unicode.upper t.toList)) <;> rfl

theorem evaluates_call_arabic
    (hfind : scope.functions.find? "ARABIC" = Registry.find? builtins "ARABIC")
    (htext : text.Reads scope source (.text t)) {r : Result Float}
    (h : ((orError .value (ofRoman? (Unicode.upper t.toList))).map fun n =>
      Float.ofNat n.toNat) = r) :
    (Expr.call "ARABIC" [text]).Evaluates scope source
      (Function.close (.ofResult (r.map Value.number))) := by
  have hfind : scope.functions.find? "ARABIC" =
      some (.ofNumbers "ARABIC" .math 1 (some 1) arabic) := hfind
  exact evaluates_call hfind rfl rfl (.cons htext .nil) (by simp [Value.isPlain])
    fun args hargs => congrArg (Except.map Value.number) ((arabic_eq hargs).trans h)

theorem evaluates_arabic (hfind : scope.functions.find? "ARABIC" = Registry.find? builtins "ARABIC")
    (htext : text.Reads scope source (.text t)) {n : Nat}
    (h : Unicode.upper t.toList = toRoman n) (hn : n < 2 ^ 32) :
    (Expr.call "ARABIC" [text]).Evaluates scope source (.number (Float.ofNat n)) := by
  have hcall := evaluates_call_arabic (r := .ok (Float.ofNat n)) hfind htext (by
    rw [h, Number.ofRoman?_toRoman]
    change Except.ok (Float.ofNat (UInt32.ofNat n).toNat) = _
    rw [UInt32.toNat_ofNat_of_lt' hn])
  change (Expr.call "ARABIC" [text]).Evaluates scope source
    (if (Float.ofNat n).isFinite then _ else _) at hcall
  rwa [if_pos (isFinite_ofNat (Nat.le_trans (Nat.le_of_lt hn) (by decide)))] at hcall

theorem evaluates_arabic_error
    (hfind : scope.functions.find? "ARABIC" = Registry.find? builtins "ARABIC")
    (htext : text.Reads scope source (.text t)) (h : ∀ n, Unicode.upper t.toList ≠ toRoman n) :
    (Expr.call "ARABIC" [text]).Evaluates scope source (.error .value) := by
  refine evaluates_call_arabic (r := .error .value) hfind htext ?_
  rw [Number.ofRoman?_eq_none h]
  rfl

/-- `ARABIC` reads just the Roman numerals, in any letter case, each as the number that its letters
come to in the subtractive way, as long as they fit a word of 32 bits. In capitals each number has
one numeral. -/
theorem arabic_bijective
    (hfind : scope.functions.find? "ARABIC" = Registry.find? builtins "ARABIC") :
    (∀ (text : Expr) (t : String), text.Reads scope source (.text t) →
      (∀ n, Unicode.upper t.toList = toRoman n → subtractive (Unicode.upper t.toList) = n ∧
        (n < 2 ^ 32 →
          (Expr.call "ARABIC" [text]).Evaluates scope source (.number (Float.ofNat n)))) ∧
      ((∀ n, Unicode.upper t.toList ≠ toRoman n) →
        (Expr.call "ARABIC" [text]).Evaluates scope source (.error .value))) ∧
    ∀ n < 2 ^ 32, ∃! t : String, Unicode.upper t.toList = t.toList ∧ romanSum t.toList < 2 ^ 32 ∧
      (Expr.call "ARABIC" [.literal (.text t)]).Evaluates scope source
        (.number (Float.ofNat n)) := by
  refine ⟨fun text t htext => ⟨fun n h => ⟨?_, evaluates_arabic hfind htext h⟩,
    evaluates_arabic_error hfind htext⟩, fun n hn => ?_⟩
  · rw [h, Number.subtractive_toRoman]
  · have hlist : (String.ofList (toRoman n)).toList = toRoman n := String.toList_ofList
    refine ⟨String.ofList (toRoman n), ⟨?_, ?_, ?_⟩, ?_⟩
    · rw [hlist, Number.upper_toRoman]
    · rwa [hlist, Number.romanSum_toRoman]
    · exact evaluates_arabic hfind (Expr.reads_text _) (by rw [hlist, Number.upper_toRoman]) hn
    · rintro t ⟨hupper, hsum, hvalue⟩
      have htext : (Expr.literal (.text t)).Reads scope source (.text t) := Expr.reads_text t
      by_cases hroman : ∃ m, Unicode.upper t.toList = toRoman m
      · obtain ⟨m, hm⟩ := hroman
        have hm' : m < 2 ^ 32 := by rwa [← hupper, hm, Number.romanSum_toRoman] at hsum
        have hvalue' := evaluates_arabic hfind htext hm hm'
        have heq : Float.ofNat n = Float.ofNat m :=
          Value.number.inj (Except.ok.inj (hvalue.symm.trans hvalue'))
        have hnm := congrArg Number.toNat64 heq
        rw [Number.toNat64_whole (by omega), Number.toNat64_whole (by omega)] at hnm
        rw [hnm, ← hm, hupper, String.ofList_toList]
      · have herror := evaluates_arabic_error hfind htext fun m hm => hroman ⟨m, hm⟩
        cases hvalue.symm.trans herror

theorem arabic_bijective_mixed :
    (subtractive "MCMXCIV".toList = 1994 ∧
      (Expr.call "ARABIC" [.literal (.text "mCmxciv")]).Evaluates
        ((Engine.new .zero [] []).scope none) Source.zero (.number 1994)) ∧
    (Expr.call "ARABIC" [.literal (.text "IVI")]).Evaluates
      ((Engine.new .zero [] []).scope none) Source.zero (.error .value) ∧
    ∃! t : String, Unicode.upper t.toList = t.toList ∧ romanSum t.toList < 2 ^ 32 ∧
      (Expr.call "ARABIC" [.literal (.text t)]).Evaluates
        ((Engine.new .zero [] []).scope none) Source.zero (.number 1994) := by
  obtain ⟨hread, hone⟩ :=
    @arabic_bijective ((Engine.new .zero [] []).scope none) Source.zero rfl
  obtain ⟨hvalue, hnumber⟩ := (hread (.literal (.text "mCmxciv")) _ rfl).1 1994 (by decide)
  refine ⟨⟨hvalue, hnumber (by decide)⟩, ?_, hone 1994 (by decide)⟩
  refine (hread (.literal (.text "IVI")) _ rfl).2 fun n hn => ?_
  have hroman := Number.isRoman_iff.2 ⟨n, hn⟩
  exact absurd hroman (by decide)

end Numeral

end Spreadsheet
