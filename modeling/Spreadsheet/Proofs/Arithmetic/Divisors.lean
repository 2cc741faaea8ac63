import Spreadsheet.Proofs.Arithmetic.Calls
import Spreadsheet.Proofs.Evaluation.Collect

/-!
Common divisors and common multiples of whole operands. A least common multiple is built up in a
float. The multiples on the way divide the last one, so that none of them is rounded as long as
that is at most `2 ^ 53`. Beyond, the order of the operands can matter.
-/

namespace Spreadsheet

variable {scope : Scope} {source : Source} {blank n : Nat} {ns ms : List Nat} {es es' : List Expr}
  {args : List Argument} {vs : List Value} {v : Value} {o : Option Nat} {os : List (Option Nat)}
  {x : Float} {q : ℚ}

namespace Arithmetic

open Number (toNat64 within)

/-! ### Operands -/

theorem represents_maxOperand : Represents maxOperand (2 ^ 53 - 2 : Nat) := by
  have h : Represents (Float.ofNat 9007199254740990) (9007199254740990 : Nat) :=
    represents_ofNat (by decide)
  exact h

/-- The whole operand that a value is. There is none if its number is out of range. -/
inductive Counts (blank : Nat) : Value → Option Nat → Prop
  | inside {x : Float} {q : ℚ} : Represents x q → 0 ≤ q → q ≤ (2 ^ 53 - 2 : Nat) →
    Counts blank (.number x) (some ⌊q⌋₊)
  | outside {x : Float} : (∀ q, Represents x q → q < 0 ∨ (2 ^ 53 - 2 : Nat) < q) →
    Counts blank (.number x) none
  | text {s : String} {x : Float} {o : Option Nat} : s ≠ "" → Number.read? s = some x →
    Counts blank (.number x) o → Counts blank (.text s) o
  | empty : Counts blank .empty (some blank)
  | emptyText : Counts blank (.text "") (some blank)

theorem within_iff (hx : Represents x q) :
    within 0 maxOperand x = true ↔ 0 ≤ q ∧ q ≤ (2 ^ 53 - 2 : Nat) := by
  rw [within, Bool.and_eq_true, decide_eq_true_iff, decide_eq_true_iff,
    represents_zero_literal.le_iff hx, hx.le_iff represents_maxOperand]

theorem isFinite_of_within (h : within 0 maxOperand x = true) : x.isFinite = true := by
  rw [within, Bool.and_eq_true, decide_eq_true_iff, decide_eq_true_iff] at h
  exact represents_zero_literal.isFinite_of_le represents_maxOperand h.1 h.2

theorem floor_lt (hq : 0 ≤ q) (hle : q ≤ (2 ^ 53 - 2 : Nat)) : ⌊q⌋₊ < 2 ^ 53 := by
  have hcast : (⌊q⌋₊ : ℚ) ≤ (2 ^ 53 - 2 : Nat) := (Nat.floor_le hq).trans hle
  have hnat : ⌊q⌋₊ ≤ 2 ^ 53 - 2 := by exact_mod_cast hcast
  omega

theorem wholeOperand_of_counts (h : Counts blank v o) :
    wholeOperand blank v = orError .num o := by
  have hnumber {x : Float} {o : Option Nat} (h : Counts blank (.number x) o) :
      (if within 0 maxOperand x then .ok (toNat64 x) else .error .num) =
        (orError .num o : Result Nat) := by
    cases h with
    | inside hx h0 hle =>
      have hlarge : (2 ^ 53 - 2 : Nat) ≤ (2 : ℚ) ^ 53 := by norm_num
      rw [if_pos ((within_iff hx).2 ⟨h0, hle⟩),
        Number.toNat64_of_represents hx h0 (hle.trans hlarge)]
      rfl
    | outside hout =>
      rw [if_neg]
      · rfl
      · intro hwithin
        obtain ⟨q, hq⟩ := exists_represents (isFinite_of_within hwithin)
        have hrange := (within_iff hq).1 hwithin
        rcases hout q hq with hlt | hlt
        · exact hlt.not_ge hrange.1
        · exact hlt.not_ge hrange.2
  cases h with
  | inside hx h0 hle => exact hnumber (.inside hx h0 hle)
  | outside hout => exact hnumber (.outside hout)
  | @text s x o hs hread h =>
    have hempty : s.isEmpty = false := by
      rw [Bool.eq_false_iff, Ne, String.isEmpty_iff]
      exact hs
    rw [wholeOperand, hempty, hread]
    exact hnumber h
  | empty => rfl
  | emptyText => rfl

/-- One operand that is out of range is enough. -/
theorem mapM_wholeOperand (h : List.Forall₂ (Counts blank) vs os) :
    vs.mapM (wholeOperand blank) = orError .num (os.mapM id) := by
  induction h with
  | nil => rfl
  | @cons v o vs os hv _ ih =>
    rw [List.mapM_cons, List.mapM_cons, ih, wholeOperand_of_counts hv]
    cases o with
    | none => rfl
    | some n => cases os.mapM id <;> rfl

theorem mapM_id_some (ns : List Nat) : (ns.map some).mapM id = some ns := by
  induction ns with
  | nil => rfl
  | cons n ns ih =>
    rw [List.map_cons, List.mapM_cons, ih]
    rfl

theorem mapM_id_none (h : none ∈ os) : os.mapM id = none := by
  induction os with
  | nil => cases h
  | cons o os ih =>
    rw [List.mapM_cons]
    cases o with
    | none => rfl
    | some n =>
      rw [ih ((List.mem_cons.1 h).resolve_left nofun)]
      rfl

theorem wholeOperands_eq (h : AreArguments args vs) :
    wholeOperands blank args = (vs.flatMap Value.elements).mapM (wholeOperand blank) := by
  have hcollect : wholeOperands blank args = collect (wholeOf blank) args := flatten_mapM _ args
  obtain ⟨rfl, hgiven⟩ := h
  rw [hcollect]
  clear hcollect
  induction args with
  | nil => rfl
  | cons a args ih =>
    obtain ⟨ha, hgiven⟩ := List.forall_mem_cons.1 hgiven
    rw [List.map_cons, List.flatMap_cons, List.mapM_append, collect, ih hgiven, wholeOf, ha]
    rfl

/-! ### Divisors -/

theorem foldl_gcd_eq (ns : List Nat) : ns.foldl Nat.gcd 0 = (ns : Multiset Nat).gcd :=
  (Multiset.coe_fold_l Nat.gcd 0 ns).symm

theorem gcd_le (h : ∀ n ∈ ns, n < 2 ^ 53) : (ns : Multiset Nat).gcd < 2 ^ 53 := by
  by_cases hzero : ∀ n ∈ ns, n = 0
  · rw [(Multiset.gcd_eq_zero_iff _).2 hzero]
    decide
  · push Not at hzero
    obtain ⟨n, hn, hne⟩ := hzero
    have hdvd : (ns : Multiset Nat).gcd ∣ n := Multiset.gcd_dvd hn
    exact (Nat.le_of_dvd (Nat.pos_of_ne_zero hne) hdvd).trans_lt (h n hn)

/-! ### Multiples -/

theorem foldl_lcm_eq (ns : List Nat) : ns.foldl Nat.lcm 1 = (ns : Multiset Nat).lcm :=
  (Multiset.coe_fold_l Nat.lcm 1 ns).symm

theorem dvd_foldl_lcm (m : Nat) (ns : List Nat) : m ∣ ns.foldl Nat.lcm m := by
  induction ns generalizing m with
  | nil => exact dvd_rfl
  | cons n ns ih => exact (Nat.dvd_lcm_left m n).trans (ih _)

theorem foldl_lcm_pos {m : Nat} (hm : 0 < m) (h : ∀ n ∈ ns, 0 < n) : 0 < ns.foldl Nat.lcm m := by
  induction ns generalizing m with
  | nil => exact hm
  | cons n ns ih =>
    obtain ⟨hn, hns⟩ := List.forall_mem_cons.1 h
    exact ih (Nat.lcm_pos hm hn) hns

/-- A step is not rounded if its result is at most `2 ^ 53`. -/
theorem lcmStep_eq {m : Nat} (hm : 0 < m) (hn : 0 < n) (hle : m.lcm n ≤ 2 ^ 53) :
    lcmStep (Float.ofNat m) n = Float.ofNat (m.lcm n) := by
  have hpos : 0 < m.lcm n := Nat.lcm_pos hm hn
  have hm' : m ≤ 2 ^ 53 := (Nat.le_of_dvd hpos (Nat.dvd_lcm_left m n)).trans hle
  have hn' : n ≤ 2 ^ 53 := (Nat.le_of_dvd hpos (Nat.dvd_lcm_right m n)).trans hle
  have hproduct : m / m.gcd n * n = m.lcm n :=
    Nat.div_mul_right_comm (Nat.gcd_dvd_left m n) n
  rw [lcmStep, Number.toNat64_whole hm', ofNat_mul hn hn' (by rwa [hproduct]), hproduct]

/-- The multiples on the way divide the last one, so they are not rounded either. -/
theorem foldl_lcmStep {m : Nat} (hm : 0 < m) (h : ∀ n ∈ ns, 0 < n)
    (hle : ns.foldl Nat.lcm m ≤ 2 ^ 53) :
    ns.foldl lcmStep (Float.ofNat m) = Float.ofNat (ns.foldl Nat.lcm m) := by
  induction ns generalizing m with
  | nil => rfl
  | cons n ns ih =>
    obtain ⟨hn, hns⟩ := List.forall_mem_cons.1 h
    have hpos : 0 < m.lcm n := Nat.lcm_pos hm hn
    rw [List.foldl_cons] at hle ⊢
    have hstep : m.lcm n ≤ 2 ^ 53 :=
      (Nat.le_of_dvd (foldl_lcm_pos hpos hns) (dvd_foldl_lcm _ ns)).trans hle
    rw [List.foldl_cons, lcmStep_eq hm hn hstep]
    exact ih hpos hns hle

/-- The multiple of two operands is one rounded product, in either order. -/
theorem lcmStep_comm {a b : Nat} (ha : 0 < a) (hb : 0 < b) (ha' : a < 2 ^ 53) (hb' : b < 2 ^ 53) :
    lcmStep (Float.ofNat a) b = lcmStep (Float.ofNat b) a := by
  have hproduct {a b : Nat} (ha : 0 < a) (hb : 0 < b) (ha' : a < 2 ^ 53) (hb' : b < 2 ^ 53) :
      IsRounding (lcmStep (Float.ofNat a) b) (a.lcm b) := by
    have hquotient : a / a.gcd b ≤ 2 ^ 53 := (Nat.div_le_self _ _).trans ha'.le
    have hmul := (represents_ofNat hquotient).mul (represents_ofNat hb'.le)
    rw [← Nat.cast_mul, Nat.div_mul_right_comm (Nat.gcd_dvd_left a b) b] at hmul
    rw [lcmStep, Number.toNat64_whole ha'.le]
    exact hmul
  have hcomm := hproduct hb ha hb' ha'
  rw [Nat.lcm_comm] at hcomm
  refine (hproduct ha hb ha' hb').eq_of_one_le hcomm ?_ ?_
  · exact_mod_cast Nat.lcm_pos ha hb
  · have hle : a.lcm b ≤ 2 ^ 53 * 2 ^ 53 :=
      (Nat.div_le_self _ _).trans (Nat.mul_le_mul ha'.le hb'.le)
    calc (a.lcm b : ℚ) ≤ 2 ^ 53 * 2 ^ 53 := by exact_mod_cast hle
      _ = 2 ^ (106 : Int) := by norm_num
      _ ≤ 2 ^ (1023 : Int) := zpow_le_zpow_right₀ one_le_two (by decide)

/-- The multiple of these operands as a float. -/
def multipleOf (ns : List Nat) : Float := if ns.contains 0 then 0 else ns.foldl lcmStep 1

theorem multipleOf_zero (h : 0 ∈ ns) : multipleOf ns = 0 :=
  if_pos (List.contains_iff_mem.2 h)

theorem multipleOf_pos (h : ∀ n ∈ ns, 0 < n) : multipleOf ns = ns.foldl lcmStep 1 :=
  if_neg (mt List.contains_iff_mem.1 fun hzero => (h 0 hzero).false)

theorem zero_mem_or_pos (ns : List Nat) : 0 ∈ ns ∨ ∀ n ∈ ns, 0 < n := by
  by_cases h : 0 ∈ ns
  · exact .inl h
  · exact .inr fun n hn => Nat.pos_of_ne_zero fun hzero => h (hzero ▸ hn)

theorem multipleOf_eq (hle : (ns : Multiset Nat).lcm ≤ 2 ^ 53) :
    multipleOf ns = Float.ofNat (ns : Multiset Nat).lcm := by
  rcases zero_mem_or_pos ns with h | h
  · rw [multipleOf_zero h, (Multiset.lcm_eq_zero_iff _).2 h]
    rfl
  · rw [← foldl_lcm_eq] at hle ⊢
    rw [multipleOf_pos h]
    exact foldl_lcmStep Nat.one_pos h hle

/-- Up to two operands may stand in either order. -/
theorem multipleOf_perm (hperm : ms.Perm ns) (h : ∀ n ∈ ns, n < 2 ^ 53) (hlength : ns.length ≤ 2) :
    multipleOf ms = multipleOf ns := by
  rcases zero_mem_or_pos ns with hzero | hpos
  · rw [multipleOf_zero hzero, multipleOf_zero (hperm.mem_iff.2 hzero)]
  · match ns, hlength with
    | [], _ => rw [hperm.eq_nil]
    | [a], _ => rw [List.perm_singleton.1 hperm]
    | [a, b], _ =>
      have hone {n : Nat} (hn : n ∈ [a, b]) : lcmStep 1 n = Float.ofNat n := by
        have hstep := lcmStep_eq Nat.one_pos (hpos n hn)
          (by rw [Nat.lcm_one_left]; exact (h n hn).le)
        rwa [Nat.lcm_one_left] at hstep
      have ha : a ∈ [a, b] := List.mem_cons_self
      have hb : b ∈ [a, b] := List.mem_cons_of_mem a List.mem_cons_self
      obtain rfl | rfl := List.perm_pair.1 hperm
      · rfl
      · rw [multipleOf_pos hpos, multipleOf_pos fun n hn => hpos n (hperm.mem_iff.1 hn)]
        change lcmStep (lcmStep 1 b) a = lcmStep (lcmStep 1 a) b
        rw [hone ha, hone hb]
        exact lcmStep_comm (hpos b hb) (hpos a ha) (h b hb) (h a ha)

/-! ### Calls -/

/-- The elements of the values of the arguments are in this relation to a list. -/
def Gathers (scope : Scope) (source : Source) {β : Type} (R : Value → β → Prop) (es : List Expr)
    (xs : List β) : Prop :=
  ∃ vs, List.Forall₂ (Expr.Reads scope source) es vs ∧ (∀ v ∈ vs, v.isPlain = true) ∧
    List.Forall₂ R (vs.flatMap Value.elements) xs

/-- The arguments have these whole operands. -/
def Operands (scope : Scope) (source : Source) (blank : Nat) (es : List Expr) (ns : List Nat) :
    Prop := Gathers scope source (fun v n => Counts blank v (some n)) es ns

theorem Gathers.perm {β : Type} {R : Value → β → Prop} {xs : List β}
    (h : Gathers scope source R es xs) (hperm : es'.Perm es) :
    ∃ ys, ys.Perm xs ∧ Gathers scope source R es' ys := by
  obtain ⟨vs, hreads, hplain, hxs⟩ := h
  obtain ⟨ws, hreads', hvs⟩ := List.perm_comp_forall₂ hperm hreads
  obtain ⟨ys, hys, hperm'⟩ :=
    List.perm_comp_forall₂ (hvs.flatMap fun v _ => List.Perm.refl v.elements) hxs
  exact ⟨ys, hperm', ws, hreads', fun v hv => hplain v (hvs.mem_iff.1 hv), hys⟩

theorem Operands.lt (h : Operands scope source blank es ns) (hblank : blank < 2 ^ 53) :
    ∀ n ∈ ns, n < 2 ^ 53 := by
  have hcounts {v : Value} {n : Nat} (h : Counts blank v (some n)) : n < 2 ^ 53 := by
    generalize ho : some n = o at h
    induction h with
    | inside hx h0 hle =>
      cases ho
      exact floor_lt h0 hle
    | outside hout => cases ho
    | text hs hread h ih => exact ih ho
    | empty | emptyText =>
      cases ho
      exact hblank
  obtain ⟨vs, -, -, hns⟩ := h
  generalize vs.flatMap Value.elements = ws at hns
  induction hns with
  | nil => exact List.forall_mem_nil _
  | cons hv _ ih => exact List.forall_mem_cons.2 ⟨hcounts hv, ih⟩

theorem Operands.gathers (h : Operands scope source blank es ns) :
    Gathers scope source (Counts blank) es (ns.map some) := by
  obtain ⟨vs, hreads, hplain, hns⟩ := h
  exact ⟨vs, hreads, hplain, List.forall₂_map_right_iff.2 hns⟩

section

variable {name : String} {g : List Argument → Result Float} {result : Result Float}

theorem evaluates_gathered
    (hfind : scope.functions.find? name = some (.ofNumbers name .math 1 none g)) (hne : es ≠ [])
    (h : Gathers scope source (Counts blank) es os)
    (hg : ∀ args, wholeOperands blank args = orError .num (os.mapM id) → g args = result) :
    (Expr.call name es).Evaluates scope source
      (Function.close (.ofResult (Value.number <$> result))) := by
  obtain ⟨vs, hreads, hplain, hos⟩ := h
  have hcount : (Function.ofNumbers name .math 1 none g).acceptsCount es.length = true := by
    rw [Function.acceptsCount, Bool.and_eq_true, decide_eq_true_iff]
    exact ⟨List.length_pos_iff.2 hne, rfl⟩
  refine evaluates_call hfind rfl hcount hreads hplain fun args hargs =>
    congrArg (Value.number <$> ·) (hg args ?_)
  rw [wholeOperands_eq hargs, mapM_wholeOperand hos]

theorem evaluates_outside
    (hfind : scope.functions.find? name = some (.ofNumbers name .math 1 none g)) (hne : es ≠ [])
    (h : Gathers scope source (Counts blank) es os) (hout : none ∈ os)
    (hg : ∀ args, wholeOperands blank args = .error .num → g args = .error .num) :
    (Expr.call name es).Evaluates scope source (.error .num) := by
  refine evaluates_gathered hfind hne h fun args hargs => hg args ?_
  rwa [mapM_id_none hout] at hargs

end

theorem gcd_eq (h : wholeOperands 0 args = .ok ns) :
    gcd args = .ok (Float.ofNat (ns : Multiset Nat).gcd) := by
  rw [gcd, h, ← foldl_gcd_eq]
  rfl

theorem lcm_eq (h : wholeOperands 1 args = .ok ns) : lcm args = .ok (multipleOf ns) := by
  rw [lcm, h]
  rfl

theorem evaluates_gcd (hfind : scope.functions.find? "GCD" = Registry.find? builtins "GCD")
    (hne : es ≠ []) (h : Operands scope source 0 es ns) :
    (Expr.call "GCD" es).Evaluates scope source
      (.number (Float.ofNat (ns : Multiset Nat).gcd)) := by
  have hgcd (args : List Argument)
      (hargs : wholeOperands 0 args = orError .num ((ns.map some).mapM id)) :
      gcd args = .ok (Float.ofNat (ns : Multiset Nat).gcd) := by
    rw [mapM_id_some] at hargs
    exact gcd_eq hargs
  have hcall := evaluates_gathered hfind hne h.gathers hgcd
  have hfinite := isFinite_ofNat (gcd_le (h.lt (by decide))).le
  change (Expr.call "GCD" es).Evaluates scope source (if _ then _ else _) at hcall
  rwa [if_pos hfinite] at hcall

theorem evaluates_lcm (hfind : scope.functions.find? "LCM" = Registry.find? builtins "LCM")
    (hne : es ≠ []) (h : Operands scope source 1 es ns) :
    (Expr.call "LCM" es).Evaluates scope source (Function.close (.number (multipleOf ns))) :=
  evaluates_gathered hfind hne h.gathers fun args hargs => lcm_eq (by
    rwa [mapM_id_some] at hargs)

/-- `GCD` is the greatest common divisor of its operands, and `LCM` the least common multiple if
that is at most `2 ^ 53`, which is 0 if an operand is 0. For `GCD` the order of the arguments makes
no difference. Nor does it for `LCM` in these cases, or if there are two operands at most. One
operand that is out of range makes both `#NUM!`, whatever the others are. -/
theorem common_divisors_multiples
    (hgcd : scope.functions.find? "GCD" = Registry.find? builtins "GCD")
    (hlcm : scope.functions.find? "LCM" = Registry.find? builtins "LCM") (hne : es ≠ []) :
    (∀ ns es', Operands scope source 0 es ns → es'.Perm es →
      (ns : Multiset Nat).gcd < 2 ^ 53 ∧ (Expr.call "GCD" es').Evaluates scope source
        (.number (Float.ofNat (ns : Multiset Nat).gcd))) ∧
    (∀ ns es', Operands scope source 1 es ns → es'.Perm es →
      (0 ∈ ns → (Expr.call "LCM" es').Evaluates scope source (.number 0)) ∧
      ((ns : Multiset Nat).lcm ≤ 2 ^ 53 → (Expr.call "LCM" es').Evaluates scope source
        (.number (Float.ofNat (ns : Multiset Nat).lcm))) ∧
      (ns.length ≤ 2 → ∃ v, (Expr.call "LCM" es).Evaluates scope source v ∧
        (Expr.call "LCM" es').Evaluates scope source v)) ∧
    ∀ os, none ∈ os →
      (Gathers scope source (Counts 0) es os →
        (Expr.call "GCD" es).Evaluates scope source (.error .num)) ∧
      (Gathers scope source (Counts 1) es os →
        (Expr.call "LCM" es).Evaluates scope source (.error .num)) := by
  have hne' {es' : List Expr} (hperm : es'.Perm es) : es' ≠ [] := by
    rintro rfl
    exact hne hperm.nil_eq.symm
  refine ⟨fun ns es' h hperm => ?_, fun ns es' h hperm => ?_,
    fun os hout => ⟨fun h => ?_, fun h => ?_⟩⟩
  · obtain ⟨ms, hms, h'⟩ := h.perm hperm
    have hcall := evaluates_gcd hgcd (hne' hperm) h'
    rw [Multiset.coe_eq_coe.2 hms] at hcall
    exact ⟨gcd_le (h.lt (by decide)), hcall⟩
  · obtain ⟨ms, hms, h'⟩ := h.perm hperm
    have hcall := evaluates_lcm hlcm (hne' hperm) h'
    refine ⟨fun hzero => ?_, fun hle => ?_, fun hlength => ?_⟩
    · rw [multipleOf_zero (hms.mem_iff.2 hzero)] at hcall
      exact hcall
    · rw [multipleOf_eq (by rwa [Multiset.coe_eq_coe.2 hms]), Multiset.coe_eq_coe.2 hms] at hcall
      change (Expr.call "LCM" es').Evaluates scope source (if _ then _ else _) at hcall
      rwa [if_pos (isFinite_ofNat hle)] at hcall
    · rw [multipleOf_perm hms (h.lt (by decide)) hlength] at hcall
      exact ⟨_, evaluates_lcm hlcm hne h, hcall⟩
  · exact evaluates_outside hgcd hne h hout fun args hargs => by
      rw [gcd, hargs]
      rfl
  · exact evaluates_outside hlcm hne h hout fun args hargs => by
      rw [lcm, hargs]
      rfl

theorem counts_ofNat (h : n ≤ 2 ^ 53 - 2) : Counts blank (.number (Float.ofNat n)) (some n) := by
  have hinside : Counts blank (.number (Float.ofNat n)) (some ⌊(n : ℚ)⌋₊) :=
    .inside (represents_ofNat (by omega)) (Nat.cast_nonneg n) (by exact_mod_cast h)
  rwa [Nat.floor_natCast] at hinside

/-- A whole number written in a formula. -/
def literal (n : Nat) : Expr := .literal (.number (Float.ofNat n))

theorem operands_literals (h : ∀ n ∈ ns, n ≤ 2 ^ 53 - 2) :
    Operands scope source blank (ns.map literal) ns := by
  refine ⟨ns.map fun n => .number (Float.ofNat n), ?_, ?_, ?_⟩
  · rw [List.forall₂_map_left_iff, List.forall₂_map_right_iff, List.forall₂_same]
    exact fun n _ => rfl
  · intro v hv
    obtain ⟨n, -, rfl⟩ := List.mem_map.1 hv
    rfl
  · rw [List.flatMap_map]
    change List.Forall₂ _ (ns.flatMap fun n => [Value.number (Float.ofNat n)]) ns
    rw [← List.map_eq_flatMap, List.forall₂_map_left_iff, List.forall₂_same]
    exact fun n hn => counts_ofNat (h n hn)

theorem common_divisors_multiples_array :
    let scope := (Engine.new .zero [] []).scope none
    let es : List Expr := [.literal (.number 12), .array [[.number 18, .number 30]]]
    (Expr.call "GCD" es.reverse).Evaluates scope Source.zero (.number 6) ∧
      (Expr.call "LCM" es.reverse).Evaluates scope Source.zero (.number 180) ∧
      (Expr.call "LCM" [.literal (.number 0), .literal (.number (Float.ofInt (-1)))]).Evaluates
        scope Source.zero (.error .num) := by
  intro scope es
  have hoperands (blank : Nat) : Operands scope Source.zero blank es [12, 18, 30] :=
    ⟨[.number 12, .array [[.number 18, .number 30]]], .cons rfl (.cons rfl .nil), by decide,
      .cons (counts_ofNat (by decide)) (.cons (counts_ofNat (by decide))
        (.cons (counts_ofNat (by decide)) .nil))⟩
  have hgcd : scope.functions.find? "GCD" = Registry.find? builtins "GCD" := rfl
  have hlcm : scope.functions.find? "LCM" = Registry.find? builtins "LCM" := rfl
  have houtside : Gathers scope Source.zero (Counts 1)
      [.literal (.number 0), .literal (.number (Float.ofInt (-1)))] [some 0, none] := by
    refine ⟨[.number 0, .number (Float.ofInt (-1))], .cons rfl (.cons rfl .nil), by decide,
      .cons (counts_ofNat (Nat.zero_le _)) (.cons (.outside fun q hq => .inl ?_) .nil)⟩
    rw [hq.unique (represents_ofInt (n := -1) (by decide))]
    decide
  have hne : es ≠ [] := by decide
  have hne' : [Expr.literal (.number 0), .literal (.number (Float.ofInt (-1)))] ≠ [] := by decide
  obtain ⟨hdivisor, hmultiple, -⟩ := common_divisors_multiples hgcd hlcm hne
  obtain ⟨-, -, hout⟩ := common_divisors_multiples hgcd hlcm hne'
  obtain ⟨-, hsix⟩ := hdivisor _ _ (hoperands 0) es.reverse_perm
  obtain ⟨-, hproduct, -⟩ := hmultiple _ _ (hoperands 1) es.reverse_perm
  exact ⟨hsix, hproduct (by decide), (hout _ (by decide)).2 houtside⟩

/-- Beyond `2 ^ 53` the order of three operands can matter: the product of the two odd ones is
rounded to an even number, so that 2 adds nothing behind it. -/
theorem not_lcm_permuted :
    ¬ ∀ (scope : Scope) (source : Source) (es es' : List Expr) (ns : List Nat) (v : Value),
      scope.functions.find? "LCM" = Registry.find? builtins "LCM" → es ≠ [] →
      Operands scope source 1 es ns → es'.Perm es →
      (Expr.call "LCM" es).Evaluates scope source v →
      (Expr.call "LCM" es').Evaluates scope source v := by
  intro h
  obtain ⟨scope, hbuiltins⟩ := exists_scope
  have hfind := hbuiltins "LCM"
  let first : List Nat := [94906267, 94906269, 2]
  let second : List Nat := [2, 94906267, 94906269]
  have hfirst : Operands scope Source.zero 1 (first.map literal) first :=
    operands_literals (by decide)
  have hsecond : Operands scope Source.zero 1 (second.map literal) second :=
    operands_literals (by decide)
  have hperm : (second.map literal).Perm (first.map literal) :=
    List.Perm.map literal (by decide)
  have hcall := evaluates_lcm hfind (by decide) hfirst
  have hcall' := evaluates_lcm hfind (by decide) hsecond
  rw [Function.close, if_pos (by decide +kernel)] at hcall hcall'
  have hsame := h scope Source.zero _ _ _ _ hfind (by decide) hfirst hperm hcall
  have hne : multipleOf second ≠ multipleOf first := by decide +kernel
  rw [Expr.Evaluates, hcall'] at hsame
  injection hsame with hsame
  injection hsame with hsame
  exact hne hsame

end Arithmetic

end Spreadsheet
