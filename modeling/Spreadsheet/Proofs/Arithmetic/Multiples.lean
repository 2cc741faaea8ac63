import Spreadsheet.Proofs.Arithmetic.Calls

/-!
Rounding whole numbers to multiples. The quotient by the significance is rounded, but not to or past
another whole number, so that the multiple that is found is the nearest one on its side.
-/

namespace Spreadsheet

open Number (ceilingTo floorTo timesIn largestRounded isWhole)

variable {scope : Scope} {source : Source} {a b : Float} {x r : Int} {s : Nat}

/-! ### Nearest multiples -/

theorem sub_le_of_dvd_of_lt {k : Int} (hr : (s : Int) ∣ r) (hk : (s : Int) ∣ k) (hlt : k < r) :
    k ≤ r - s := by
  have hle : (s : Int) ≤ r - k := Int.le_of_dvd (by omega) (dvd_sub hr hk)
  omega

theorem isLeast_of_lt (hr : (s : Int) ∣ r) (hle : x ≤ r) (hlt : r < x + s) :
    IsLeast {k : Int | (s : Int) ∣ k ∧ x ≤ k} r := by
  refine ⟨⟨hr, hle⟩, fun k hk => ?_⟩
  obtain ⟨hdvd, hxk⟩ := hk
  by_contra hkr
  have hstep := sub_le_of_dvd_of_lt hr hdvd (not_le.1 hkr)
  omega

theorem isGreatest_of_lt (hr : (s : Int) ∣ r) (hle : r ≤ x) (hlt : x < r + s) :
    IsGreatest {k : Int | (s : Int) ∣ k ∧ k ≤ x} r := by
  refine ⟨⟨hr, hle⟩, fun k hk => ?_⟩
  obtain ⟨hdvd, hkx⟩ := hk
  by_contra hrk
  have hstep := sub_le_of_dvd_of_lt hdvd hr (not_le.1 hrk)
  omega

/-- One multiple below the least one that is not below. -/
theorem isGreatest_sub (hs : 0 < s) (h : IsLeast {k : Int | (s : Int) ∣ k ∧ x ≤ k} r) :
    IsGreatest {k : Int | (s : Int) ∣ k ∧ k < x} (r - s) := by
  obtain ⟨⟨hr, hxr⟩, hleast⟩ := h
  refine ⟨⟨dvd_sub hr dvd_rfl, ?_⟩, fun k hk => sub_le_of_dvd_of_lt hr hk.1 (hk.2.trans_le hxr)⟩
  by_contra hle
  have hstep := hleast ⟨dvd_sub hr dvd_rfl, not_lt.1 hle⟩
  omega

/-- One multiple above the greatest one that is not above. -/
theorem isLeast_add (hs : 0 < s) (h : IsGreatest {k : Int | (s : Int) ∣ k ∧ k ≤ x} r) :
    IsLeast {k : Int | (s : Int) ∣ k ∧ x < k} (r + s) := by
  obtain ⟨⟨hr, hrx⟩, hgreatest⟩ := h
  refine ⟨⟨dvd_add hr dvd_rfl, ?_⟩, fun k hk => ?_⟩
  · by_contra hle
    have hstep := hgreatest ⟨dvd_add hr dvd_rfl, not_lt.1 hle⟩
    omega
  · have hstep := sub_le_of_dvd_of_lt hk.1 hr (hrx.trans_lt hk.2)
    omega

/-! ### Steps on floats -/

theorem Represents.abs_whole (ha : Represents a x) : Represents a.abs x.natAbs := by
  have habs := ha.abs
  rwa [← Int.cast_abs, Int.abs_eq_natAbs, Int.cast_natCast] at habs

/-- A whole number and a significance, with room for one more multiple below `2 ^ 53`. -/
structure Roundable (a b : Float) (x : Int) (s : Nat) : Prop where
  number : Represents a x
  significance : Represents b s
  pos : 0 < s
  number_le : x.natAbs ≤ 2 ^ 50
  significance_le : s ≤ 2 ^ 50

namespace Roundable

theorem significance_abs (h : Roundable a b x s) : Represents b.abs s := by
  have habs := h.significance.abs
  rwa [Nat.abs_cast] at habs

theorem abs_quotient (x : Int) (s : Nat) : |(x : ℚ) / s| = x.natAbs / s := by
  rw [abs_div, Nat.abs_cast, ← Int.cast_abs, Int.abs_eq_natAbs, Int.cast_natCast]

theorem quotient_le (h : Roundable a b x s) : |(x : ℚ) / s| ≤ 2 ^ (1023 : Int) := by
  have hone : (1 : ℚ) ≤ s := by exact_mod_cast h.pos
  have hx : (x.natAbs : ℚ) ≤ 2 ^ 53 := by exact_mod_cast h.number_le.trans (by decide)
  rw [abs_quotient]
  exact ((div_le_self (Nat.cast_nonneg _) hone).trans hx).trans two_pow_le_bound

theorem timesIn (h : Roundable a b x s) : Represents (timesIn a b) (x.natAbs / s : Nat) := by
  have hs : (s : ℚ) ≠ 0 := by exact_mod_cast h.pos.ne'
  have hmost := h.significance_le
  have hx := h.number_le
  have hrounding := h.number.abs_whole.div h.significance_abs hs
  rw [← abs_quotient] at hrounding
  obtain ⟨w, hw, hquotient⟩ := hrounding.exists_of_le (by rw [abs_abs]; exact h.quotient_le)
  have hfloor := Number.represents_floor hquotient (hw.nonneg (abs_nonneg _))
  rw [abs_quotient] at hw
  rwa [hw.floor_of_quotient h.pos (by omega) (by omega)] at hfloor

/-- Whether the quotient is whole is seen from what it is rounded to. -/
theorem isWhole_iff (h : Roundable a b x s) : isWhole (a / b) = true ↔ (s : Int) ∣ x := by
  have hs : (s : ℚ) ≠ 0 := by exact_mod_cast h.pos.ne'
  have hmost := h.significance_le
  have hx := h.number_le
  obtain ⟨w, hw, hquotient⟩ := (h.number.div h.significance hs).exists_of_le h.quotient_le
  rw [Number.isWhole_iff hquotient]
  constructor
  · rintro ⟨n, rfl⟩
    have hmagnitude := hw.abs
    rw [abs_quotient] at hmagnitude
    have hmul := hmagnitude.eq_mul_of_quotient h.pos (by omega) (by omega) (n := n.natAbs)
      (by rw [← Int.cast_abs, Int.abs_eq_natAbs, Int.cast_natCast])
    exact Int.natCast_dvd.2 (Dvd.intro_left _ hmul.symm)
  · rintro ⟨q, rfl⟩
    have hexact : ((s * q : Int) : ℚ) / s = q := by
      rw [Int.cast_mul, Int.cast_natCast, mul_div_cancel_left₀ _ hs]
    rw [Int.natAbs_mul, Int.natAbs_natCast] at hx
    have hle : q.natAbs ≤ 2 ^ 53 :=
      (Nat.le_mul_of_pos_left _ h.pos).trans (hx.trans (by decide))
    rw [hexact] at hw
    exact ⟨q, hw.eq_of_fewDigits (.intCast hle)⟩

theorem not_largestRounded_le (h : Roundable a b x s) : ¬largestRounded ≤ a := by
  obtain ⟨v, hv⟩ := exists_represents (show largestRounded.isFinite = true by decide +kernel)
  have hmost : Represents (Float.ofNat (2 ^ 50)) (2 ^ 50 : Nat) := represents_ofNat (by decide)
  have hlarge : Float.ofNat (2 ^ 50) < largestRounded := by decide +kernel
  have hx : (x : ℚ) ≤ (2 ^ 50 : Nat) := by
    have hle := h.number_le
    exact_mod_cast (show x ≤ (2 ^ 50 : Nat) by omega)
  rw [hmost.lt_iff hv] at hlarge
  rw [hv.le_iff h.number, not_le]
  exact hx.trans_lt hlarge

theorem number_neg (h : Roundable a b x s) : a < 0 ↔ x < 0 := by
  rw [h.number.lt_iff represents_zero_literal]
  exact_mod_cast Iff.rfl

theorem not_significance_neg (h : Roundable a b x s) : ¬b < 0 := by
  rw [h.significance.lt_iff represents_zero_literal, not_lt]
  exact Nat.cast_nonneg s

theorem significance_beq (h : Roundable a b x s) : (b == 0) = false := by
  rw [Bool.eq_false_iff, Ne, h.significance.beq_iff represents_zero_literal]
  exact_mod_cast h.pos.ne'

theorem timesIn_add (h : Roundable a b x s) :
    Represents (Number.timesIn a b + 1) (x.natAbs / s + 1 : Nat) := by
  have hle := Nat.div_le_self x.natAbs s
  have hx := h.number_le
  exact h.timesIn.add_nat represents_one (by omega)

theorem significance_mul {y : Float} {n : Nat} (h : Roundable a b x s) (hy : Represents y n)
    (hn : s * n ≤ 2 ^ 53) : Represents (y * b.abs) ((s * n : Nat) : Int) ∧
      Represents (-b.abs * y) ((-(s * n : Nat) : Int)) := by
  constructor
  · refine IsRounding.whole ?_ (by rwa [Int.natAbs_natCast])
    have hmul := hy.mul h.significance_abs
    rw [mul_comm] at hmul
    exact_mod_cast hmul
  · refine IsRounding.whole ?_ (by rwa [Int.natAbs_neg, Int.natAbs_natCast])
    have hmul := h.significance_abs.neg.mul hy
    rw [neg_mul] at hmul
    exact_mod_cast hmul

/-- The magnitude of a number that is no multiple is between two of them. -/
theorem multiple_lt (h : Roundable a b x s) (hdvd : ¬(s : Int) ∣ x) :
    s * (x.natAbs / s) < x.natAbs ∧ x.natAbs < s * (x.natAbs / s) + s := by
  constructor
  · refine lt_of_le_of_ne (Nat.mul_div_le _ _) fun heq => hdvd ?_
    exact Int.natCast_dvd.2 (Dvd.intro _ heq)
  · exact Nat.lt_mul_div_succ x.natAbs h.pos

/-- The multiple of either sign that is next to the number toward zero. -/
theorem exists_inner (h : Roundable a b x s) (hdvd : ¬(s : Int) ∣ x) :
    ∃ r : Int, (s : Int) ∣ r ∧ r < x.natAbs ∧ x.natAbs < r + s ∧
      Represents (Number.timesIn a b * b.abs) r ∧
      Represents (-b.abs * Number.timesIn a b) (-r : Int) := by
  obtain ⟨hlow, hhigh⟩ := h.multiple_lt hdvd
  have hmost : s * (x.natAbs / s) ≤ 2 ^ 53 := hlow.le.trans (h.number_le.trans (by decide))
  obtain ⟨hmul, hneg⟩ := h.significance_mul h.timesIn hmost
  exact ⟨(s * (x.natAbs / s) : Nat), by simp, by omega, by omega, hmul, hneg⟩

/-- The multiple of either sign that is next to the number away from zero. -/
theorem exists_outer (h : Roundable a b x s) (hdvd : ¬(s : Int) ∣ x) :
    ∃ r : Int, (s : Int) ∣ r ∧ x.natAbs < r ∧ r < x.natAbs + s ∧
      Represents ((Number.timesIn a b + 1) * b.abs) r ∧
      Represents (-b.abs * (Number.timesIn a b + 1)) (-r : Int) := by
  obtain ⟨hlow, hhigh⟩ := h.multiple_lt hdvd
  have hx := h.number_le
  have hs := h.significance_le
  obtain ⟨hmul, hneg⟩ := h.significance_mul h.timesIn_add (by rw [Nat.mul_succ]; omega)
  rw [Nat.mul_succ] at hmul hneg
  exact ⟨(s * (x.natAbs / s) + s : Nat), by simp, by omega, by omega, hmul, hneg⟩

/-- The least multiple that is not below the number. -/
theorem ceilingTo (h : Roundable a b x s) : ∃ y r, ceilingTo a b = some y ∧ Represents y (r : Int) ∧
    IsLeast {k : Int | (s : Int) ∣ k ∧ x ≤ k} r ∧ (r = x → y = a) := by
  rw [Number.ceilingTo, if_neg h.not_largestRounded_le, h.significance_beq,
    if_neg Bool.false_ne_true]
  by_cases hdvd : (s : Int) ∣ x
  · rw [if_pos (h.isWhole_iff.2 hdvd)]
    exact ⟨a, x, rfl, h.number, ⟨⟨hdvd, le_rfl⟩, fun k hk => hk.2⟩, fun _ => rfl⟩
  rw [if_neg (mt h.isWhole_iff.1 hdvd)]
  by_cases hx : x < 0
  · obtain ⟨r, hr, hlow, hhigh, -, hneg⟩ := h.exists_inner hdvd
    rw [if_pos (h.number_neg.2 hx), if_neg h.not_significance_neg]
    exact ⟨_, -r, rfl, hneg, isLeast_of_lt (dvd_neg.2 hr) (by omega) (by omega),
      fun _ => by omega⟩
  · obtain ⟨r, hr, hlow, hhigh, hmul, -⟩ := h.exists_outer hdvd
    rw [if_neg (mt h.number_neg.1 hx)]
    exact ⟨_, r, rfl, hmul, isLeast_of_lt hr (by omega) (by omega), fun _ => by omega⟩

/-- The greatest multiple that is not above the number. -/
theorem floorTo (h : Roundable a b x s) : ∃ y r, floorTo a b = some y ∧ Represents y (r : Int) ∧
    IsGreatest {k : Int | (s : Int) ∣ k ∧ k ≤ x} r ∧ (r = x → y = a) := by
  have hsigns : ¬(decide (0 < a) && decide (b < 0)) = true := by
    rw [Bool.and_eq_true, decide_eq_true_iff, decide_eq_true_iff]
    exact fun hsigns => h.not_significance_neg hsigns.2
  rw [Number.floorTo, if_neg h.not_largestRounded_le, h.significance_beq,
    if_neg Bool.false_ne_true, if_neg hsigns]
  by_cases hdvd : (s : Int) ∣ x
  · rw [if_pos (h.isWhole_iff.2 hdvd)]
    exact ⟨a, x, rfl, h.number, ⟨⟨hdvd, le_rfl⟩, fun k hk => hk.2⟩, fun _ => rfl⟩
  rw [if_neg (mt h.isWhole_iff.1 hdvd)]
  by_cases hx : x < 0
  · obtain ⟨r, hr, hlow, hhigh, -, hneg⟩ := h.exists_outer hdvd
    rw [if_pos (h.number_neg.2 hx), if_neg h.not_significance_neg]
    exact ⟨_, -r, rfl, hneg, isGreatest_of_lt (dvd_neg.2 hr) (by omega) (by omega),
      fun _ => by omega⟩
  · obtain ⟨r, hr, hlow, hhigh, hmul, -⟩ := h.exists_inner hdvd
    rw [if_neg (mt h.number_neg.1 hx)]
    exact ⟨_, r, rfl, hmul, isGreatest_of_lt hr (by omega) (by omega), fun _ => by omega⟩

/-- The significance may be taken by its magnitude. -/
theorem magnitude (h : Roundable a b x s) : Roundable a b.abs x s :=
  { h with significance := h.significance_abs }

end Roundable

/-! ### Functions -/

/-- The function makes a number with the property of these arguments, and the argument itself if
that has the number. -/
def Finds (f : List Argument → Result Float) (given : List Argument → Prop) (a : Float) (x : Int)
    (P : Int → Prop) : Prop :=
  ∃ y r, P r ∧ Represents y (r : Int) ∧ (r = x → y = a) ∧ ∀ args, given args → f args = .ok y

theorem Finds.of_given {f : List Argument → Result Float} {given given' : List Argument → Prop}
    {P : Int → Prop} (h : Finds f given a x P) (hgiven : ∀ args, given' args → given args) :
    Finds f given' a x P := by
  obtain ⟨y, r, hr, hyr, hsame, hf⟩ := h
  exact ⟨y, r, hr, hyr, hsame, fun args hargs => hf args (hgiven args hargs)⟩

theorem Represents.minus_zero {y : Float} {v : ℚ} (hy : Represents y v) : y - 0 = y := by
  have hsub := hy.sub represents_zero_literal
  rw [sub_zero] at hsub
  have hsame := hsub.represents hy.fewDigits hy.abs_lt
  by_cases hv : v = 0
  · rw [hv] at hy
    obtain rfl | rfl := hy.eq_or_of_zero <;> decide
  · exact hsame.eq_of_ne_zero hy hv

namespace Rounding

variable {m : Float} {args : List Argument}

theorem withMode_eq (h : Roundable a b x s) (hnumber : numberAt args 0 = .ok a)
    (hsignificance : ∀ d, numberAtOr args 1 d = .ok b) (hmode : numberAtOr args 2 0 = .ok m) :
    withMode args = .ok (a, b, m) := by
  rw [withMode, hnumber]
  dsimp only [bind, Except.bind]
  rw [if_neg h.not_largestRounded_le, hsignificance, hmode]
  rfl

theorem withMode_of_two (h : Roundable a b x s)
    (hargs : AreArguments args ([a, b].map Value.number)) : withMode args = .ok (a, b, 0) :=
  withMode_eq h (hargs.numberAt rfl) (fun d => hargs.numberAtOr d) (hargs.numberAtOr 0)

theorem withMode_of_three (h : Roundable a b x s)
    (hargs : AreArguments args ([a, b, m].map Value.number)) : withMode args = .ok (a, b, m) :=
  withMode_eq h (hargs.numberAt rfl) (fun d => hargs.numberAtOr d) (hargs.numberAtOr 0)

theorem ceilingMath_eq {y : Float} (hargs : withMode args = .ok (a, b, m))
    (hy : ceilingTo a b = some y) :
    ceilingMath args = .ok (if 0 ≤ a then y else y - if m != 0 then b else 0) := by
  rw [ceilingMath, hargs]
  dsimp only [bind, Except.bind]
  rw [hy]
  rfl

theorem floorMath_eq {y : Float} (hargs : withMode args = .ok (a, b, m))
    (hy : (if m == 0 || 0 ≤ a then floorTo a b.abs else (floorTo a b).map (· + b)) = some y) :
    floorMath args = .ok y := by
  rw [floorMath, hargs]
  dsimp only [bind, Except.bind]
  split at hy
  · next hm =>
    rw [if_pos hm, hy]
    rfl
  · next hm =>
    obtain ⟨z, hz, rfl⟩ := Option.map_eq_some_iff.1 hy
    rw [if_neg hm, hz]
    rfl

theorem nonneg_iff (h : Roundable a b x s) : 0 ≤ a ↔ 0 ≤ x := by
  rw [represents_zero_literal.le_iff h.number]
  exact_mod_cast Iff.rfl

/-- Beside a number that is not negative, and with mode 0, this is the least multiple that is not
below. -/
theorem finds_ceilingMath (h : Roundable a b x s) (hm : 0 ≤ x ∨ (m == 0) = true) :
    Finds ceilingMath (fun args => withMode args = .ok (a, b, m)) a x
      (IsLeast {k : Int | (s : Int) ∣ k ∧ x ≤ k}) := by
  obtain ⟨y, r, hy, hyr, hr, hsame⟩ := h.ceilingTo
  refine ⟨y, r, hr, hyr, hsame, fun args hargs => ?_⟩
  rw [ceilingMath_eq hargs hy]
  split
  · rfl
  · next ha =>
    have hzero : (m == 0) = true := hm.resolve_left (mt (nonneg_iff h).2 ha)
    rw [bne, hzero]
    exact congrArg Except.ok hyr.minus_zero

/-- Beside a negative number and with another mode this is one multiple further down. -/
theorem finds_ceilingMath_below (h : Roundable a b x s) (hx : x < 0) (hm : (m == 0) = false) :
    Finds ceilingMath (fun args => withMode args = .ok (a, b, m)) a x
      (IsGreatest {k : Int | (s : Int) ∣ k ∧ k < x}) := by
  obtain ⟨y, r, hy, hyr, hr, -⟩ := h.ceilingTo
  have hbelow := isGreatest_sub h.pos hr
  have hsub := hyr.sub h.significance
  have hle : (r - s).natAbs ≤ 2 ^ 53 := by
    have hx' := h.number_le
    have hs := h.significance_le
    have hxr := hr.1.2
    have hstep := hbelow.1.2
    omega
  refine ⟨y - b, r - s, hbelow, ?_, fun heq => absurd heq hbelow.1.2.ne, fun args hargs => ?_⟩
  · apply IsRounding.whole _ hle
    exact_mod_cast hsub
  · rw [ceilingMath_eq hargs hy, if_neg (mt (nonneg_iff h).1 (not_le.2 hx)), bne, hm]
    rfl

theorem finds_floorMath (h : Roundable a b x s) (hm : 0 ≤ x ∨ (m == 0) = true) :
    Finds floorMath (fun args => withMode args = .ok (a, b, m)) a x
      (IsGreatest {k : Int | (s : Int) ∣ k ∧ k ≤ x}) := by
  obtain ⟨y, r, hy, hyr, hr, hsame⟩ := h.magnitude.floorTo
  refine ⟨y, r, hr, hyr, hsame, fun args hargs => floorMath_eq hargs ?_⟩
  rw [if_pos, hy]
  rw [Bool.or_eq_true, decide_eq_true_iff]
  exact hm.symm.imp_right (nonneg_iff h).2

theorem finds_floorMath_above (h : Roundable a b x s) (hx : x < 0) (hm : (m == 0) = false) :
    Finds floorMath (fun args => withMode args = .ok (a, b, m)) a x
      (IsLeast {k : Int | (s : Int) ∣ k ∧ x < k}) := by
  obtain ⟨y, r, hy, hyr, hr, -⟩ := h.floorTo
  have habove := isLeast_add h.pos hr
  have hadd := hyr.add h.significance
  have hle : (r + s).natAbs ≤ 2 ^ 53 := by
    have hx' := h.number_le
    have hs := h.significance_le
    have hxr := hr.1.2
    have hstep := habove.1.2
    omega
  refine ⟨y + b, r + s, habove, ?_, fun heq => absurd heq habove.1.2.ne', fun args hargs => ?_⟩
  · apply IsRounding.whole _ hle
    exact_mod_cast hadd
  · apply floorMath_eq hargs
    rw [if_neg, hy]
    · rfl
    · rw [hm, Bool.false_or, decide_eq_true_iff]
      exact mt (nonneg_iff h).1 (not_le.2 hx)

theorem precise_eq {y : Float} {multiple : Float → Float → Option Float}
    (hnumber : numberAt args 0 = .ok a) (hsignificance : numberAtOr args 1 1 = .ok b)
    (hy : multiple a b.abs = some y) : precise multiple args = .ok y := by
  rw [precise, hnumber]
  dsimp only [bind, Except.bind]
  rw [hsignificance]
  dsimp only
  rw [hy]
  rfl

theorem finds_precise_ceilingTo (h : Roundable a b x s) :
    Finds (precise ceilingTo) (AreArguments · ([a, b].map Value.number)) a x
      (IsLeast {k : Int | (s : Int) ∣ k ∧ x ≤ k}) := by
  obtain ⟨y, r, hy, hyr, hr, hsame⟩ := h.magnitude.ceilingTo
  exact ⟨y, r, hr, hyr, hsame, fun args hargs =>
    precise_eq (hargs.numberAt rfl) (hargs.numberAtOr 1) hy⟩

theorem finds_precise_floorTo (h : Roundable a b x s) :
    Finds (precise floorTo) (AreArguments · ([a, b].map Value.number)) a x
      (IsGreatest {k : Int | (s : Int) ∣ k ∧ k ≤ x}) := by
  obtain ⟨y, r, hy, hyr, hr, hsame⟩ := h.magnitude.floorTo
  exact ⟨y, r, hr, hyr, hsame, fun args hargs =>
    precise_eq (hargs.numberAt rfl) (hargs.numberAtOr 1) hy⟩

end Rounding

/-! ### Calls -/

/-- The function rounds the number that it is called with: the call is a number with the property,
and its argument if that is the number already; so calling the function again changes nothing. -/
def RoundsTo (scope : Scope) (source : Source) (f : Expr → Expr) (number : Expr)
    (P : Int → Prop) : Prop :=
  ∃ y r, P r ∧ Represents y (r : Int) ∧ (f number).Evaluates scope source (.number y) ∧
    (f (f number)).Evaluates scope source (.number y) ∧
    ∀ a, number.Reads scope source (.number a) → Represents a (r : Int) → y = a

/-- The property picks a multiple that is no farther away than the significance. -/
structure Picks (s : Nat) (P : Int → Int → Prop) : Prop where
  unique : ∀ {x r r'}, P x r → P x r' → r = r'
  fixed : ∀ {x r}, P x r → P r r
  nonneg : ∀ {x r}, P x r → 0 ≤ x → 0 ≤ r
  near : ∀ {x r}, P x r → r.natAbs ≤ x.natAbs + s

theorem picks_least (hs : 0 < s) : Picks s fun x => IsLeast {k : Int | (s : Int) ∣ k ∧ x ≤ k} where
  unique h h' := h.unique h'
  fixed h := ⟨⟨h.1.1, le_rfl⟩, fun _ hk => hk.2⟩
  nonneg h hx := hx.trans h.1.2
  near h := by
    have hle := h.1.2
    have hlt := (isGreatest_sub hs h).1.2
    omega

theorem picks_greatest (hs : 0 < s) :
    Picks s fun x => IsGreatest {k : Int | (s : Int) ∣ k ∧ k ≤ x} where
  unique h h' := h.unique h'
  fixed h := ⟨⟨h.1.1, le_rfl⟩, fun _ hk => hk.2⟩
  nonneg h hx := h.2 ⟨dvd_zero _, hx⟩
  near h := by
    have hle := h.1.2
    have hlt := (isLeast_add hs h).1.2
    omega

section

variable {name : String} {c : Category} {lo : Nat} {hi : Option Nat}
  {f : List Argument → Result Float} {number significance mode : Expr} {rest : List Expr}
  {xs : List Float} {P : Int → Int → Prop} {Q : Prop} {m : Float}

theorem roundsTo_of_finds (hfind : scope.functions.find? name = some (.ofNumbers name c lo hi f))
    (hcount : (Function.ofNumbers name c lo hi f).acceptsCount (rest.length + 1) = true)
    (hnumber : number.Reads scope source (.number a))
    (hrest : List.Forall₂ (fun e x => e.Reads scope source (.number x)) rest xs)
    (h : Roundable a b x s) (hle : x.natAbs + s ≤ 2 ^ 50) (hP : Picks s P) (hx : 0 ≤ x ∨ Q)
    (hfinds : ∀ {a x}, Roundable a b x s → 0 ≤ x ∨ Q →
      Finds f (AreArguments · ((a :: xs).map Value.number)) a x (P x)) :
    RoundsTo scope source (fun e => .call name (e :: rest)) number (P x) := by
  have hcall {e : Expr} {a y : Float} (he : e.Reads scope source (.number a))
      (hy : y.isFinite = true)
      (hf : ∀ args, AreArguments args ((a :: xs).map Value.number) → f args = .ok y) :
      (Expr.call name (e :: rest)).Evaluates scope source (.number y) :=
    evaluates_finite hfind hcount (.cons he hrest) hf hy
  obtain ⟨y, r, hr, hyr, hsame, hf⟩ := hfinds h hx
  have honce := hcall hnumber hyr.isFinite hf
  have hround : Roundable y b r s := { h with
    number := hyr
    number_le := (hP.near hr).trans hle }
  obtain ⟨y', r', hr', hyr', hsame', hf'⟩ := hfinds hround (hx.imp_left (hP.nonneg hr))
  have htwice := hcall honce.reads_number hyr'.isFinite hf'
  rw [hsame' (hP.unique hr' (hP.fixed hr))] at htwice
  refine ⟨y, r, hr, hyr, honce, htwice, fun a' ha' hvalue => ?_⟩
  rw [Expr.Reads, hnumber] at ha'
  cases ha'
  exact hsame (by exact_mod_cast hvalue.unique h.number)

/-- A call of three numbers has the one that the function finds. -/
theorem yields_of_finds {P : Int → Prop}
    (hfind : scope.functions.find? name = some (.ofNumbers name .math 1 (some 3) f))
    (hnumber : number.Reads scope source (.number a))
    (hsignificance : significance.Reads scope source (.number b))
    (hmode : mode.Reads scope source (.number m)) (h : Roundable a b x s)
    (hfinds : Finds f (fun args => Rounding.withMode args = .ok (a, b, m)) a x P) :
    ∃ r : Int, P r ∧
      (Expr.call name [number, significance, mode]).Yields scope source r := by
  obtain ⟨y, r, hr, hyr, -, hf⟩ := hfinds
  exact ⟨r, hr, y, hyr, evaluates_finite hfind rfl
    (.cons hnumber (.cons hsignificance (.cons hmode .nil)))
    (fun _ hargs => hf _ (Rounding.withMode_of_three h hargs)) hyr.isFinite⟩

theorem yields_ceilingMath_below
    (hfind : scope.functions.find? "CEILING.MATH" = Registry.find? builtins "CEILING.MATH")
    (hnumber : number.Reads scope source (.number a))
    (hsignificance : significance.Reads scope source (.number b))
    (hmode : mode.Reads scope source (.number m)) (h : Roundable a b x s) (hx : x < 0)
    (hm : (m == 0) = false) :
    ∃ r : Int, IsGreatest {k : Int | (s : Int) ∣ k ∧ k < x} r ∧
      (Expr.call "CEILING.MATH" [number, significance, mode]).Yields scope source r :=
  yields_of_finds (f := Rounding.ceilingMath) hfind hnumber hsignificance hmode h
    (Rounding.finds_ceilingMath_below h hx hm)

theorem yields_floorMath_above
    (hfind : scope.functions.find? "FLOOR.MATH" = Registry.find? builtins "FLOOR.MATH")
    (hnumber : number.Reads scope source (.number a))
    (hsignificance : significance.Reads scope source (.number b))
    (hmode : mode.Reads scope source (.number m)) (h : Roundable a b x s) (hx : x < 0)
    (hm : (m == 0) = false) :
    ∃ r : Int, IsLeast {k : Int | (s : Int) ∣ k ∧ x < k} r ∧
      (Expr.call "FLOOR.MATH" [number, significance, mode]).Yields scope source r :=
  yields_of_finds (f := Rounding.floorMath) hfind hnumber hsignificance hmode h
    (Rounding.finds_floorMath_above h hx hm)

/-- `CEILING.PRECISE`, `ISO.CEILING` and `CEILING.MATH` round whole numbers to the least multiple
of a positive significance that is not below, and `FLOOR.PRECISE` and `FLOOR.MATH` to the greatest
one that is not above. The mode makes no difference if it is 0 or the number is not negative.
Beside a negative number another mode makes `CEILING.MATH` the greatest multiple that is below and
`FLOOR.MATH` the least one that is above, so that even a multiple is moved. -/
theorem multiples_bracket
    (hfind : ∀ name ∈ ["CEILING.PRECISE", "ISO.CEILING", "CEILING.MATH", "FLOOR.PRECISE",
      "FLOOR.MATH"], scope.functions.find? name = Registry.find? builtins name)
    (hnumber : number.ReadsAs scope source x) (hsignificance : significance.ReadsAs scope source s)
    (hmode : mode.Reads scope source (.number m)) (hs : 0 < s) (hs' : s ≤ 2 ^ 40)
    (hx : x.natAbs ≤ 2 ^ 40) :
    (∀ name ∈ ["CEILING.PRECISE", "ISO.CEILING", "CEILING.MATH"],
      RoundsTo scope source (fun e => .call name [e, significance]) number
        (IsLeast {k : Int | (s : Int) ∣ k ∧ x ≤ k})) ∧
    (∀ name ∈ ["FLOOR.PRECISE", "FLOOR.MATH"],
      RoundsTo scope source (fun e => .call name [e, significance]) number
        (IsGreatest {k : Int | (s : Int) ∣ k ∧ k ≤ x})) ∧
    (0 ≤ x ∨ (m == 0) = true →
      RoundsTo scope source (fun e => .call "CEILING.MATH" [e, significance, mode]) number
        (IsLeast {k : Int | (s : Int) ∣ k ∧ x ≤ k}) ∧
      RoundsTo scope source (fun e => .call "FLOOR.MATH" [e, significance, mode]) number
        (IsGreatest {k : Int | (s : Int) ∣ k ∧ k ≤ x})) ∧
    (x < 0 → (m == 0) = false →
      (∃ r : Int, IsGreatest {k : Int | (s : Int) ∣ k ∧ k < x} r ∧
        (Expr.call "CEILING.MATH" [number, significance, mode]).Yields scope source r) ∧
      ∃ r : Int, IsLeast {k : Int | (s : Int) ∣ k ∧ x < k} r ∧
        (Expr.call "FLOOR.MATH" [number, significance, mode]).Yields scope source r) := by
  obtain ⟨a, ha, hnumber⟩ := hnumber
  obtain ⟨b, hb, hsignificance⟩ := hsignificance
  simp only [List.forall_mem_cons, List.not_mem_nil, false_implies, implies_true, and_true]
    at hfind ⊢
  obtain ⟨hceilingPrecise, hisoCeiling, hceilingMath, hfloorPrecise, hfloorMath⟩ := hfind
  have hround : Roundable a b x s := ⟨ha, hb, hs, by omega, by omega⟩
  have hle : x.natAbs + s ≤ 2 ^ 50 := by omega
  have hpair : List.Forall₂ (fun e x => e.Reads scope source (.number x)) [significance] [b] :=
    .cons hsignificance .nil
  have htriple : List.Forall₂ (fun e x => e.Reads scope source (.number x)) [significance, mode]
      [b, m] := .cons hsignificance (.cons hmode .nil)
  have hleast := picks_least hs
  have hgreatest := picks_greatest hs
  refine ⟨⟨?_, ?_, ?_⟩, ⟨?_, ?_⟩, fun hm => ⟨?_, ?_⟩, fun hneg hm =>
    ⟨yields_ceilingMath_below hceilingMath hnumber hsignificance hmode hround hneg hm,
      yields_floorMath_above hfloorMath hnumber hsignificance hmode hround hneg hm⟩⟩
  · exact roundsTo_of_finds hceilingPrecise rfl hnumber hpair hround hle hleast (.inr trivial)
      fun h _ => Rounding.finds_precise_ceilingTo h
  · exact roundsTo_of_finds hisoCeiling rfl hnumber hpair hround hle hleast (.inr trivial)
      fun h _ => Rounding.finds_precise_ceilingTo h
  · exact roundsTo_of_finds hceilingMath rfl hnumber hpair hround hle hleast (.inr trivial)
      fun h _ => (Rounding.finds_ceilingMath h (.inr rfl)).of_given fun _ =>
        Rounding.withMode_of_two h
  · exact roundsTo_of_finds hfloorPrecise rfl hnumber hpair hround hle hgreatest (.inr trivial)
      fun h _ => Rounding.finds_precise_floorTo h
  · exact roundsTo_of_finds hfloorMath rfl hnumber hpair hround hle hgreatest (.inr trivial)
      fun h _ => (Rounding.finds_floorMath h (.inr rfl)).of_given fun _ =>
        Rounding.withMode_of_two h
  · exact roundsTo_of_finds hceilingMath rfl hnumber htriple hround hle hleast hm
      fun h hm => (Rounding.finds_ceilingMath h hm).of_given fun _ => Rounding.withMode_of_three h
  · exact roundsTo_of_finds hfloorMath rfl hnumber htriple hround hle hgreatest hm
      fun h hm => (Rounding.finds_floorMath h hm).of_given fun _ => Rounding.withMode_of_three h

theorem multiples_bracket_minus_three :
    (∃ r : Int, IsGreatest {k : Int | ((2 : Nat) : Int) ∣ k ∧ k < -3} r ∧
      (Expr.call "CEILING.MATH" [.literal (.number (-3)), .literal (.number 2),
        .literal (.number 1)]).Yields ((Engine.new .zero [] []).scope none) Source.zero r) ∧
    ∃ r : Int, IsLeast {k : Int | ((2 : Nat) : Int) ∣ k ∧ -3 < k} r ∧
      (Expr.call "FLOOR.MATH" [.literal (.number (-3)), .literal (.number 2),
        .literal (.number 1)]).Yields ((Engine.new .zero [] []).scope none) Source.zero r := by
  have hnumber : (Expr.literal (.number (-3))).ReadsAs ((Engine.new .zero [] []).scope none)
      Source.zero ((-3 : Int) : ℚ) := ⟨_, represents_ofInt (n := -3) (by decide), rfl⟩
  have hsignificance : (Expr.literal (.number 2)).ReadsAs ((Engine.new .zero [] []).scope none)
      Source.zero ((2 : Nat) : ℚ) := ⟨_, represents_ofNat (n := 2) (by decide), rfl⟩
  exact (multiples_bracket (fun _ _ => rfl) hnumber hsignificance (Expr.reads_number 1) (by decide)
    (by decide) (by decide)).2.2.2 (by decide) (by decide)

/-- With a mode other than 0 a negative multiple is moved, too. -/
theorem not_multiples_bracket :
    ¬ ∀ (scope : Scope) (source : Source) (number significance mode : Expr) (x : Int) (s : Nat)
      (m : Float), (∀ name ∈ ["CEILING.MATH", "FLOOR.MATH"],
        scope.functions.find? name = Registry.find? builtins name) →
      number.ReadsAs scope source x → significance.ReadsAs scope source s →
      mode.Reads scope source (.number m) → 0 < s → s ≤ 2 ^ 40 → x.natAbs ≤ 2 ^ 40 →
      x < 0 → (m == 0) = false →
      (∃ r : Int, IsGreatest {k : Int | (s : Int) ∣ k ∧ k ≤ x} r ∧
        (Expr.call "CEILING.MATH" [number, significance, mode]).Yields scope source r) ∧
      ∃ r : Int, IsLeast {k : Int | (s : Int) ∣ k ∧ x ≤ k} r ∧
        (Expr.call "FLOOR.MATH" [number, significance, mode]).Yields scope source r := by
  intro h
  obtain ⟨scope, hfind⟩ := exists_scope
  have hround : Roundable (Float.ofInt (-4)) (Float.ofNat 2) (-4) 2 :=
    ⟨represents_ofInt (by decide), represents_ofNat (by decide), by decide, by decide, by decide⟩
  have hreads (x : Float) : (Expr.literal (.number x)).Reads scope Source.zero (.number x) :=
    Expr.reads_number x
  obtain ⟨⟨r, hr, hcall⟩, -⟩ := h scope Source.zero _ _ _ (-4) 2 1 (fun name _ => hfind name)
    (Expr.readsAs_literal hround.number) (Expr.readsAs_literal hround.significance) (hreads 1)
    (by decide) (by decide) (by decide) (by decide) (by decide)
  obtain ⟨r', hr', hcall'⟩ := yields_ceilingMath_below (hfind _) (hreads _) (hreads _)
    (hreads 1) hround (by decide) (by decide)
  have hlow : r' < -4 := hr'.1.2
  have hfour : -4 ≤ r := hr.2 ⟨by decide, by decide⟩
  obtain rfl : r = r' := by exact_mod_cast hcall.unique hcall'
  omega

end

end Spreadsheet
