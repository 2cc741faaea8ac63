import Spreadsheet.Proofs.Evaluation.Multiplying

/-!
Rounding to the nearest float. What rounding keeps of a quotient tells on which side of the middle
between two neighbours it lies. So every rational number that is nearer to a float than to the
floats beside it is rounded to this float, and a number in the middle is if the float is even.
-/

namespace Spreadsheet

open Float.Model Float.Model.UnpackedFloat

/-! ### What is kept of a quotient -/

/-- The rational number has this whole part, and the accuracy tells where the rest of it lies. -/
inductive Shows (m : Nat) (f : ℚ) : Accuracy → Prop
  | exact (h : f = m) : Shows m f .exact
  | lt (hlow : m < f) (hhigh : f < m + 1 / 2) : Shows m f (.inexact .lt)
  | eq (h : f = m + 1 / 2) : Shows m f (.inexact .eq)
  | gt (hlow : m + 1 / 2 < f) (hhigh : f < m + 1) : Shows m f (.inexact .gt)

variable {m : Nat} {f : ℚ} {a : Accuracy}

theorem Shows.bounds (h : Shows m f a) : m ≤ f ∧ f < m + 1 := by
  cases h <;> constructor <;> linarith

theorem Shows.inexact (h : Shows m f a) (ha : a ≠ .exact) : m < f ∧ f < m + 1 := by
  cases h with
  | exact => exact absurd rfl ha
  | _ => constructor <;> linarith

theorem Shows.shiftRightOne {em : ExtendedMantissa} (h : Shows em.mantissa f em.accuracy) :
    Shows em.shiftRightOne.mantissa (f / 2) em.shiftRightOne.accuracy := by
  obtain ⟨m, roundBit, stickyBit⟩ := em
  rw [ExtendedMantissa.shiftRightOne]
  have hexact (hr : roundBit = false) (hs : stickyBit = false) : f = m := by
    subst hr hs
    cases h with
    | exact h => exact h
  have hrest (hor : (roundBit || stickyBit) = true) : (m : ℚ) < f ∧ f < m + 1 := by
    apply h.inexact
    cases roundBit <;> cases stickyBit
    · cases hor
    all_goals exact fun h => by cases h
  have hhalves : (m : ℚ) = 2 * (m / 2 : Nat) + (m % 2 : Nat) := by
    exact_mod_cast (Nat.div_add_mod m 2).symm
  dsimp only
  cases hor : roundBit || stickyBit with
  | false =>
    obtain ⟨hr, hs⟩ := Bool.or_eq_false_iff.1 hor
    have hf := hexact hr hs
    rcases Nat.mod_two_eq_zero_or_one m with hp | hp <;> rw [hp] at hhalves ⊢ <;>
      push_cast at hhalves
    · exact .exact (by linarith)
    · exact .eq (by linarith)
  | true =>
    obtain ⟨hlow, hhigh⟩ := hrest hor
    rcases Nat.mod_two_eq_zero_or_one m with hp | hp <;> rw [hp] at hhalves ⊢ <;>
      push_cast at hhalves
    · exact .lt (by linarith) (by linarith)
    · exact .gt (by linarith) (by linarith)

theorem shows_ofMantissaAndAccuracy (h : Shows m f a) :
    Shows (ExtendedMantissa.ofMantissaAndAccuracy m a).mantissa f
      (ExtendedMantissa.ofMantissaAndAccuracy m a).accuracy := by
  cases h with
  | exact h => exact .exact h
  | lt hlow hhigh => exact .lt hlow hhigh
  | eq h => exact .eq h
  | gt hlow hhigh => exact .gt hlow hhigh

theorem Shows.shiftRight {em : ExtendedMantissa} (h : Shows em.mantissa f em.accuracy) (k : Nat) :
    Shows (em >>> k).mantissa (f / 2 ^ k) (em >>> k).accuracy := by
  induction k with
  | zero =>
    rw [pow_zero, div_one]
    exact h
  | succ k ih =>
    rw [pow_succ, ← div_div]
    exact ih.shiftRightOne

/-! ### The nearest whole number -/

/-- The rational number is at most a half away, and exactly a half only from an even number. -/
structure Near (f : ℚ) (r : Nat) : Prop where
  low : (r : ℚ) - 1 / 2 ≤ f
  high : f ≤ r + 1 / 2
  even : f = r - 1 / 2 ∨ f = r + 1 / 2 → r % 2 = 0

theorem Near.unique (h : Near f m) (h' : Near f n) : m = n := by
  have hle : m ≤ n + 1 := by
    have hcast : (m : ℚ) ≤ n + 1 := by linarith [h.low, h'.high]
    exact_mod_cast hcast
  have hge : n ≤ m + 1 := by
    have hcast : (n : ℚ) ≤ m + 1 := by linarith [h'.low, h.high]
    exact_mod_cast hcast
  by_contra hne
  rcases Nat.lt_or_gt_of_ne hne with hlt | hgt
  · obtain rfl : n = m + 1 := by omega
    have hlow := h'.low
    push_cast at hlow
    have hmiddle : f = m + 1 / 2 := le_antisymm h.high (by linarith)
    have heven := h.even (.inr hmiddle)
    have heven' := h'.even (.inl (by push_cast; linarith))
    omega
  · obtain rfl : m = n + 1 := by omega
    have hlow := h.low
    push_cast at hlow
    have hmiddle : f = n + 1 / 2 := le_antisymm h'.high (by linarith)
    have heven := h'.even (.inr hmiddle)
    have heven' := h.even (.inl (by push_cast; linarith))
    omega

theorem Shows.near (h : Shows m f a) : Near f (a.roundToNearestEven m) := by
  cases h with
  | exact h =>
    change Near f m
    constructor
    · linarith
    · linarith
    · rintro (h | h) <;> linarith
  | lt hlow hhigh =>
    change Near f m
    constructor
    · linarith
    · linarith
    · rintro (h | h) <;> linarith
  | eq h =>
    change Near f (m + m % 2)
    rcases Nat.mod_two_eq_zero_or_one m with hp | hp <;> rw [hp] <;> constructor <;> push_cast
    · linarith
    · linarith
    · exact fun _ => hp
    · linarith
    · linarith
    · exact fun _ => by omega
  | gt hlow hhigh =>
    change Near f (m + 1)
    constructor <;> push_cast
    · linarith
    · linarith
    · rintro (h | h) <;> linarith

/-! ### Floats -/

/-- The number is nearer to the float of these digits than to the floats beside it, or it is in the
middle and the last digit is even. The float below a power of two is half as far as others. -/
structure Within (v : ℚ) (m : Nat) (e : Int) : Prop where
  near : Near (v / 2 ^ e) m
  power : m = 2 ^ 52 → -1074 < e → (2 ^ 52 - 1 / 4 : ℚ) ≤ v / 2 ^ e

/-- The exponent that the digits get in the first step of rounding. -/
def targetOf (m : Nat) (e : Int) : Int := max (m.log2 + 1 + e - 53) (-1074)

theorem two_zpow_pos (e : Int) : (0 : ℚ) < 2 ^ e := zpow_pos two_pos e

/-- The target exponent is that of the number, from whatever digits and exponent it is found. -/
theorem Shows.target {v : ℚ} {e : Int} (h : Shows m (v / 2 ^ e) a) (he : e ≤ targetOf m e) :
    v < 2 ^ (targetOf m e + 53) ∧ (targetOf m e = -1074 ∨ 2 ^ (targetOf m e + 52) ≤ v) := by
  obtain ⟨hlow, hhigh⟩ := h.bounds
  rw [le_div_iff₀ (two_zpow_pos e)] at hlow
  rw [div_lt_iff₀ (two_zpow_pos e)] at hhigh
  have hone : (1 : ℚ) < 2 := one_lt_two
  rcases Nat.eq_zero_or_pos m with rfl | hm
  · have hlog : Nat.log2 0 = 0 := rfl
    rw [targetOf, hlog] at he ⊢
    refine ⟨?_, .inl (by omega)⟩
    calc v < 2 ^ e := by simpa using hhigh
      _ ≤ _ := zpow_le_zpow_right₀ hone.le (by omega)
  · have hdigits : ((m : ℚ) + 1) ≤ 2 ^ ((m.log2 : Int) + 1) := by
      have hlt := Nat.lt_log2_self (n := m)
      exact_mod_cast hlt
    have hleading : (2 : ℚ) ^ (m.log2 : Int) ≤ m := by
      have hle := Nat.log2_self_le (Nat.ne_of_gt hm)
      exact_mod_cast hle
    constructor
    · calc v < (m + 1) * 2 ^ e := hhigh
        _ ≤ 2 ^ ((m.log2 : Int) + 1) * 2 ^ e :=
          mul_le_mul_of_nonneg_right hdigits (two_zpow_pos e).le
        _ = 2 ^ ((m.log2 : Int) + 1 + e) := (zpow_add₀ two_ne_zero _ _).symm
        _ ≤ _ := zpow_le_zpow_right₀ hone.le (by rw [targetOf]; omega)
    · by_cases ht : targetOf m e = -1074
      · exact .inl ht
      · right
        have hexponent : targetOf m e + 52 = m.log2 + e := by
          rw [targetOf] at ht ⊢
          omega
        calc (2 : ℚ) ^ (targetOf m e + 52) = 2 ^ (m.log2 : Int) * 2 ^ e := by
              rw [hexponent, zpow_add₀ two_ne_zero]
          _ ≤ m * 2 ^ e := mul_le_mul_of_nonneg_right hleading (two_zpow_pos e).le
          _ ≤ v := hlow

theorem lt_two_pow_of_log2_le (h : m.log2 ≤ 52) : m < 2 ^ 53 :=
  Nat.lt_of_lt_of_le Nat.lt_log2_self (Nat.pow_le_pow_right (by decide) (Nat.succ_le_succ h))

theorem lt_of_two_zpow_lt {j k : Int} (h : (2 : ℚ) ^ j < 2 ^ k) : j < k :=
  (zpow_lt_zpow_iff_right₀ one_lt_two).1 h

/-- A number within reach of a float has the target exponent of the float, or the one below it if it
is less than a power of two that it is rounded to. -/
theorem Within.target {v : ℚ} {e t : Int} (hv : Within v m e) (hlog : m.log2 ≤ 52)
    (he : targetOf m e = e) (hm : 0 < m) (hlow : -1074 ≤ t) (hlt : v < 2 ^ (t + 53))
    (hge : t = -1074 ∨ 2 ^ (t + 52) ≤ v) :
    t = e ∨ t = e - 1 ∧ m = 2 ^ 52 ∧ -1074 < e := by
  have hmlt : m < 2 ^ 53 := lt_two_pow_of_log2_le hlog
  have hcast : (m : ℚ) ≤ 2 ^ 53 - 1 := by
    have hsucc : ((m + 1 : Nat) : ℚ) ≤ (2 ^ 53 : Nat) := by exact_mod_cast hmlt
    push_cast at hsucc
    linarith
  have hle : t ≤ e := by
    rcases hge with rfl | hge
    · rw [← he]
      exact le_max_right _ _
    · have hhigh := hv.near.high
      rw [div_le_iff₀ (two_zpow_pos e)] at hhigh
      have hlt : (2 : ℚ) ^ (t + 52) < 2 ^ (e + 53) := by
        calc (2 : ℚ) ^ (t + 52) ≤ v := hge
          _ ≤ (m + 1 / 2) * 2 ^ e := hhigh
          _ < 2 ^ 53 * 2 ^ e := mul_lt_mul_of_pos_right (by linarith) (two_zpow_pos e)
          _ = 2 ^ (e + 53) := by rw [zpow_add₀ two_ne_zero, mul_comm]; norm_num
      have := lt_of_two_zpow_lt hlt
      omega
  rcases Int.lt_or_eq_of_le hle with hbelow | rfl
  · right
    have hbelow' : v / 2 ^ e < 2 ^ 52 := by
      rw [div_lt_iff₀ (two_zpow_pos e)]
      calc v < 2 ^ (t + 53) := hlt
        _ ≤ 2 ^ (e + 52) := zpow_le_zpow_right₀ one_le_two (by omega)
        _ = 2 ^ 52 * 2 ^ e := by rw [zpow_add₀ two_ne_zero, mul_comm]; norm_num
    have hnormal : 2 ^ 52 ≤ m := by
      have hlog : m.log2 = 52 := by
        rw [targetOf] at he
        omega
      exact ((Nat.log2_eq_iff (Nat.ne_of_gt hm)).1 hlog).1
    have hpower : m = 2 ^ 52 := by
      have hnear := hv.near.low
      have hlt : (m : ℚ) < 2 ^ 52 + 1 := by linarith
      have hlt : m < 2 ^ 52 + 1 := by exact_mod_cast hlt
      omega
    refine ⟨?_, hpower, by omega⟩
    have hquarter := hv.power hpower (by omega)
    rw [le_div_iff₀ (two_zpow_pos e)] at hquarter
    have hlt : (2 : ℚ) ^ (e + 51) < 2 ^ (t + 53) := by
      calc (2 : ℚ) ^ (e + 51) = 2 ^ 51 * 2 ^ e := by
            rw [zpow_add₀ two_ne_zero, mul_comm]; norm_num
        _ ≤ (2 ^ 52 - 1 / 4) * 2 ^ e :=
          mul_le_mul_of_nonneg_right (by norm_num) (two_zpow_pos e).le
        _ ≤ v := hquarter
        _ < 2 ^ (t + 53) := hlt
    have := lt_of_two_zpow_lt hlt
    omega
  · exact .inl rfl

theorem roundedMantissa_eq (em : ExtendedMantissa) :
    em.roundedMantissa = em.accuracy.roundToNearestEven em.mantissa := rfl

/-- Digits that show a number are rounded to the nearest number of units, and these are settled. -/
theorem Shows.round_eq_settled {v : ℚ} {E : Int} {M : Nat} (hs : Shows M (v / 2 ^ E) a)
    (hE : E ≤ targetOf M E) (s : Sign) :
    ∃ r, Near (v / 2 ^ targetOf M E) r ∧
      roundWithAccuracy Format.binary64 s M E a = settled s r (targetOf M E) := by
  have hshown := (shows_ofMantissaAndAccuracy hs).shiftRight (targetOf M E - E).toNat
  have hunits : v / 2 ^ E / 2 ^ (targetOf M E - E).toNat = v / 2 ^ targetOf M E := by
    rw [div_div, ← zpow_natCast, ← zpow_add₀ two_ne_zero]
    congr 2
    omega
  rw [hunits] at hshown
  refine ⟨_, ?_, roundWithAccuracy_eq_settled s a rfl hE⟩
  rw [roundedMantissa_eq]
  exact hshown.near

/-- A number within reach of a float is rounded to the float. -/
theorem Within.round_eq {v : ℚ} {e E : Int} {M : Nat} (hv : Within v m e) (hm : 0 < m)
    (hlog : m.log2 ≤ 52) (he : targetOf m e = e) (hs : Shows M (v / 2 ^ E) a)
    (hE : E ≤ targetOf M E) (s : Sign) :
    roundWithAccuracy Format.binary64 s M E a = .finite s m e hm := by
  obtain ⟨hlt, hge⟩ := hs.target hE
  have hlow : -1074 ≤ targetOf M E := le_max_right _ _
  obtain ⟨r, hnear, hround⟩ := hs.round_eq_settled hE s
  rw [hround]
  generalize targetOf M E = t at hlt hge hlow hnear ⊢
  rcases hv.target hlog he hm hlow hlt hge with rfl | ⟨rfl, rfl, hexponent⟩
  · obtain rfl := hnear.unique hv.near
    exact settled_fixed hm he s
  · -- the digits carry
    have hdouble : v / 2 ^ (e - 1) = 2 * (v / 2 ^ e) := by
      rw [zpow_sub₀ two_ne_zero, zpow_one]
      field_simp
    have hcarry : Near (v / 2 ^ (e - 1)) (2 ^ 53) := by
      have hquarter := hv.power rfl hexponent
      have hhigh : v / 2 ^ (e - 1) < 2 ^ 53 := by
        rw [div_lt_iff₀ (two_zpow_pos _)]
        calc v < 2 ^ (e - 1 + 53) := hlt
          _ = 2 ^ 53 * 2 ^ (e - 1) := by rw [zpow_add₀ two_ne_zero, mul_comm]; norm_num
      refine ⟨?_, ?_, fun _ => by decide⟩
      · push_cast
        linarith
      · push_cast
        linarith
    obtain rfl := hnear.unique hcarry
    simp only [settled_carry hlow, sub_add_cancel]

end Spreadsheet
