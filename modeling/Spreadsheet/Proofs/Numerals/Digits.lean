import Spreadsheet.Function.Numeral
import Spreadsheet.Proofs.Lexing.Characters

/-!
Digits in a radix. A number is read back from its digits, also behind zeros, and the digits of the
number that some digits denote are those in capitals, without the zeros before them.
-/

namespace Spreadsheet.Number

/-! ### One digit -/

theorem toNat_lt_of_digitValue? (h : digitValue? c = some d) : c.toNat < 128 := by
  have hdigit : c.isDigit = true ∨ c.isAlpha = true := by
    unfold digitValue? at h
    split at h
    · exact .inl ‹_›
    · split at h
      · exact .inr ‹_›
      · cases h
  simp only [Char.isDigit, Char.isAlpha, Char.isUpper, Char.isLower, Bool.and_eq_true,
    Bool.or_eq_true, decide_eq_true_eq, ge_iff_le, UInt32.le_iff_toNat_le] at hdigit
  have h9 : '9'.val.toNat = 57 := rfl
  have hZ : 'Z'.val.toNat = 90 := rfl
  have hz : 'z'.val.toNat = 122 := rfl
  change c.val.toNat < 128
  omega

/-- What holds of the digits and letters is found out one by one. -/
theorem of_digitValue? {P : Char → Nat → Prop} (h : digitValue? c = some d)
    (hall : ∀ n < 128, ∀ d ∈ digitValue? (.ofNat n), P (.ofNat n) d) : P c d := by
  have hc := hall c.toNat (toNat_lt_of_digitValue? h) d
  rw [Char.ofNat_toNat] at hc
  exact hc h

theorem digitChar_of_digitValue? (h : digitValue? c = some d) : digitChar d = c.toUpper :=
  of_digitValue? (P := fun c d => digitChar d = c.toUpper) h (by decide)

theorem isWhiteSpace_of_digitValue? (h : digitValue? c = some d) :
    Unicode.isWhiteSpace c = false :=
  of_digitValue? (P := fun c _ => Unicode.isWhiteSpace c = false) h (by decide)

theorem upperChar_of_digitValue? (h : digitValue? c = some d) : Unicode.upperChar c = [c.toUpper] :=
  if_pos (toNat_lt_of_digitValue? h)

theorem digitValue?_digitChar (h : d < 36) : digitValue? (digitChar d) = some d := by
  revert d
  decide

theorem digitIn?_eq_some : digitIn? r c = some d ↔ digitValue? c = some d ∧ d < r := by
  rw [digitIn?, Option.filter_eq_some_iff, decide_eq_true_iff]

theorem digitIn?_digitChar (h : d < r) (hr : r ≤ 36) : digitIn? r (digitChar d) = some d :=
  digitIn?_eq_some.2 ⟨digitValue?_digitChar (Nat.lt_of_lt_of_le h hr), h⟩

theorem digitChar_eq_zero_iff (h : digitValue? c = some d) : c.toUpper = '0' ↔ d = 0 :=
  of_digitValue? (P := fun c d => c.toUpper = '0' ↔ d = 0) h (by decide)

/-! ### Reading digits -/

section

variable {r n k : Nat} {cs : List Char}

theorem ofRadix?_concat : ofRadix? r (cs ++ [c]) = some n ↔
    ∃ m, ofRadix? r cs = some m ∧ ∃ d, digitIn? r c = some d ∧ r * m + d = n := by
  have hstep : ofRadix? r (cs ++ [c]) =
      (ofRadix? r cs).bind fun m => (digitIn? r c).map (r * m + ·) := by
    rw [ofRadix?, List.foldlM_append, ← ofRadix?]
    simp only [List.foldlM_cons, List.foldlM_nil, bind_pure]
    rfl
  simp only [hstep, Option.bind_eq_some_iff, Option.map_eq_some_iff]

theorem ofRadix?_toRadix (hr : 2 ≤ r) (hr' : r ≤ 36) (n : Nat) :
    ofRadix? r (toRadix r n) = some n := by
  fun_induction toRadix r n with
  | case1 n h =>
    have hdigit : digitIn? r (digitChar n) = some n := digitIn?_digitChar (by omega) hr'
    have hread : ofRadix? r ([] ++ [digitChar n]) = some n :=
      ofRadix?_concat.2 ⟨0, rfl, n, hdigit, by omega⟩
    exact hread
  | case2 n h ih =>
    have hdigit := digitIn?_digitChar (Nat.mod_lt n (show 0 < r by omega)) hr'
    exact ofRadix?_concat.2 ⟨n / r, ih, n % r, hdigit, Nat.div_add_mod n r⟩

/-- Zeros in front say nothing. -/
theorem ofRadix?_padZeros (hr : 0 < r) (width : Nat) (cs : List Char) :
    ofRadix? r (padZeros width cs) = ofRadix? r cs := by
  have hzero : digitIn? r '0' = some 0 := digitIn?_eq_some.2 ⟨rfl, hr⟩
  rw [padZeros]
  induction width - cs.length with
  | zero => rfl
  | succ k ih =>
    rw [← ih, List.replicate_succ, List.cons_append, ofRadix?, List.foldlM_cons, hzero]
    rfl

theorem padZeros_zero (cs : List Char) : padZeros 0 cs = cs := by
  rw [padZeros, Nat.zero_sub]
  rfl

theorem ofRadix?_lt (h : ofRadix? r cs = some n) : n < r ^ cs.length := by
  induction cs using List.reverseRecOn generalizing n with
  | nil =>
    cases h
    exact Nat.one_pos
  | append_singleton cs c ih =>
    obtain ⟨m, hm, d, hd, rfl⟩ := ofRadix?_concat.1 h
    rw [List.length_append, List.length_singleton, Nat.pow_succ]
    calc r * m + d < r * m + r := Nat.add_lt_add_left (digitIn?_eq_some.1 hd).2 _
      _ = (m + 1) * r := by rw [Nat.mul_comm, Nat.succ_mul]
      _ ≤ r ^ cs.length * r := Nat.mul_le_mul_right r (ih hm)

theorem length_toRadix_le (hk : 0 < k) (h : n < r ^ k) : (toRadix r n).length ≤ k := by
  fun_induction toRadix r n generalizing k with
  | case1 n h => exact hk
  | case2 n hlow ih =>
    obtain ⟨k, rfl⟩ := Nat.exists_eq_add_of_lt hk
    rw [Nat.zero_add, Nat.pow_succ] at h
    have hk : 0 < k := by
      refine Nat.pos_of_ne_zero fun hzero => ?_
      rw [hzero, Nat.pow_zero, Nat.one_mul] at h
      omega
    rw [List.length_append, Nat.zero_add]
    exact Nat.succ_le_succ (ih hk (Nat.div_lt_of_lt_mul (by rwa [Nat.mul_comm])))

theorem digits_of_ofRadix? (h : ofRadix? r cs = some n) :
    ∀ c ∈ cs, ∃ d, digitValue? c = some d := by
  induction cs using List.reverseRecOn generalizing n with
  | nil => nofun
  | append_singleton cs c ih =>
    obtain ⟨m, hm, d, hd, rfl⟩ := ofRadix?_concat.1 h
    intro c' hc
    rcases List.mem_append.1 hc with hc | hc
    · exact ih hm c' hc
    · rw [List.mem_singleton.1 hc]
      exact ⟨d, (digitIn?_eq_some.1 hd).1⟩

theorem isSome_ofRadix?_iff :
    (ofRadix? r cs).isSome = true ↔ ∀ c ∈ cs, (digitIn? r c).isSome = true := by
  simp only [Option.isSome_iff_exists]
  induction cs using List.reverseRecOn with
  | nil => exact ⟨nofun, fun _ => ⟨0, rfl⟩⟩
  | append_singleton cs c ih =>
    simp only [List.forall_mem_append, List.forall_mem_singleton, ← ih, ofRadix?_concat]
    constructor
    · rintro ⟨n, m, hm, d, hd, -⟩
      exact ⟨⟨m, hm⟩, d, hd⟩
    · rintro ⟨⟨m, hm⟩, d, hd⟩
      exact ⟨_, m, hm, d, hd, rfl⟩

theorem trim_of_ofRadix? (h : ofRadix? r cs = some n) : Unicode.trim cs = cs :=
  Unicode.trim_eq_self fun c hc =>
    let ⟨_, hd⟩ := digits_of_ofRadix? h c hc
    isWhiteSpace_of_digitValue? hd

theorem upper_of_ofRadix? (h : ofRadix? r cs = some n) :
    Unicode.upper cs = cs.map Char.toUpper := by
  have hone (c : Char) (hc : c ∈ cs) : Unicode.upperChar c = [c.toUpper] :=
    let ⟨_, hd⟩ := digits_of_ofRadix? h c hc
    upperChar_of_digitValue? hd
  rw [Unicode.upper, List.flatMap_congr hone]
  exact List.map_eq_flatMap.symm

/-! ### Digits of what was read -/

/-- Digits without the zeros in front of them. -/
def stripZeros (cs : List Char) : List Char :=
  let rest := cs.dropWhile (· == '0')
  if rest.isEmpty then ['0'] else rest

/-- Digits that do not become fewer had no zeros in front. -/
theorem stripZeros_eq_self (hlength : 1 < cs.length) (h : cs.length ≤ (stripZeros cs).length) :
    stripZeros cs = cs := by
  rw [stripZeros] at *
  split
  · next hnone =>
    rw [if_pos hnone] at h
    exact absurd hlength (Nat.not_lt.2 h)
  · next hsome =>
    rw [if_neg hsome] at h
    exact (List.dropWhile_suffix _).eq_of_length_le h

theorem toRadix_digit (h : d < r) : toRadix r d = [digitChar d] := by
  rw [toRadix, dif_pos (.inl h)]

theorem toRadix_concat (hr : 2 ≤ r) (hm : 0 < m) (hd : d < r) :
    toRadix r (r * m + d) = toRadix r m ++ [digitChar d] := by
  have hlow : r * 1 ≤ r * m := Nat.mul_le_mul_left r hm
  have hdiv : (r * m + d) / r = m := by
    rw [Nat.mul_add_div (by omega), Nat.div_eq_of_lt hd, Nat.add_zero]
  have hmod : (r * m + d) % r = d := by rw [Nat.mul_add_mod, Nat.mod_eq_of_lt hd]
  rw [toRadix, dif_neg (by omega), hdiv, hmod]

theorem toRadix_ne_nil (r n : Nat) : toRadix r n ≠ [] := by
  rw [toRadix]
  split
  · exact List.cons_ne_nil _ _
  · exact List.append_ne_nil_of_right_ne_nil _ (List.cons_ne_nil _ _)

theorem dropZeros_of_ofRadix? (hr : 2 ≤ r) (h : ofRadix? r cs = some n) :
    (cs.map Char.toUpper).dropWhile (· == '0') = if n = 0 then [] else toRadix r n := by
  induction cs using List.reverseRecOn generalizing n with
  | nil =>
    cases h
    rfl
  | append_singleton cs c ih =>
    obtain ⟨m, hm, d, hd, rfl⟩ := ofRadix?_concat.1 h
    obtain ⟨hvalue, hlow⟩ := digitIn?_eq_some.1 hd
    have hdigit := digitChar_of_digitValue? hvalue
    rw [List.map_append, List.dropWhile_append, ih hm]
    rcases Nat.eq_zero_or_pos m with rfl | hpos
    · rw [Nat.mul_zero, Nat.zero_add, toRadix_digit hlow, hdigit]
      by_cases hzero : d = 0
      · have hc := (digitChar_eq_zero_iff hvalue).2 hzero
        simp [hzero, hc]
      · have hc := mt (digitChar_eq_zero_iff hvalue).1 hzero
        simp [hzero, hc]
    · have hne : r * m + d ≠ 0 := by
        have hlow : r * 1 ≤ r * m := Nat.mul_le_mul_left r hpos
        omega
      rw [if_neg (Nat.ne_of_gt hpos), if_neg hne, toRadix_concat hr hpos hlow, hdigit]
      simp [toRadix_ne_nil]

/-- The digits of the number that digits denote are those in capitals, without zeros in front. -/
theorem toRadix_of_ofRadix? (hr : 2 ≤ r) (h : ofRadix? r cs = some n) :
    toRadix r n = stripZeros (Unicode.upper cs) := by
  rw [upper_of_ofRadix? h, stripZeros, dropZeros_of_ofRadix? hr h]
  by_cases hzero : n = 0
  · rw [hzero, toRadix_digit (by omega)]
    rfl
  · simp [hzero, toRadix_ne_nil]

end

end Spreadsheet.Number
