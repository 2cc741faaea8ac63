import Spreadsheet.Proofs.Numerals.Shortest
import Spreadsheet.Proofs.Numerals.Texts

/-!
The text of every finite number is a numeral, with a minus sign before it if the number is negative,
and the numeral is read as the number.
-/

namespace Spreadsheet

open Float.Model Float.Model.UnpackedFloat Number

/-! ### Digits -/

theorem digitsValue_append (cs ds : List Char) :
    digitsValue (cs ++ ds) = 10 ^ ds.length * digitsValue cs + digitsValue ds :=
  (Nat.ofDigitChars_append 0).trans Nat.ofDigitChars_eq_ofDigitChars_zero

theorem digitsValue_append_zeros (cs : List Char) (k : Nat) :
    digitsValue (cs ++ List.replicate k '0') = 10 ^ k * digitsValue cs :=
  (Nat.ofDigitChars_append 0).trans Nat.ofDigitChars_replicate_zero

theorem digitsValue_zeros_append (k : Nat) (cs : List Char) :
    digitsValue (List.replicate k '0' ++ cs) = digitsValue cs := by
  have hzeros : digitsValue (List.replicate k '0') = 10 ^ k * 0 := Nat.ofDigitChars_replicate_zero
  rw [digitsValue_append, hzeros, Nat.mul_zero, Nat.mul_zero, Nat.zero_add]

theorem digits_toDigits (n : Nat) : Digits (Nat.toDigits 10 n) :=
  fun _ hc => Nat.isDigit_of_mem_toDigits (by decide) (by decide) hc

theorem digits_zeros (k : Nat) : Digits (List.replicate k '0') := by
  intro c hc
  obtain rfl := List.eq_of_mem_replicate hc
  rfl

theorem exists_replicate_zero (cs : List Char) :
    ∃ k, cs = (cs.reverse.dropWhile (· == '0')).reverse ++ List.replicate k '0' := by
  have hzeros : ∀ c ∈ (cs.reverse.takeWhile (· == '0')).reverse, c = '0' := by
    intro c hc
    have h := List.mem_takeWhile_imp (List.mem_reverse.1 hc)
    exact beq_iff_eq.1 h
  refine ⟨(cs.reverse.takeWhile (· == '0')).reverse.length, ?_⟩
  rw [← List.eq_replicate_of_mem hzeros, ← List.reverse_append, List.takeWhile_append_dropWhile,
    List.reverse_reverse]

/-! ### Leading digits -/

namespace Number.Leading

structure Formed (l : Leading) : Prop where
  ne_nil : l.digits ≠ []
  digits : Digits l.digits

def value (l : Leading) : ℚ := digitsValue l.digits * 10 ^ (l.exponent + 1 - l.digits.length)

end Number.Leading

theorem Number.Decimal.exists_zeros (d : Decimal) :
    ∃ k, Nat.toDigits 10 d.digits = d.leading.digits ++ List.replicate k '0' :=
  exists_replicate_zero _

theorem Number.Decimal.leading_formed {d : Decimal} (hd : 0 < d.digits) : d.leading.Formed := by
  obtain ⟨k, hk⟩ := d.exists_zeros
  constructor
  · intro hnil
    have hvalue := digitsValue_toDigits d.digits
    rw [hk, hnil, digitsValue_append_zeros] at hvalue
    exact hd.ne (by rw [← hvalue]; rfl)
  · intro c hc
    apply digits_toDigits d.digits
    rw [hk]
    exact List.mem_append_left _ hc

theorem Number.Decimal.leading_value (d : Decimal) : d.leading.value = d.value := by
  obtain ⟨k, hk⟩ := d.exists_zeros
  have hvalue := digitsValue_toDigits d.digits
  rw [hk, digitsValue_append_zeros] at hvalue
  have hlength := congrArg List.length hk
  rw [List.length_append, List.length_replicate] at hlength
  have hexponent : d.leading.exponent = d.exponent + (Nat.toDigits 10 d.digits).length - 1 := rfl
  have hshift : d.leading.exponent + 1 - d.leading.digits.length = d.exponent + k := by omega
  rw [Leading.value, Decimal.value, hshift, ← hvalue, zpow_add₀ (by norm_num), zpow_natCast]
  push_cast
  ring

/-! ### Texts -/

/-- The text is a numeral for the number. -/
def Writes (w : List Char) (v : ℚ) : Prop := ∃ n, NumeralText w n ∧ n.value = v

namespace Writes

variable {ds fs exponent : List Char} {x : Int} {v : ℚ}

theorem whole (hne : ds ≠ []) (hd : Digits ds) (he : ExponentText exponent x)
    (hv : digitsValue ds * 10 ^ x = v) : Writes (ds ++ exponent) v := by
  refine ⟨_, .whole hne hd he, ?_⟩
  rw [Numeral.value, List.append_nil, List.length_nil, Nat.cast_zero, sub_zero, hv]

theorem point (hne : ds ≠ []) (hd : Digits ds) (hf : Digits fs) (he : ExponentText exponent x)
    (hv : digitsValue (ds ++ fs) * 10 ^ (x - fs.length) = v) :
    Writes (ds ++ '.' :: (fs ++ exponent)) v :=
  ⟨_, .point (.inl hne) hd hf he, hv⟩

end Writes

variable {l : Leading}

theorem Number.Leading.Formed.length_pos (h : l.Formed) : 0 < l.digits.length :=
  List.length_pos_iff.2 h.ne_nil

theorem Number.Leading.Formed.positional (h : l.Formed) : Writes (l.positional []) l.value := by
  have hlength := h.length_pos
  rw [Leading.positional]
  split
  · next hneg =>
    have hfraction : Digits (List.replicate (-l.exponent - 1).toNat '0' ++ l.digits) :=
      List.forall_mem_append.2 ⟨digits_zeros _, h.digits⟩
    rw [← List.append_nil l.digits, List.cons_append, List.cons_append, ← List.append_assoc]
    apply Writes.point (List.cons_ne_nil '0' []) (List.forall_mem_singleton.2 rfl) hfraction .none
    have hshift : (0 : Int) - (List.replicate (-l.exponent - 1).toNat '0' ++ l.digits).length =
        l.exponent + 1 - l.digits.length := by
      rw [List.length_append, List.length_replicate]
      omega
    have hvalue : digitsValue (['0'] ++ (List.replicate (-l.exponent - 1).toNat '0' ++ l.digits)) =
        digitsValue l.digits := by
      rw [← List.append_assoc]
      exact digitsValue_zeros_append ((-l.exponent - 1).toNat + 1) l.digits
    rw [hshift, hvalue, Leading.value]
  · dsimp only
    split
    · next hle =>
      apply Writes.whole (List.append_ne_nil_of_left_ne_nil h.ne_nil _)
        (List.forall_mem_append.2 ⟨h.digits, digits_zeros _⟩) .none
      have hshift : l.exponent + 1 - l.digits.length =
          (l.exponent.toNat + 1 - l.digits.length : Nat) := by
        omega
      rw [digitsValue_append_zeros, Leading.value, hshift, zpow_natCast, zpow_zero, mul_one]
      push_cast
      ring
    · next hlt =>
      have htake : l.digits.take (l.exponent.toNat + 1) ≠ [] := by
        rw [← List.length_pos_iff, List.length_take]
        omega
      have hshift : (0 : Int) - (l.digits.drop (l.exponent.toNat + 1)).length =
          l.exponent + 1 - l.digits.length := by
        rw [List.length_drop]
        omega
      rw [← List.append_nil (l.digits.drop _)]
      apply Writes.point htake (fun c hc => h.digits c (List.mem_of_mem_take hc))
        (fun c hc => h.digits c (List.mem_of_mem_drop hc)) .none
      rw [List.take_append_drop, hshift, Leading.value]

theorem exponentText_toDigits (x : Int) :
    ExponentText ('e' :: (if x < 0 then ['-'] else ['+']) ++ Nat.toDigits 10 x.natAbs) x := by
  have hdigits := digits_toDigits x.natAbs
  have hvalue := digitsValue_toDigits x.natAbs
  split
  · next hneg =>
    have hx : x = -(digitsValue (Nat.toDigits 10 x.natAbs) : Int) := by omega
    conv => arg 2; rw [hx]
    exact .minus (.inl rfl) Nat.toDigits_ne_nil hdigits
  · next hnonneg =>
    have hx : x = (digitsValue (Nat.toDigits 10 x.natAbs) : Int) := by omega
    conv => arg 2; rw [hx]
    exact .plus (.inl rfl) Nat.toDigits_ne_nil hdigits

theorem Number.Leading.Formed.scientific (h : l.Formed) : Writes (l.scientific ['+']) l.value := by
  have hexponent := exponentText_toDigits l.exponent
  obtain ⟨d, ds, hdigits⟩ := List.exists_cons_of_ne_nil h.ne_nil
  have hd : Digits [d] := List.forall_mem_singleton.2 (h.digits d (by rw [hdigits]; simp))
  have hds : Digits ds := fun c hc => h.digits c (by rw [hdigits]; exact List.mem_cons_of_mem d hc)
  have hshift : l.exponent + 1 - l.digits.length = l.exponent - ds.length := by
    rw [hdigits, List.length_cons]
    omega
  rw [Leading.scientific, Leading.value, hshift, hdigits]
  cases ds with
  | nil =>
    apply Writes.whole (List.cons_ne_nil d []) hd hexponent
    rw [List.length_nil, Nat.cast_zero, sub_zero]
  | cons d' ds =>
    have hwrites := Writes.point (List.cons_ne_nil d []) hd hds hexponent rfl
    rw [List.append_assoc]
    exact hwrites

/-! ### Numbers -/

/-- Both zeros are the one. -/
def Number.foldZero (x : Float) : Float := if x == 0 then 0 else x

theorem foldZero_of_beq {x : Float} (h : (x == 0) = true) : foldZero x = 0 := if_pos h

theorem foldZero_of_not_beq {x : Float} (h : (x == 0) = false) : foldZero x = x := by
  rw [foldZero, h, if_neg Bool.false_ne_true]

theorem isFinite_foldZero {x : Float} (hx : x.isFinite = true) : (foldZero x).isFinite = true := by
  rw [foldZero]
  split
  · rfl
  · exact hx

theorem unpack_cases {x : Float} (hx : x.isFinite = true) :
    (∃ s, x.toModel.unpack = .zero s) ∨ ∃ s m e hm, x.toModel.unpack = .finite s m e hm := by
  change x.toModel.unpack.isFinite = true at hx
  cases h : x.toModel.unpack with
  | notANumber | infinity s =>
    rw [h] at hx
    cases hx
  | zero s => exact .inl ⟨s, rfl⟩
  | finite s m e hm => exact .inr ⟨s, m, e, hm, rfl⟩

theorem canonical_of_isFinite {x : Float} {s : Sign} {m : Nat} {e : Int} {hm : 0 < m}
    (hx : x.isFinite = true) (h : x.toModel.unpack = .finite s m e hm) : Canonical m e := by
  obtain ⟨hlog, htarget⟩ := canonical_unpack h
  have hpackable : Packable x.toModel.unpack := packable_unpack hx
  rw [h] at hpackable
  cases hpackable with
  | finite _ _ he => exact ⟨hm, hlog, htarget, he⟩

theorem beq_zero_of_finite {x : Float} {s : Sign} {m : Nat} {e : Int} {hm : 0 < m}
    (h : x.toModel.unpack = .finite s m e hm) : (x == 0) = false := by
  change UnpackedFloat.beq x.toModel.unpack (.zero .positive) = false
  rw [h]
  cases s <;> rfl

theorem beq_zero_of_zero {x : Float} {s : Sign} (h : x.toModel.unpack = .zero s) :
    (x == 0) = true := by
  change UnpackedFloat.beq x.toModel.unpack (.zero .positive) = true
  rw [h]
  rfl

theorem signedText_zero : SignedText ['0'] 0 :=
  .plain (.whole (List.cons_ne_nil _ _) (List.forall_mem_singleton.2 rfl) .none)

/-- Without its sign, a number is written as a numeral that is read as the number. -/
theorem exists_numeralText {x : Float} {s : Sign} {m : Nat} {e : Int} {hm : 0 < m}
    (hx : x.isFinite = true) (h : x.toModel.unpack = .finite s m e hm) :
    ∃ w n, NumeralText w n ∧ (format x).toList = (if s == .negative then ['-'] else []) ++ w ∧
      n.toFloat = .ofModel (.pack (.finite .positive m e hm)) := by
  have hc := canonical_of_isFinite hx h
  have hformed := Decimal.leading_formed (shortest_digits_pos .larger hc)
  have hwrites : Writes
      (if -6 ≤ (shortest .larger m e).leading.exponent ∧
          (shortest .larger m e).leading.exponent ≤ 20 then
        (shortest .larger m e).leading.positional []
      else (shortest .larger m e).leading.scientific ['+'])
      (shortest .larger m e).leading.value := by
    split
    · exact hformed.positional
    · exact hformed.scientific
  obtain ⟨n, hn, hvalue⟩ := hwrites
  refine ⟨_, n, hn, ?_, ?_⟩
  · rw [format, Style.write, String.toList_ofList, h]
    rfl
  · have hwithin := shortest_within .larger hc
    rw [← Decimal.leading_value, ← hvalue] at hwithin
    exact hwithin.toFloat_eq hc

theorem format_cases {x : Float} {s : Sign} {m : Nat} {e : Int} {hm : 0 < m}
    (hx : x.isFinite = true) (h : x.toModel.unpack = .finite s m e hm) :
    ∃ w n, NumeralText w n ∧
      (s = .positive ∧ (format x).toList = w ∧ x = n.toFloat ∨
        s = .negative ∧ (format x).toList = '-' :: w ∧ x = -n.toFloat) := by
  obtain ⟨w, n, hw, hformat, hn⟩ := exists_numeralText hx h
  refine ⟨w, n, hw, ?_⟩
  cases s with
  | positive => exact .inl ⟨rfl, hformat, (eq_of_unpack h).trans hn.symm⟩
  | negative =>
    have hneg : (-x).toModel.unpack = .finite .positive m e hm := by
      rw [neg_unpack, h]
      rfl
    refine .inr ⟨rfl, hformat, ?_⟩
    rw [hn, ← eq_of_unpack hneg, float_neg_neg]

/-- The text of a finite number is read as the number. -/
theorem signedText_format {x : Float} (hx : x.isFinite = true) :
    SignedText (format x).toList (foldZero x) := by
  obtain ⟨s, h⟩ | ⟨s, m, e, hm, h⟩ := unpack_cases hx
  · have hformat : (format x).toList = ['0'] := by
      rw [format, Style.write, String.toList_ofList, h]
      rfl
    rw [foldZero_of_beq (beq_zero_of_zero h), hformat]
    exact signedText_zero
  · rw [foldZero_of_not_beq (beq_zero_of_finite h)]
    obtain ⟨w, n, hw, ⟨-, hformat, rfl⟩ | ⟨-, hformat, rfl⟩⟩ := format_cases hx h
    · rw [hformat]
      exact .plain hw
    · rw [hformat]
      exact .minus hw

end Spreadsheet
