import Spreadsheet.Engine
import Spreadsheet.Proofs.Numerals.Digits
import Spreadsheet.Proofs.Numerals.Wholes

/-!
Numerals of any radix. `BASE` works on whole numbers and `DECIMAL` on floats, digit by digit. Up to
`2 ^ 53` none of the steps is rounded, so that each undoes the other.
-/

namespace Spreadsheet

variable {scope : Scope} {source : Source}

namespace Numeral

open Number (truncate within toRadix ofRadix? padZeros stripZeros digitIn?)

/-! ### Bounds -/

theorem wholeBetween_whole {low high n : Nat} (hlow : low ≤ n) (hhigh : n ≤ high) :
    wholeBetween (Float.ofNat low) (Float.ofNat high) (Float.ofNat n) = .ok (Float.ofNat n) := by
  have hwithin : within (Float.ofNat low) (Float.ofNat high) (Float.ofNat n) = true := by
    rw [within, Bool.and_eq_true, decide_eq_true_iff, decide_eq_true_iff]
    exact ⟨ofNat_le_ofNat hlow, ofNat_le_ofNat hhigh⟩
  rw [wholeBetween, Number.truncate_whole, if_pos hwithin]

/-! ### Reading digits as a float -/

/-- One more digit of a number in a radix. -/
def addDigit (r : Nat) (radix acc : Float) (c : Char) : Result Float := do
  let d ← orError .num (digitIn? r c)
  return acc * radix + Float.ofNat d

/-- The numbers on the way are whole and not above the last, so none is rounded. -/
theorem foldlM_addDigit {r n : Nat} {cs : List Char} (hr : 0 < r) (hr' : r ≤ 36)
    (h : ofRadix? r cs = some n) (hn : n ≤ 2 ^ 53) :
    cs.foldlM (addDigit r (Float.ofNat r)) 0 = .ok (Float.ofNat n) := by
  induction cs using List.reverseRecOn generalizing n with
  | nil =>
    cases h
    rfl
  | append_singleton cs c ih =>
    obtain ⟨m, hm, d, hd, rfl⟩ := Number.ofRadix?_concat.1 h
    have hproduct : m * r ≤ 2 ^ 53 := by
      rw [Nat.mul_comm]
      exact Nat.le_trans (Nat.le_add_right _ _) hn
    have hle : m ≤ 2 ^ 53 := Nat.le_trans (Nat.le_mul_of_pos_right m hr) hproduct
    have hstep : Float.ofNat m * Float.ofNat r + Float.ofNat d = Float.ofNat (r * m + d) := by
      rw [ofNat_mul hr (by omega) hproduct, Nat.mul_comm, ofNat_add hn]
    rw [List.foldlM_append, ih hm hle]
    change (addDigit r (Float.ofNat r) (Float.ofNat m) c >>= pure) = _
    rw [addDigit, hd, ← hstep]
    rfl

/-! ### Functions -/

section

variable {args : List Argument} {n r length : Nat} {t : String}

theorem base_eq (hnumber : numberAt args 0 = .ok (Float.ofNat n))
    (hradix : numberAt args 1 = .ok (Float.ofNat r))
    (hlength : numberAtOr args 2 0 = .ok (Float.ofNat length)) (hn : n ≤ 2 ^ 53) (hr : 2 ≤ r)
    (hr' : r ≤ 36) (hlong : length ≤ 255) :
    base args = .ok (.text (String.ofList (padZeros length (toRadix r n)))) := by
  have hmost : n ≤ 9007199254740992 := hn
  have hx : wholeBetween 0 9007199254740992 (Float.ofNat n) = .ok (Float.ofNat n) :=
    wholeBetween_whole (Nat.zero_le n) hmost
  have hbase : wholeBetween 2 36 (Float.ofNat r) = .ok (Float.ofNat r) := wholeBetween_whole hr hr'
  have hmax : wholeBetween 0 maxLength (Float.ofNat length) = .ok (Float.ofNat length) := by
    rw [maxLength]
    exact wholeBetween_whole (Nat.zero_le length) hlong
  rw [base, hnumber, hradix, hlength]
  dsimp only [bind, Except.bind]
  rw [hx]
  dsimp only
  rw [hbase]
  dsimp only
  rw [hmax]
  dsimp only
  rw [Number.toNat64_whole hn, Number.toNat64_whole (by omega), Number.toNat64_whole (by omega)]
  rfl

theorem decimal_eq (htext : textAt args 0 = .ok t) (hradix : numberAt args 1 = .ok (Float.ofNat r))
    (hr : 2 ≤ r) (hr' : r ≤ 36) (hne : Unicode.trim t.toList ≠ [])
    (h : ofRadix? r (Unicode.trim t.toList) = some n) (hn : n ≤ 2 ^ 53) :
    decimal args = .ok (Float.ofNat n) := by
  have hbase : wholeBetween 2 36 (Float.ofNat r) = .ok (Float.ofNat r) := wholeBetween_whole hr hr'
  have hdigits : (Unicode.trim t.toList).isEmpty = false := List.isEmpty_eq_false_iff.2 hne
  rw [decimal, htext, hradix]
  dsimp only [bind, Except.bind]
  rw [hbase]
  dsimp only
  rw [hdigits, Number.toNat64_whole (by omega)]
  exact foldlM_addDigit (by omega) hr' h hn

end

/-! ### Calls -/

section

variable {number radix length text : Expr} {n r width : Nat} {t : String}

theorem find?_base (hfind : scope.functions.find? "BASE" = Registry.find? builtins "BASE") :
    scope.functions.find? "BASE" = some (.ofValues "BASE" .math 2 (some 3) base) := hfind

theorem evaluates_base (hfind : scope.functions.find? "BASE" = Registry.find? builtins "BASE")
    (hnumber : number.Reads scope source (.number (Float.ofNat n)))
    (hradix : radix.Reads scope source (.number (Float.ofNat r))) (hn : n ≤ 2 ^ 53) (hr : 2 ≤ r)
    (hr' : r ≤ 36) : (Expr.call "BASE" [number, radix]).Evaluates scope source
      (.text (String.ofList (toRadix r n))) := by
  have hnumeral (args : List Argument)
      (hargs : AreArguments args [.number (Float.ofNat n), .number (Float.ofNat r)]) :
      base args = .ok (.text (String.ofList (toRadix r n))) := by
    have hnone : numberAtOr args 2 0 = .ok (Float.ofNat 0) := hargs.numberAtOr 0
    rw [base_eq (hargs.numberAt rfl) (hargs.numberAt rfl) hnone hn hr hr' (by omega),
      Number.padZeros_zero]
  exact evaluates_call (find?_base hfind) rfl rfl (.cons hnumber (.cons hradix .nil))
    (by simp [Value.isPlain]) hnumeral

theorem evaluates_base_padded
    (hfind : scope.functions.find? "BASE" = Registry.find? builtins "BASE")
    (hnumber : number.Reads scope source (.number (Float.ofNat n)))
    (hradix : radix.Reads scope source (.number (Float.ofNat r)))
    (hlength : length.Reads scope source (.number (Float.ofNat width))) (hn : n ≤ 2 ^ 53)
    (hr : 2 ≤ r) (hr' : r ≤ 36) (hwidth : width ≤ 255) :
    (Expr.call "BASE" [number, radix, length]).Evaluates scope source
      (.text (String.ofList (padZeros width (toRadix r n)))) :=
  evaluates_call (find?_base hfind) rfl rfl (.cons hnumber (.cons hradix (.cons hlength .nil)))
    (by simp [Value.isPlain]) fun args hargs =>
      base_eq (hargs.numberAt rfl) (hargs.numberAt rfl) (hargs.numberAtOr 0) hn hr hr'
        hwidth

theorem evaluates_decimal
    (hfind : scope.functions.find? "DECIMAL" = Registry.find? builtins "DECIMAL")
    (htext : text.Reads scope source (.text t))
    (hradix : radix.Reads scope source (.number (Float.ofNat r))) (hr : 2 ≤ r) (hr' : r ≤ 36)
    (hne : Unicode.trim t.toList ≠ []) (h : ofRadix? r (Unicode.trim t.toList) = some n)
    (hn : n ≤ 2 ^ 53) :
    (Expr.call "DECIMAL" [text, radix]).Evaluates scope source (.number (Float.ofNat n)) := by
  have hfind : scope.functions.find? "DECIMAL" =
      some (.ofNumbers "DECIMAL" .math 2 (some 2) decimal) := hfind
  have hcall := evaluates_call hfind rfl rfl (.cons htext (.cons hradix .nil))
    (by simp [Value.isPlain]) fun args hargs => congrArg (Except.map Value.number)
      (decimal_eq (hargs.textAt rfl) (hargs.numberAt rfl) hr hr' hne h hn)
  change (Expr.call "DECIMAL" [text, radix]).Evaluates scope source
    (if (Float.ofNat n).isFinite then _ else _) at hcall
  rwa [if_pos (isFinite_ofNat hn)] at hcall

end

/-- `BASE` and `DECIMAL` undo each other. The numeral of a whole number of at most `2 ^ 53` has at
least as many digits as it is asked for, and its number is that number. The numeral of the number
of some digits, which white space may stand around, is the digits in capitals without the zeros in
front. -/
theorem base_decimal {radix : Expr} {r : Nat}
    (hbase : scope.functions.find? "BASE" = Registry.find? builtins "BASE")
    (hdecimal : scope.functions.find? "DECIMAL" = Registry.find? builtins "DECIMAL")
    (hradix : radix.Reads scope source (.number (Float.ofNat r))) (hr : 2 ≤ r) (hr' : r ≤ 36) :
    (∀ (number length : Expr) (n width : Nat), n ≤ 2 ^ 53 → width ≤ 255 →
      number.Reads scope source (.number (Float.ofNat n)) →
      length.Reads scope source (.number (Float.ofNat width)) →
      (∃ s, (Expr.call "BASE" [number, radix, length]).Evaluates scope source (.text s) ∧
        width ≤ s.length) ∧
      (Expr.call "DECIMAL" [.call "BASE" [number, radix, length], radix]).Evaluates scope source
        (.number (Float.ofNat n))) ∧
    ∀ (text : Expr) (t : String) (n : Nat), text.Reads scope source (.text t) →
      Unicode.trim t.toList ≠ [] → ofRadix? r (Unicode.trim t.toList) = some n → n ≤ 2 ^ 53 →
      (Expr.call "DECIMAL" [text, radix]).Evaluates scope source (.number (Float.ofNat n)) ∧
      (Expr.call "BASE" [.call "DECIMAL" [text, radix], radix]).Evaluates scope source
        (.text (String.ofList (stripZeros (Unicode.upper (Unicode.trim t.toList))))) := by
  constructor
  · intro number length n width hn hwidth hnumber hlength
    have hnumeral := evaluates_base_padded hbase hnumber hradix hlength hn hr hr' hwidth
    have hread : ofRadix? r (padZeros width (toRadix r n)) = some n := by
      rw [Number.ofRadix?_padZeros (by omega), Number.ofRadix?_toRadix hr hr']
    have hne : padZeros width (toRadix r n) ≠ [] :=
      List.append_ne_nil_of_right_ne_nil _ (Number.toRadix_ne_nil r n)
    have htrim : Unicode.trim (String.ofList (padZeros width (toRadix r n))).toList =
        padZeros width (toRadix r n) := by
      rw [String.toList_ofList, Number.trim_of_ofRadix? hread]
    have hlong : width ≤ (padZeros width (toRadix r n)).length := by
      rw [padZeros, List.length_append, List.length_replicate]
      omega
    refine ⟨⟨_, hnumeral, ?_⟩, evaluates_decimal hdecimal hnumeral.reads_text hradix hr hr'
      ?_ ?_ hn⟩
    · rwa [String.length_ofList]
    · rwa [htrim]
    · rwa [htrim]
  · intro text t n htext hne h hn
    have hnumber := evaluates_decimal hdecimal htext hradix hr hr' hne h hn
    have hnumeral := evaluates_base hbase hnumber.reads_number hradix hn hr hr'
    rw [Number.toRadix_of_ofRadix? hr h] at hnumeral
    exact ⟨hnumber, hnumeral⟩

theorem base_decimal_hexadecimal :
    ((∃ s, (Expr.call "BASE" [.literal (.number 255), .literal (.number 16),
        .literal (.number 4)]).Evaluates ((Engine.new .zero [] []).scope none) Source.zero
          (.text s) ∧ 4 ≤ s.length) ∧
      (Expr.call "DECIMAL" [.call "BASE" [.literal (.number 255), .literal (.number 16),
        .literal (.number 4)], .literal (.number 16)]).Evaluates
          ((Engine.new .zero [] []).scope none) Source.zero (.number 255)) ∧
    (Expr.call "BASE" [.call "DECIMAL" [.literal (.text " 00fF "), .literal (.number 16)],
      .literal (.number 16)]).Evaluates ((Engine.new .zero [] []).scope none) Source.zero
        (.text "FF") := by
  have hradix : (Expr.literal (.number 16)).Reads ((Engine.new .zero [] []).scope none)
      Source.zero (.number (Float.ofNat 16)) := rfl
  obtain ⟨hback, hforth⟩ := base_decimal rfl rfl hradix (by decide) (by decide)
  refine ⟨hback _ _ 255 4 (by decide) (by decide) rfl rfl, ?_⟩
  exact (hforth (.literal (.text " 00fF ")) _ 255 rfl (by decide) rfl (by decide)).2

end Numeral

end Spreadsheet
