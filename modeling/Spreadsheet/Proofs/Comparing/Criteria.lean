import Mathlib.Data.List.TakeDrop
import Spreadsheet.Criterion
import Spreadsheet.Proofs.Comparing.Values

/-!
Criteria compare as formulas do. A criterion that compares with a number, a text or a boolean holds
of a value where the formula that compares the value with the same operand says `TRUE`.
-/

namespace Spreadsheet

/-- Trimming keeps what a text begins with unless that is white space. -/
theorem Unicode.trim_cons {c : Char} (hc : isWhiteSpace c = false) (cs : List Char) :
    ∃ ds, trim (c :: cs) = c :: ds := by
  have hkept (ds : List Char) : (c :: ds).dropWhile isWhiteSpace = c :: ds := by
    rw [List.dropWhile_cons, if_neg (ne_true_of_eq_false hc)]
  rw [trim, hkept, List.reverse_cons, List.dropWhile_append, hkept]
  cases (cs.reverse.dropWhile isWhiteSpace).isEmpty with
  | true => exact ⟨[], rfl⟩
  | false => exact ⟨_, List.reverse_concat⟩

namespace Number

theorem takeNumeral_eq_none {c : Char} (hc : c = '=' ∨ c = '>') (cs : List Char) :
    takeNumeral (c :: cs) = none := by
  have hdigits : takeDigits (c :: cs) = ([], c :: cs) := by
    rw [takeDigits, List.span_eq_takeWhile_dropWhile, List.takeWhile_cons, List.dropWhile_cons]
    rcases hc with rfl | rfl <;> rfl
  rw [takeNumeral, hdigits]
  rcases hc with rfl | rfl <;> rfl

/-- No number begins with the end of a comparison operator. -/
theorem read?_eq_none {s : String} {c : Char} {cs : List Char} (hs : s.toList = c :: cs)
    (hc : c = '=' ∨ c = '>') : read? s = none := by
  have hblank : Unicode.isWhiteSpace c = false := by rcases hc with rfl | rfl <;> decide
  have hsign (ds : List Char) : takeSign (c :: ds) = (false, c :: ds) := by
    rcases hc with rfl | rfl <;> rfl
  obtain ⟨ds, hds⟩ := Unicode.trim_cons hblank cs
  have htaken : takeSigned (c :: ds) = none := by
    simp only [takeSigned, hsign, takeNumeral_eq_none hc, Option.map_none]
  simp only [read?, hs, hds, htaken]

end Number

namespace Criterion

theorem operandOf_eq_text {s : String} {c : Char} {cs : List Char} (hs : s.toList = c :: cs)
    (hc : c = '=' ∨ c = '>') : operandOf s = .text s := by
  have hspelled {t : String} {d : Char} {ds : List Char} (ht : t.toList = d :: ds)
      (h : c.toLower ≠ d.toLower) : ¬ Unicode.sameAscii s t = true := by
    rw [Unicode.sameAscii, hs, ht, beq_iff_eq]
    exact fun heq => h (List.cons.inj heq).1
  rw [operandOf, if_neg, if_neg, Number.read?_eq_none hs hc]
  · apply hspelled (String.toList_ofList (l := 'F' :: _))
    rcases hc with rfl | rfl <;> decide
  · apply hspelled (String.toList_ofList (l := 'T' :: _))
    rcases hc with rfl | rfl <;> decide

/-- One of `<`, `=` and `>` is taken from the head of a text unless it goes on as an operator. -/
theorem takeComparison_symbol {op : Comparison} (hop : op ∈ Comparison.strict) {cs : List Char}
    (hcs : ∀ c ∈ cs.head?, c ≠ '=' ∧ c ≠ '>') :
    takeComparison (op.symbol.toList ++ cs) = some (op, cs) := by
  obtain ⟨o, rfl⟩ := Comparison.mem_strict_iff.1 hop
  cases cs with
  | nil => cases o <;> rfl
  | cons c cs =>
    obtain ⟨hequal, hgreater⟩ := hcs c rfl
    have hequal (ds : List Char) : c :: cs ≠ '=' :: ds := fun h => hequal (List.cons.inj h).1
    have hgreater (ds : List Char) : c :: cs ≠ '>' :: ds := fun h => hgreater (List.cons.inj h).1
    cases o with
    | eq => rfl
    | lt => exact takeComparison.eq_5 _ hequal hgreater
    | gt => exact takeComparison.eq_4 _ hequal

theorem error?_operandOf (s : String) : (operandOf s).error? = none := by
  unfold operandOf
  split
  · rfl
  · split
    · rfl
    · split <;> rfl

/-- A boolean or a number after `<`, `=` or `>` is what the criterion compares with. -/
theorem ofValue_strict {op : Comparison} (hop : op ∈ Comparison.strict) {s : String}
    (hs : ∀ t, operandOf s ≠ .text t) :
    ofValue (.text (op.symbol ++ s)) = comparison op (operandOf s) := by
  have hhead : ∀ c ∈ s.toList.head?, c ≠ '=' ∧ c ≠ '>' := by
    intro c hc
    obtain ⟨cs, hcs⟩ := List.head?_eq_some_iff.1 hc
    constructor
    · rintro rfl
      exact hs s (operandOf_eq_text hcs (.inl rfl))
    · rintro rfl
      exact hs s (operandOf_eq_text hcs (.inr rfl))
  have htaken := takeComparison_symbol hop hhead
  rw [← String.toList_append] at htaken
  obtain ⟨o, rfl⟩ := Comparison.mem_strict_iff.1 hop
  cases o with
  | lt | gt =>
    simp only [Comparison.ofOrdering] at htaken
    simp only [ofValue, Value.scalar, Comparison.ofOrdering, htaken, String.ofList_toList]
  | eq =>
    simp only [Comparison.ofOrdering] at htaken
    simp only [ofValue, Value.scalar, Comparison.ofOrdering, htaken, equalTo, String.ofList_toList]

theorem holds_comparison {v w : Value} (hempty : v ≠ .empty) (hv : v.error? = none)
    (hw : w.error? = none) (op : Comparison) :
    (comparison op w).holds v = op.accepts (v.order w) := by
  cases v with
  | empty => exact absurd rfl hempty
  | error e => cases hv
  | _ => cases w <;> first | rfl | cases hw

end Criterion

/-- What a criterion can compare with: a number, a text or a boolean. -/
def Value.isOperand : Value → Bool
  | number _ | text _ | boolean _ => true
  | _ => false

theorem Value.error?_of_isOperand {w : Value} (h : w.isOperand = true) : w.error? = none := by
  cases w with
  | error e => cases h
  | _ => rfl

theorem Value.not_isArray_of_isOperand {w : Value} (h : w.isOperand = true) :
    w.isArray = false := by
  cases w with
  | array rows => cases h
  | _ => rfl

namespace Criterion

/-- A criterion holds of a value where the formula that compares the value with the operand says
`TRUE`. -/
theorem holds_comparison_iff {v w : Value} (hempty : v.scalar ≠ .empty)
    (hv : v.scalar.error? = none) (hw : w.isOperand = true) (op : Comparison) :
    (comparison op w).holds v = true ↔ v.Compares op w := by
  have hew := Value.error?_of_isOperand hw
  rw [Value.compares_iff hempty hv (Value.not_isArray_of_isOperand hw) hew,
    holds_comparison (Value.ne_empty_of_scalar hempty) (Value.error?_eq_none_of_scalar hv) hew]

theorem existsUnique_holds {v w : Value} (hempty : v ≠ .empty) (hv : v.error? = none)
    (hw : w.error? = none) : ∃! op, op ∈ Comparison.strict ∧ (comparison op w).holds v = true := by
  simp only [holds_comparison hempty hv hw]
  exact Comparison.existsUnique_strict _

/-- Of the criteria `<x`, `=x` and `>x` with a number or a boolean `x`, one holds of a value. -/
theorem existsUnique_holds_text {v : Value} {s : String} (hempty : v ≠ .empty)
    (hv : v.error? = none) (hs : ∀ t, operandOf s ≠ .text t) :
    ∃! op, op ∈ Comparison.strict ∧ (ofValue (.text (op.symbol ++ s))).holds v = true := by
  obtain ⟨op, ⟨hop, hholds⟩, hunique⟩ := existsUnique_holds hempty hv (error?_operandOf s)
  refine ⟨op, ⟨hop, ?_⟩, ?_⟩
  · rw [ofValue_strict hop hs]
    exact hholds
  · rintro op' ⟨hop', hholds'⟩
    rw [ofValue_strict hop' hs] at hholds'
    exact hunique op' ⟨hop', hholds'⟩

end Criterion

/-- There is one order. It does not depend on the side on which a value stands, it is transitive
where there is neither a blank nor NaN, and it has numbers before texts before booleans. Operators
and criteria say what it says. -/
theorem one_order :
    (∀ v w : Value, w.order v = (v.order w).swap ∧ v.order w = v.scalar.order w.scalar) ∧
    (∀ u v w : Value, u.Ordered → v.Ordered → w.Ordered →
      (∀ o, u.order v = o → v.order w = o → u.order w = o) ∧
      ((u.order v).isLE → (v.order w).isLE → (u.order w).isLE)) ∧
    (∀ (x : Float) (s : String) (b : Bool), (Value.number x).order (.text s) = .lt ∧
      (Value.text s).order (.boolean b) = .lt ∧ (Value.number x).order (.boolean b) = .lt) ∧
    (∀ v w : Value, v.isArray = false → w.isArray = false → v.error? = none → w.error? = none →
      (∀ op, ∃ b, (ValueOp.comparison op).apply v w = .boolean b) ∧
      (∀ o, v.Compares (.ofOrdering o) w ↔ v.order w = o) ∧
      (∃! op, op ∈ Comparison.strict ∧ v.Compares op w) ∧
      ∀ op : Comparison, v.Compares op.negation w ↔ ¬ v.Compares op w) ∧
    ∀ v : Value, v.scalar ≠ .empty → v.scalar.error? = none →
      (∀ (op : Comparison) (w : Value), w.isOperand = true →
        ((Criterion.comparison op w).holds v = true ↔ v.Compares op w)) ∧
      (∀ w : Value, w.isOperand = true →
        ∃! op, op ∈ Comparison.strict ∧ (Criterion.comparison op w).holds v = true) ∧
      ∀ s : String, (∀ t, Criterion.operandOf s ≠ .text t) →
        ∃! op, op ∈ Comparison.strict ∧
          (Criterion.ofValue (.text (op.symbol ++ s))).holds v = true := by
  refine ⟨fun v w => ⟨Value.order_swap v w, Value.order_scalar v w⟩, ?_, ?_, ?_, ?_⟩
  · intro u v w hu hv hw
    exact ⟨fun o => Value.order_trans hu hv hw, Value.order_isLE_trans hu hv hw⟩
  · intro x s b
    exact ⟨Value.number_order_text x s, Value.text_order_boolean s b,
      Value.number_order_boolean x b⟩
  · intro v w hv hw hev hew
    have hcompares := Value.compares_iff_of_not_array hv hw hev hew
    refine ⟨fun op => ⟨_, ValueOp.apply_comparison hv hw hev hew op⟩, ?_, ?_, ?_⟩
    · intro o
      rw [hcompares, Comparison.accepts_ofOrdering]
    · simp only [hcompares]
      exact Comparison.existsUnique_strict _
    · intro op
      rw [hcompares, hcompares, Comparison.accepts_negation, Bool.not_eq_true, Bool.not_eq_true']
  · intro v hempty herror
    have hne := Value.ne_empty_of_scalar hempty
    have hev := Value.error?_eq_none_of_scalar herror
    refine ⟨?_, ?_, ?_⟩
    · intro op w hw
      exact Criterion.holds_comparison_iff hempty herror hw op
    · intro w hw
      exact Criterion.existsUnique_holds hne hev (Value.error?_of_isOperand hw)
    · intro s hs
      exact Criterion.existsUnique_holds_text hne hev hs

theorem one_order_of_sixty :
    (Value.number 60).order (.boolean true) = .lt ∧
      (∃! op, op ∈ Comparison.strict ∧ (Value.text "b").Compares op (.text "B")) ∧
      ((Criterion.comparison .greaterEqual (.number 55)).holds (.number 60) = true ↔
        (Value.number 60).Compares .greaterEqual (.number 55)) ∧
      (∃! op, op ∈ Comparison.strict ∧
        (Criterion.comparison op (.number 55)).holds (.number 60) = true) ∧
      ∃! op, op ∈ Comparison.strict ∧
        (Criterion.ofValue (.text (op.symbol ++ "55"))).holds (.number 60) = true := by
  have hnumber : (Value.number 60).Ordered := by
    change (60 : Float).isNaN = false
    decide
  have hread (t : String) : Criterion.operandOf "55" ≠ .text t := by
    intro h
    have hrank : (Criterion.operandOf "55").rank = 0 := by decide
    rw [h] at hrank
    cases hrank
  obtain ⟨-, htrans, hkinds, hoperators, hcriteria⟩ := one_order
  obtain ⟨hless, hless', -⟩ := hkinds 60 "b" true
  obtain ⟨horder, -⟩ := htrans (.number 60) (.text "b") (.boolean true) hnumber trivial trivial
  obtain ⟨-, -, hone, -⟩ := hoperators (.text "b") (.text "B") rfl rfl rfl rfl
  obtain ⟨hholds, hstrict, hwritten⟩ := hcriteria (.number 60) nofun rfl
  exact ⟨horder .lt hless hless', hone, hholds .greaterEqual (.number 55) rfl,
    hstrict (.number 55) rfl, hwritten "55" hread⟩

end Spreadsheet
