import Mathlib.Data.List.Count
import Spreadsheet.Function.Conditional
import Spreadsheet.Proofs.Comparing.Criteria
import Spreadsheet.Proofs.Evaluation.Runs
import Spreadsheet.Proofs.Wildcards.Matching

/-!
Criteria with `=` and `<>` before the same text. They are opposites where the text is empty or reads
as a boolean or a number. Other text is a pattern behind `=` and is compared by its lower case
behind `<>`, so that a text may meet both criteria, or neither.
-/

namespace Spreadsheet

/-! ### Lower case -/

theorem Unicode.lower_ne_nil {cs : List Char} (h : cs ≠ []) : lower cs ≠ [] := by
  cases cs with
  | nil => exact absurd rfl h
  | cons c cs =>
    rw [lower, lowerFrom]
    refine List.append_ne_nil_of_left_ne_nil ?_ _
    split
    · exact List.cons_ne_nil _ _
    · rw [lowerChar]
      split
      · exact List.cons_ne_nil _ _
      · split <;> exact List.cons_ne_nil _ _

theorem compareText_eq_iff {as bs : List Char} : compareText as bs = .eq ↔ as = bs := by
  have hinjective : Function.Injective Char.toNat := fun _ _ h => Char.toNat_inj.1 h
  rw [compareText_eq, Std.LawfulEqCmp.compare_eq_iff_eq,
    (List.map_injective_iff.2 hinjective).eq_iff]

/-- Texts of one lower case. -/
def SameLower (s t : String) : Prop := Unicode.lower s.toList = Unicode.lower t.toList

theorem Value.order_text_eq_iff {v : Value} {x : String} (hx : x ≠ "") :
    v.order (.text x) = .eq ↔ ∃ t, v.scalar = .text t ∧ SameLower t x := by
  have hx' : x.toList ≠ [] := fun h => hx (String.toList_eq_nil_iff.1 h)
  rw [order, show (Value.text x).scalar = .text x from rfl]
  cases hv : v.scalar with
  | text t =>
    refine compareText_eq_iff.trans ⟨fun h => ⟨t, rfl, h⟩, ?_⟩
    rintro ⟨_, heq, h⟩
    cases heq
    exact h
  | empty =>
    refine compareText_eq_iff.trans ⟨fun h => absurd h.symm (Unicode.lower_ne_nil hx'), ?_⟩
    rintro ⟨_, heq, -⟩
    cases heq
  | number _ | boolean _ | error _ | array _ | reference _ =>
    constructor
    · intro h
      cases h
    · rintro ⟨_, heq, -⟩
      cases heq

namespace Criterion

theorem eq_of_operandOf {s t : String} (h : operandOf s = .text t) : t = s := by
  unfold operandOf at h
  split at h
  · cases h
  · split at h
    · cases h
    · split at h
      · cases h
      · cases h
        rfl

/-- The criterion written with `=` before the text. -/
def equals (x : String) : Criterion := ofValue (.text ("=" ++ x))

/-- The criterion written with `<>` before the text. -/
def differs (x : String) : Criterion := ofValue (.text ("<>" ++ x))

theorem equals_eq (x : String) : equals x = equalTo x.toList := ofValue_equal rfl

theorem differs_eq (x : String) : differs x = comparison .notEqual (operandOf x) := by
  have htoList : ("<>" ++ x).toList = '<' :: '>' :: x.toList := String.toList_append ..
  rw [differs, ofValue, show (Value.text ("<>" ++ x)).scalar = .text ("<>" ++ x) from rfl]
  dsimp only
  rw [htoList]
  change comparison .notEqual (operandOf (String.ofList x.toList)) = _
  rw [String.ofList_toList]

/-- Text stays a text to match unless it is empty or reads as a boolean or a number. -/
def IsPattern (x : String) : Prop := x ≠ "" ∧ operandOf x = .text x

theorem equalTo_of_not_isPattern {x : String} (hx : ¬ IsPattern x) :
    equalTo x.toList = comparison .equal (operandOf x) := by
  by_cases hempty : x = ""
  · subst hempty
    rfl
  · rw [equalTo, String.ofList_toList]
    split
    · next t h =>
      obtain rfl := eq_of_operandOf h
      exact absurd ⟨hempty, h⟩ hx
    · rfl

theorem holds_notEqual (v w : Value) :
    (comparison .notEqual w).holds v = !(comparison .equal w).holds v := by
  cases v with
  | empty => rfl
  | _ => cases w <;> rfl

theorem holds_equal_text_iff {v : Value} {x : String} (hx : x ≠ "") :
    (comparison .equal (.text x)).holds v = true ↔ ∃ t, v.scalar = .text t ∧ SameLower t x := by
  have haccepts : Comparison.equal.accepts (v.order (.text x)) = true ↔
      ∃ t, v.scalar = .text t ∧ SameLower t x :=
    (Comparison.accepts_ofOrdering .eq _).trans (Value.order_text_eq_iff hx)
  cases v with
  | empty =>
    refine ⟨fun h => absurd (String.isEmpty_iff.1 h) hx, ?_⟩
    rintro ⟨_, heq, -⟩
    cases heq
  | error e => exact ⟨nofun, fun ⟨_, heq, _⟩ => nomatch heq⟩
  | _ => exact haccepts

section

variable {x : String} {v : Value}

theorem differs_of_not_isPattern (hx : ¬ IsPattern x) (v : Value) :
    (differs x).holds v = !(equals x).holds v := by
  rw [differs_eq, equals_eq, equalTo_of_not_isPattern hx, holds_notEqual]

theorem equals_holds_iff (hx : IsPattern x) (v : Value) :
    (equals x).holds v = true ↔
      ∃ t, v = .text t ∧ Pattern.Matches x.toList t.toList := by
  rw [equals_eq, equalTo_text hx.1 hx.2, holds_pattern_iff]

theorem differs_holds_iff (hx : IsPattern x) (v : Value) :
    (differs x).holds v = true ↔ ¬ ∃ t, v.scalar = .text t ∧ SameLower t x := by
  rw [differs_eq, hx.2, holds_notEqual, Bool.not_eq_true', ← holds_equal_text_iff hx.1,
    Bool.not_eq_true]

/-- The criteria are opposites at the values where matching agrees with comparing. -/
theorem differs_of_iff (hx : IsPattern x)
    (hv : (∃ t, v = .text t ∧ Pattern.Matches x.toList t.toList) ↔
      ∃ t, v.scalar = .text t ∧ SameLower t x) :
    (differs x).holds v = !(equals x).holds v := by
  rw [Bool.eq_iff_iff, differs_holds_iff hx, Bool.not_eq_true', Bool.eq_false_iff, Ne,
    equals_holds_iff hx, hv]

end

end Criterion

/-! ### Plain texts -/

/-- A text of ASCII characters none of which is a wildcard. -/
def Plain (cs : List Char) : Prop := ∀ c ∈ cs, c.toNat < 128 ∧ c ∉ ['*', '?', '~']

theorem Unicode.lower_ascii {cs : List Char} (h : ∀ c ∈ cs, c.toNat < 128) :
    lower cs = cs.map Char.toLower := by
  suffices hfrom : ∀ before, lowerFrom before cs = cs.map Char.toLower from hfrom []
  induction cs with
  | nil => exact fun _ => rfl
  | cons c cs ih =>
    intro before
    have hc := h c List.mem_cons_self
    have hsigma : (c == 'Σ') = false := by
      refine Bool.eq_false_iff.2 fun heq => ?_
      rw [eq_of_beq heq] at hc
      exact absurd hc (by decide)
    rw [lowerFrom, ih fun d hd => h d (List.mem_cons_of_mem c hd), hsigma, lowerChar, if_pos hc]
    rfl

theorem Pattern.matches_iff_of_plain {cs t : List Char} (h : ∀ c ∈ cs, c ∉ ['*', '?', '~']) :
    Matches cs t ↔ t.map Unicode.foldChar = cs.map Unicode.foldChar := by
  induction cs generalizing t with
  | nil => rw [← splits_parse_iff, parse, splits_nil_iff, List.map_nil, List.map_eq_nil_iff]
  | cons c cs ih =>
    have ih := fun t => @ih t fun d hd => h d (List.mem_cons_of_mem c hd)
    have hparse : parse (c :: cs) = .char c :: parse cs :=
      (Spells.other (h c List.mem_cons_self) (spells_parse cs)).parse_eq
    rw [← splits_parse_iff, hparse, splits_cons_iff, List.map_cons, List.map_eq_cons_iff]
    constructor
    · rintro ⟨_, rest, rfl, ⟨d, rfl, hd⟩, hrest⟩
      exact ⟨d, rest, rfl, hd, (ih rest).1 (splits_parse_iff.1 hrest)⟩
    · rintro ⟨d, rest, rfl, hd, hrest⟩
      exact ⟨[d], rest, rfl, ⟨d, rfl, hd⟩, splits_parse_iff.2 ((ih rest).2 hrest)⟩

theorem foldChar_ascii {cs : List Char} (h : ∀ c ∈ cs, c.toNat < 128) :
    cs.map Unicode.foldChar = cs.map Char.toLower :=
  List.map_congr_left fun c hc => if_pos (h c hc)

theorem matches_iff_sameLower {x t : String} (hx : Plain x.toList)
    (ht : ∀ c ∈ t.toList, c.toNat < 128) :
    Pattern.Matches x.toList t.toList ↔ SameLower t x := by
  have hx' : ∀ c ∈ x.toList, c.toNat < 128 := fun c hc => (hx c hc).1
  rw [Pattern.matches_iff_of_plain fun c hc => (hx c hc).2, SameLower, Unicode.lower_ascii ht,
    Unicode.lower_ascii hx', foldChar_ascii ht, foldChar_ascii hx']

/-! ### Counts -/

theorem countP_add_countP (p q : α → Bool) (l : List α) :
    l.countP p + l.countP q + l.countP (fun a => !p a && !q a) =
      l.length + l.countP fun a => p a && q a := by
  induction l with
  | nil => rfl
  | cons a l ih =>
    simp only [List.countP_cons, List.length_cons]
    cases p a <;> cases q a <;> simp <;> omega

/-- What is counted in a reference is what meets the criterion among its elements. -/
theorem Conditional.countIf_reference {source : Source} {r : Reference} {w : Value}
    (h : (r.read.run source).1 = .ok w) (position : Option Position) (x : String) :
    ((countIf position [.given (.done (.reference r)), .given (.done (.text x))]).run source).1 =
      .ok (.ok (.number (Float.ofNat
        (w.elements.countP (Criterion.ofValue (.text x)).holds)))) := by
  change ((r.read >>= fun w => _).run source).1 = _
  rw [Query.bind_ends_in h]
  rfl

/-- The criteria `=x` and `<>x` are opposites unless `x` stays a text to match. Then they are so at
every value that is no text, and among ASCII texts if `x` is one without wildcards; else the first
matches a pattern and the second compares lower cases. They count every value once that they are
opposites at. -/
theorem criteria_complements :
    (∀ (x : String) (v : Value), ¬ Criterion.IsPattern x →
      (Criterion.differs x).holds v =
        !(Criterion.equals x).holds v) ∧
    (∀ (x : String) (v : Value), Criterion.IsPattern x →
      ((Criterion.equals x).holds v = true ↔
        ∃ t, v = .text t ∧ Pattern.Matches x.toList t.toList) ∧
      ((Criterion.differs x).holds v = true ↔
        ¬ ∃ t, v.scalar = .text t ∧ SameLower t x) ∧
      ((∀ t, v.scalar ≠ .text t) ∨
          (∃ t, v = .text t ∧ ∀ c ∈ t.toList, c.toNat < 128) ∧ Plain x.toList →
        (Criterion.differs x).holds v =
          !(Criterion.equals x).holds v)) ∧
    ∀ (x : String) (r : Reference) (source : Source) (w : Value) (position : Option Position),
      (r.read.run source).1 = .ok w →
      ∃ m n, ((Conditional.countIf position [.given (.done (.reference r)),
          .given (.done (.text ("<>" ++ x)))]).run source).1 =
            .ok (.ok (.number (Float.ofNat m))) ∧
        ((Conditional.countIf position [.given (.done (.reference r)),
          .given (.done (.text ("=" ++ x)))]).run source).1 =
            .ok (.ok (.number (Float.ofNat n))) ∧
        m + n + w.elements.countP (fun v => !(Criterion.differs x).holds v &&
            !(Criterion.equals x).holds v) =
          w.elements.length + w.elements.countP fun v =>
            (Criterion.differs x).holds v &&
              (Criterion.equals x).holds v := by
  refine ⟨fun x v hx => Criterion.differs_of_not_isPattern hx v, ?_, ?_⟩
  · intro x v hx
    refine ⟨Criterion.equals_holds_iff hx v, Criterion.differs_holds_iff hx v, fun hv => ?_⟩
    apply Criterion.differs_of_iff hx
    rcases hv with hv | ⟨⟨t, rfl, ht⟩, hplain⟩
    · constructor
      · rintro ⟨t, rfl, -⟩
        exact absurd rfl (hv t)
      · rintro ⟨t, ht, -⟩
        exact absurd ht (hv t)
    · constructor
      · rintro ⟨_, heq, h⟩
        cases heq
        exact ⟨t, rfl, (matches_iff_sameLower hplain ht).1 h⟩
      · rintro ⟨_, heq, h⟩
        cases heq
        exact ⟨t, rfl, (matches_iff_sameLower hplain ht).2 h⟩
  · intro x r source w position h
    exact ⟨_, _, Conditional.countIf_reference h position _,
      Conditional.countIf_reference h position _, countP_add_countP _ _ _⟩

/-- The number `5` meets one of `=5` and `<>5`, and the text `AB` one of `=ab` and `<>ab`. -/
theorem criteria_complements_letters :
    let source : Source := ⟨fun _ => .ok .empty, fun _ => .ok [[.text "AB", .empty]]⟩
    let r : Reference := .range ⟨none, .ofIndices 1 1 1 2⟩
    let count (x : String) := ((Conditional.countIf none
      [.given (.done (.reference r)), .given (.done (.text x))]).run source).1
    (Criterion.differs "5").holds (.number 5) =
        !(Criterion.equals "5").holds (.number 5) ∧
      (Criterion.differs "ab").holds (.text "AB") =
        !(Criterion.equals "ab").holds (.text "AB") ∧
      ∃ m n, count ("<>" ++ "ab") = .ok (.ok (.number (Float.ofNat m))) ∧
        count ("=" ++ "ab") = .ok (.ok (.number (Float.ofNat n))) ∧ m + n + 0 = 2 + 0 := by
  intro source r count
  have hnumber : ¬ Criterion.IsPattern "5" := fun h => by
    have htext : Criterion.operandOf "5" = .number 5 := rfl
    rw [Criterion.IsPattern, htext] at h
    exact nomatch h.2
  have hpattern : Criterion.IsPattern "ab" := ⟨by decide, rfl⟩
  have hplain : Plain "ab".toList := by simp [Plain]
  have hread : (r.read.run source).1 = .ok (.array [[.text "AB", .empty]]) := rfl
  refine ⟨criteria_complements.1 "5" (.number 5) hnumber, ?_, ?_⟩
  · exact (criteria_complements.2.1 "ab" (.text "AB") hpattern).2.2
      (.inr ⟨⟨"AB", rfl, by simp⟩, hplain⟩)
  · exact criteria_complements.2.2 "ab" r source _ none hread

/-- The text `apple` meets the criteria `=a*` and `<>a*`. -/
theorem not_criteria_complements :
    ¬ ∀ (x : String) (v : Value), (Criterion.differs x).holds v =
      !(Criterion.equals x).holds v :=
  fun h => absurd (h "a*" (.text "apple")) (by decide)

end Spreadsheet
