import Mathlib
import Spreadsheet.SharedFormula
import Spreadsheet.Token.Lexer

/-!
Which characters go on with a word, which start one, and which end one.
-/

namespace Spreadsheet

section

variable {p : α → Bool} {l a b : List α}

/-- What `span` takes from the head is what satisfies the test, up to the first that does not. -/
theorem span_eq_iff :
    l.span p = (a, b) ↔ l = a ++ b ∧ (∀ x ∈ a, p x = true) ∧ ∀ x ∈ b.head?, p x = false := by
  rw [List.span_eq_takeWhile_dropWhile, Prod.mk.injEq]
  constructor
  · rintro ⟨rfl, rfl⟩
    refine ⟨List.takeWhile_append_dropWhile.symm, fun x hx => List.mem_takeWhile_imp hx, ?_⟩
    intro x hx
    have hhead := List.head?_dropWhile_not p l
    rw [Option.mem_def.1 hx] at hhead
    exact hhead
  · rintro ⟨rfl, ha, hb⟩
    rw [List.takeWhile_append_of_pos ha, List.dropWhile_append_of_pos ha]
    cases b with
    | nil => exact ⟨List.append_nil a, rfl⟩
    | cons x b =>
      have hx : ¬ p x = true := Bool.not_eq_true _ ▸ hb x rfl
      rw [List.takeWhile_cons_of_neg hx, List.dropWhile_cons_of_neg hx]
      exact ⟨List.append_nil a, rfl⟩

/-- A test of the members of a list one by one, even where all of a type could be tested. -/
theorem forall_mem_of_all {P : α → Prop} [DecidablePred P]
    (h : (l.all fun x => decide (P x)) = true) : ∀ x ∈ l, P x :=
  fun x hx => of_decide_eq_true (List.all_eq_true.1 h x hx)

theorem takeWhile_of_span (h : l.span p = (a, b)) : l.takeWhile p = a := by
  rw [List.span_eq_takeWhile_dropWhile] at h
  exact congrArg Prod.fst h

theorem dropWhile_of_span (h : l.span p = (a, b)) : l.dropWhile p = b := by
  rw [List.span_eq_takeWhile_dropWhile] at h
  exact congrArg Prod.snd h

end

theorem not_isAlpha_of_isDigit {c : Char} (h : c.isDigit = true) : c.isAlpha = false := by
  simp only [Char.isDigit, Char.isAlpha, Char.isUpper, Char.isLower, Bool.and_eq_true,
    decide_eq_true_eq, Bool.or_eq_false_iff, Bool.and_eq_false_iff, decide_eq_false_iff_not,
    ge_iff_le, UInt32.le_iff_toNat_le] at h ⊢
  have h9 : '9'.val.toNat = 57 := rfl
  have hA : 'A'.val.toNat = 65 := rfl
  have ha : 'a'.val.toNat = 97 := rfl
  omega

theorem isAlpha_of_isUpper {c : Char} (h : c.isUpper = true) : c.isAlpha = true := by
  rw [Char.isAlpha, h, Bool.true_or]

theorem not_isLower_of_isUpper {c : Char} (h : c.isUpper = true) : c.isLower = false := by
  simp only [Char.isUpper, Char.isLower, decide_eq_true_eq, Bool.and_eq_false_iff,
    decide_eq_false_iff_not, ge_iff_le, UInt32.le_iff_toNat_le] at h ⊢
  have hZ : 'Z'.val.toNat = 90 := rfl
  have ha : 'a'.val.toNat = 97 := rfl
  omega

theorem toLower_eq_self {c : Char} (h : c.isUpper = false) : c.toLower = c := by
  simp only [Char.isUpper, decide_eq_false_iff_not] at h
  unfold Char.toLower
  exact dif_neg h

/-- What holds of the capitals is found out one by one. -/
theorem of_isUpper {P : Char → Prop} {c : Char} (h : c.isUpper = true)
    (hall : ∀ n < 91, 65 ≤ n → P (.ofNat n)) : P c := by
  simp only [Char.isUpper, decide_eq_true_eq, ge_iff_le, UInt32.le_iff_toNat_le] at h
  have hc := hall c.toNat (Nat.lt_succ_of_le h.2) h.1
  rwa [Char.ofNat_toNat] at hc

theorem isLower_toLower {c : Char} (h : c.isUpper = true) : c.toLower.isLower = true :=
  of_isUpper (P := fun c => c.toLower.isLower = true) h (by decide)

theorem eq_of_toLower_eq {c d : Char} (h : c.toLower = d) (hd : d.isLower = false) : c = d := by
  cases hc : c.isUpper with
  | true =>
    rw [← h, isLower_toLower hc] at hd
    cases hd
  | false => rw [← h, toLower_eq_self hc]

namespace Unicode

/-- The code points of a set that has no unbounded part. -/
def elements : List Nat → List Nat
  | a :: b :: rest => List.range' a (b - a) ++ elements rest
  | _ => []

theorem mem_elements (heven : boundaries.length % 2 = 0) (h : member boundaries n = true) :
    n ∈ elements boundaries := by
  induction boundaries using elements.induct with
  | case1 a b rest ih =>
    rw [elements, List.mem_append, List.mem_range'_1]
    rw [List.length_cons, List.length_cons] at heven
    rw [member, member] at h
    by_cases ha : a ≤ n
    · by_cases hb : b ≤ n
      · rw [if_pos ha, if_pos hb, Bool.not_not] at h
        exact .inr (ih (by omega) h)
      · exact .inl (by omega)
    · rw [if_neg ha] at h
      cases h
  | case2 boundaries hne =>
    cases boundaries with
    | nil => cases h
    | cons a rest =>
      cases rest with
      | nil => cases heven
      | cons b rest => exact absurd rfl (hne a b rest)

theorem trim_eq_self {cs : List Char} (h : ∀ c ∈ cs, isWhiteSpace c = false) : trim cs = cs := by
  have hdrop (l : List Char) (hl : ∀ c ∈ l, isWhiteSpace c = false) :
      l.dropWhile isWhiteSpace = l := by
    cases l with
    | nil => rfl
    | cons c l =>
      exact List.dropWhile_cons_of_neg (by rw [hl c List.mem_cons_self]; exact Bool.false_ne_true)
  rw [trim, hdrop cs h, hdrop _ fun c hc => h c (List.mem_reverse.1 hc), List.reverse_reverse]

end Unicode

namespace Lexer

variable {c : Char}

theorem not_continuesIdent_of_isWhiteSpace (h : Unicode.isWhiteSpace c = true) :
    continuesIdent c = false := by
  have hall : ∀ n ∈ Unicode.elements Unicode.whiteSpaceBoundaries,
      continuesIdent (.ofNat n) = false := by decide +kernel
  have hc := hall c.toNat (Unicode.mem_elements rfl h)
  rwa [Char.ofNat_toNat] at hc

theorem not_isWhiteSpace_of_continuesIdent (h : continuesIdent c = true) :
    Unicode.isWhiteSpace c = false := by
  cases hspace : Unicode.isWhiteSpace c with
  | false => rfl
  | true =>
    rw [not_continuesIdent_of_isWhiteSpace hspace] at h
    cases h

theorem trim_word {cs : List Char} (h : ∀ c ∈ cs, continuesIdent c = true) :
    Unicode.trim cs = cs :=
  Unicode.trim_eq_self fun c hc => not_isWhiteSpace_of_continuesIdent (h c hc)

/-- The characters that symbols start with. -/
def symbolHeads : List Char :=
  ['+', '-', '*', '/', '^', '%', '&', '=', ':', ',', ';', '(', ')', '{', '}', '<', '>']

theorem mem_symbolHeads_of_singleSymbol? (h : singleSymbol? c = some s) : c ∈ symbolHeads := by
  unfold singleSymbol? at h
  split at h <;> first | decide | cases h

theorem not_isWhiteSpace_of_mem_symbolHeads (h : c ∈ symbolHeads) :
    Unicode.isWhiteSpace c = false := by
  have hall : ∀ c ∈ symbolHeads, Unicode.isWhiteSpace c = false :=
    forall_mem_of_all (by decide +kernel)
  exact hall c h

/-- The character ends the word before it. -/
def Ends (c : Char) : Prop := Unicode.isWhiteSpace c = true ∨ c ∈ symbolHeads

theorem Ends.not_continuesIdent (h : Ends c) : continuesIdent c = false := by
  rcases h with h | h
  · exact not_continuesIdent_of_isWhiteSpace h
  · have hall : ∀ c ∈ symbolHeads, continuesIdent c = false :=
      forall_mem_of_all (by decide +kernel)
    exact hall c h

theorem continuesIdent_of_startsIdent (h : startsIdent c = true) : continuesIdent c = true := by
  simp only [startsIdent, continuesIdent, Unicode.isAlphanumeric, Bool.or_eq_true] at h ⊢
  tauto

theorem not_startsIdent_of_isDigit (h : c.isDigit = true) : startsIdent c = false := by
  have hle := (Char.isDigit_iff_toNat.1 h).2
  have h9 : '9'.toNat = 57 := rfl
  have hne {d : Char} (hd : d.isDigit = false) : (c == d) = false := by
    rw [beq_eq_false_iff_ne]
    rintro rfl
    rw [hd] at h
    cases h
  rw [startsIdent, Unicode.isAlphabetic, not_isAlpha_of_isDigit h, hne (by decide),
    hne (by decide), hne (by decide), decide_eq_false (by omega)]
  rfl

theorem continuesIdent_of_isAlpha (h : c.isAlpha = true) : continuesIdent c = true := by
  simp [continuesIdent, Unicode.isAlphanumeric, Unicode.isAlphabetic, h]

theorem continuesIdent_of_isDigit (h : c.isDigit = true) : continuesIdent c = true := by
  simp [continuesIdent, Unicode.isAlphanumeric, Unicode.isNumeric, h]

end Lexer

end Spreadsheet
