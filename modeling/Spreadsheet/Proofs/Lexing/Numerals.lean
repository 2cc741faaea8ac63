import Spreadsheet.Proofs.Lexing.Characters

/-!
The texts of numerals, and that a numeral is taken from the head of every text whose next character
cannot go on with it.
-/

namespace Spreadsheet.Number

/-- Digits that a numeral holds, all in a row. -/
abbrev Digits (ds : List Char) : Prop := ∀ c ∈ ds, c.isDigit = true

/-- The text of an exponent; an empty text stands for none. -/
inductive ExponentText : List Char → Int → Prop
  | none : ExponentText [] 0
  | unsigned (he : e = 'e' ∨ e = 'E') (hne : ds ≠ []) (hds : Digits ds) :
      ExponentText (e :: ds) (digitsValue ds)
  | plus (he : e = 'e' ∨ e = 'E') (hne : ds ≠ []) (hds : Digits ds) :
      ExponentText (e :: '+' :: ds) (digitsValue ds)
  | minus (he : e = 'e' ∨ e = 'E') (hne : ds ≠ []) (hds : Digits ds) :
      ExponentText (e :: '-' :: ds) (-digitsValue ds)

/-- The text of a numeral. -/
inductive NumeralText : List Char → Numeral → Prop
  | whole (hne : whole ≠ []) (hw : Digits whole) (he : ExponentText exponent x) :
      NumeralText (whole ++ exponent) ⟨whole, [], x⟩
  | point (hne : whole ≠ [] ∨ fraction ≠ []) (hw : Digits whole) (hf : Digits fraction)
      (he : ExponentText exponent x) :
      NumeralText (whole ++ '.' :: (fraction ++ exponent)) ⟨whole, fraction, x⟩

/-- No numeral goes on with what comes next. -/
def Over (rest : List Char) : Prop :=
  ∀ c ∈ rest.head?, c.isDigit = false ∧ c ≠ '.' ∧ c ≠ 'e' ∧ c ≠ 'E'

theorem Over.of_end (h : ∀ c ∈ rest.head?, Lexer.continuesIdent c = false) : Over rest := by
  intro c hc
  have hident := h c hc
  refine ⟨?_, ?_, ?_, ?_⟩
  · cases hdigit : c.isDigit with
    | false => rfl
    | true =>
      rw [Lexer.continuesIdent_of_isDigit hdigit] at hident
      cases hident
  all_goals
    rintro rfl
    exact absurd hident (by decide)

theorem takeDigits_eq_iff :
    takeDigits cs = (ds, rest) ↔
      cs = ds ++ rest ∧ Digits ds ∧ ∀ c ∈ rest.head?, c.isDigit = false :=
  span_eq_iff

theorem takeDigits_append (hds : Digits ds) (hrest : Over rest) :
    takeDigits (ds ++ rest) = (ds, rest) :=
  takeDigits_eq_iff.2 ⟨rfl, hds, fun c hc => (hrest c hc).1⟩

theorem takeExponent_cons (he : e = 'e' ∨ e = 'E') (cs : List Char) :
    takeExponent (e :: cs) =
      match takeDigits (takeSign cs).2 with
      | ([], _) => (0, e :: cs)
      | (ds, rest) =>
        (if (takeSign cs).1 then -(digitsValue ds : Int) else digitsValue ds, rest) := by
  unfold takeExponent
  dsimp only
  rw [if_pos (by simpa using he)]
  rfl

theorem takeExponent_of_ne (he : ¬ (e = 'e' ∨ e = 'E')) (cs : List Char) :
    takeExponent (e :: cs) = (0, e :: cs) := by
  unfold takeExponent
  dsimp only
  rw [if_neg (by simpa using he)]

theorem takeSign_eq_self (hne : ds ≠ []) (hds : Digits ds) :
    takeSign (ds ++ rest) = (false, ds ++ rest) := by
  obtain ⟨d, ds, rfl⟩ := List.exists_cons_of_ne_nil hne
  have hd := hds d List.mem_cons_self
  rw [List.cons_append]
  unfold takeSign
  split
  · next h => 
    obtain ⟨rfl, -⟩ := List.cons.inj h
    cases hd
  · next h =>
    obtain ⟨rfl, -⟩ := List.cons.inj h
    cases hd
  · rfl

theorem exponentText_of_takeExponent (h : takeExponent cs = (x, rest)) :
    ∃ w, cs = w ++ rest ∧ ExponentText w x := by
  have hnone : (0, cs) = (x, rest) → ∃ w, cs = w ++ rest ∧ ExponentText w x := by
    intro h
    cases h
    exact ⟨[], rfl, .none⟩
  cases cs with
  | nil => exact hnone h
  | cons e cs =>
    by_cases he : e = 'e' ∨ e = 'E'
    · rw [takeExponent_cons he] at h
      generalize hdigits : takeDigits (takeSign cs).2 = taken at h
      obtain ⟨ds, r⟩ := taken
      obtain ⟨htail, hds, -⟩ := takeDigits_eq_iff.1 hdigits
      cases ds with
      | nil => exact hnone h
      | cons d ds =>
        obtain ⟨rfl, rfl⟩ := Prod.mk.inj h
        have hne := List.cons_ne_nil d ds
        unfold takeSign at htail ⊢
        split at htail <;> dsimp only at htail
        · exact ⟨e :: '+' :: d :: ds, by rw [htail]; rfl, .plus he hne hds⟩
        · exact ⟨e :: '-' :: d :: ds, by rw [htail]; rfl, .minus he hne hds⟩
        · exact ⟨e :: d :: ds, by rw [htail]; rfl, .unsigned he hne hds⟩
    · rw [takeExponent_of_ne he] at h
      exact hnone h

theorem takeExponent_append (hw : ExponentText w x) (hrest : Over rest) :
    takeExponent (w ++ rest) = (x, rest) := by
  cases hw with
  | none =>
    cases rest with
    | nil => rfl
    | cons c rest =>
      obtain ⟨-, -, he, hE⟩ := hrest c rfl
      exact takeExponent_of_ne (by simp [he, hE]) rest
  | @unsigned e ds he hne hds =>
    obtain ⟨d, ds, rfl⟩ := List.exists_cons_of_ne_nil hne
    rw [List.cons_append, takeExponent_cons he, takeSign_eq_self hne hds,
      takeDigits_append hds hrest]
    rfl
  | @plus e ds he hne hds =>
    obtain ⟨d, ds, rfl⟩ := List.exists_cons_of_ne_nil hne
    rw [List.cons_append, List.cons_append, takeExponent_cons he, takeSign,
      takeDigits_append hds hrest]
    rfl
  | @minus e ds he hne hds =>
    obtain ⟨d, ds, rfl⟩ := List.exists_cons_of_ne_nil hne
    rw [List.cons_append, List.cons_append, takeExponent_cons he, takeSign,
      takeDigits_append hds hrest]
    rfl

theorem numeralText_of_takeNumeral (h : takeNumeral cs = some (n, rest)) :
    ∃ w, cs = w ++ rest ∧ NumeralText w n := by
  unfold takeNumeral at h
  generalize hwhole : takeDigits cs = taken at h
  obtain ⟨whole, afterWhole⟩ := taken
  obtain ⟨rfl, hw, -⟩ := takeDigits_eq_iff.1 hwhole
  dsimp only at h
  split at h
  · next r =>
    generalize hfraction : takeDigits r = taken at h
    obtain ⟨fraction, afterFraction⟩ := taken
    obtain ⟨rfl, hf, -⟩ := takeDigits_eq_iff.1 hfraction
    dsimp only at h
    generalize hexponent : takeExponent afterFraction = taken at h
    obtain ⟨x, r⟩ := taken
    obtain ⟨hne, htaken⟩ := Option.ite_none_left_eq_some.1 h
    obtain ⟨exponent, rfl, he⟩ := exponentText_of_takeExponent hexponent
    obtain ⟨rfl, rfl⟩ := Prod.mk.inj (Option.some.inj htaken)
    refine ⟨_, ?_, .point ?_ hw hf he⟩
    · simp
    · simpa [imp_iff_not_or] using hne
  · dsimp only at h
    generalize hexponent : takeExponent afterWhole = taken at h
    obtain ⟨hne, htaken⟩ := Option.ite_none_left_eq_some.1 h
    obtain ⟨x, r⟩ := taken
    obtain ⟨exponent, rfl, he⟩ := exponentText_of_takeExponent hexponent
    obtain ⟨rfl, rfl⟩ := Prod.mk.inj (Option.some.inj htaken)
    refine ⟨_, ?_, .whole ?_ hw he⟩
    · simp
    · simpa using hne

/-- An exponent starts with a letter. -/
theorem ExponentText.head (hw : ExponentText w x) (hrest : Over rest) :
    ∀ c ∈ (w ++ rest).head?, c.isDigit = false ∧ c ≠ '.' := by
  have hletter {e : Char} (he : e = 'e' ∨ e = 'E') : e.isDigit = false ∧ e ≠ '.' := by
    rcases he with rfl | rfl <;> decide
  intro c hc
  cases hw with
  | none => exact ⟨(hrest c hc).1, (hrest c hc).2.1⟩
  | unsigned he | plus he | minus he =>
    obtain rfl := Option.some.inj hc
    exact hletter he

theorem ExponentText.tail (hw : ExponentText w x) :
    ∀ c ∈ w.tail, c.isDigit = true ∨ c = '+' ∨ c = '-' := by
  intro c hc
  cases hw with
  | none => cases hc
  | unsigned _ _ hds => exact .inl (hds c hc)
  | plus _ _ hds =>
    rcases List.mem_cons.1 hc with rfl | hc
    · exact .inr (.inl rfl)
    · exact .inl (hds c hc)
  | minus _ _ hds =>
    rcases List.mem_cons.1 hc with rfl | hc
    · exact .inr (.inr rfl)
    · exact .inl (hds c hc)

/-- A numeral is digits and points before an exponent. -/
theorem NumeralText.exists_exponent (hw : NumeralText w n) :
    ∃ mantissa exponent x, w = mantissa ++ exponent ∧ mantissa ≠ [] ∧
      (∀ c ∈ mantissa, c.isDigit = true ∨ c = '.') ∧ ExponentText exponent x := by
  cases hw with
  | whole hne hw he => exact ⟨_, _, _, rfl, hne, fun c hc => .inl (hw c hc), he⟩
  | @point whole fraction exponent x _ hw hf he =>
    refine ⟨whole ++ '.' :: fraction, exponent, x, by simp, by simp, fun c hc => ?_, he⟩
    rcases List.mem_append.1 hc with hc | hc
    · exact .inl (hw c hc)
    · rcases List.mem_cons.1 hc with rfl | hc
      · exact .inr rfl
      · exact .inl (hf c hc)

theorem ExponentText.mem (hw : ExponentText w x) :
    ∀ c ∈ w, c.isDigit = true ∨ c ∈ ['e', 'E', '+', '-'] := by
  intro c hc
  cases w with
  | nil => cases hc
  | cons e w =>
    rcases List.mem_cons.1 hc with rfl | hc
    · cases hw with
      | unsigned he | plus he | minus he => rcases he with rfl | rfl <;> exact .inr (by decide)
    · rcases hw.tail c hc with hc | rfl | rfl
      · exact .inl hc
      all_goals exact .inr (by decide)

theorem NumeralText.mem (hw : NumeralText w n) :
    ∀ c ∈ w, c.isDigit = true ∨ c ∈ ['.', 'e', 'E', '+', '-'] := by
  obtain ⟨mantissa, exponent, _, rfl, -, hm, he⟩ := hw.exists_exponent
  intro c hc
  rcases List.mem_append.1 hc with hc | hc
  · rcases hm c hc with hc | rfl
    · exact .inl hc
    · exact .inr (by decide)
  · exact (he.mem c hc).imp_right (List.mem_cons_of_mem _)

/-- What digits and the other characters of numerals have, all of a numeral have. -/
theorem NumeralText.forall_mem (hw : NumeralText w n) {P : Char → Prop}
    (hdigit : ∀ c, c.isDigit = true → P c) (hmark : ∀ c ∈ ['.', 'e', 'E', '+', '-'], P c) :
    ∀ c ∈ w, P c :=
  fun c hc => (hw.mem c hc).elim (hdigit c) (hmark c)

theorem NumeralText.ne_nil (hw : NumeralText w n) : w ≠ [] := by
  cases hw with
  | whole hne => exact List.append_ne_nil_of_left_ne_nil hne _
  | point => exact List.append_ne_nil_of_right_ne_nil _ (List.cons_ne_nil _ _)

theorem takeNumeral_append (hw : NumeralText w n) (hrest : Over rest) :
    takeNumeral (w ++ rest) = some (n, rest) := by
  cases hw with
  | @whole whole exponent x hne hw he =>
    have hwhole : takeDigits (whole ++ (exponent ++ rest)) = (whole, exponent ++ rest) :=
      takeDigits_eq_iff.2 ⟨rfl, hw, fun c hc => (he.head hrest c hc).1⟩
    rw [List.append_assoc]
    unfold takeNumeral
    rw [hwhole]
    dsimp only
    split
    · next r hr =>
      exact absurd rfl (he.head hrest '.' (by rw [hr]; rfl)).2
    · dsimp only
      rw [takeExponent_append he hrest, if_neg (by simpa using hne)]
  | @point whole fraction exponent x hne hw hf he =>
    have hwhole : takeDigits (whole ++ '.' :: (fraction ++ (exponent ++ rest))) =
        (whole, '.' :: (fraction ++ (exponent ++ rest))) :=
      takeDigits_eq_iff.2 ⟨rfl, hw, fun c hc => by cases hc; rfl⟩
    have hfraction : takeDigits (fraction ++ (exponent ++ rest)) = (fraction, exponent ++ rest) :=
      takeDigits_eq_iff.2 ⟨rfl, hf, fun c hc => (he.head hrest c hc).1⟩
    rw [List.append_assoc, List.cons_append, List.append_assoc]
    simp only [takeNumeral, hwhole, hfraction, takeExponent_append he hrest]
    rw [if_neg (by simpa [imp_iff_not_or] using hne)]

end Spreadsheet.Number
