import Spreadsheet.Proofs.Lexing.Addresses
import Spreadsheet.Proofs.Lexing.Numerals

/-!
Texts that are read as whole rows or whole columns, and texts that are not.
-/

namespace Spreadsheet

namespace Lexer

open SharedFormula

theorem not_mem_head_of_forall {p : Char → Bool} (hcs : ∀ c ∈ cs, p c = true) (hne : cs ≠ [])
    (hd : p d = false) (rest : List Char) : d ∉ (cs ++ rest).head? := by
  obtain ⟨c, cs, rfl⟩ := List.exists_cons_of_ne_nil hne
  intro h
  obtain rfl := Option.some.inj h
  rw [hcs c List.mem_cons_self] at hd
  cases hd

/-- The text of whole rows. -/
inductive RowsText : List Char → Range → Prop
  | mk {abs abs' : Bool} (hfirst : Number.Digits first) (hlast : Number.Digits last)
      (hne : first ≠ [] ∧ last ≠ [])
      (hrow : Number.digitsValue first ≠ 0 ∧ Number.digitsValue first ≤ maxRow)
      (hrow' : Number.digitsValue last ≠ 0 ∧ Number.digitsValue last ≤ maxRow) :
      RowsText (Address.dollar abs ++ (first ++ ':' :: (Address.dollar abs' ++ last)))
        (.ofCorners ⟨Number.digitsValue first, 1, abs, true⟩
          ⟨Number.digitsValue last, maxCol, abs', true⟩)

theorem RowsText.ne_nil (hw : RowsText w area) : w ≠ [] := by
  cases hw
  simp

theorem eq_of_mem_dollar (hc : c ∈ Address.dollar b) : c = '$' := by
  cases b with
  | true => exact List.mem_singleton.1 hc
  | false => cases hc

theorem RowsText.mem (hw : RowsText w area) :
    ∀ c ∈ w, c = '$' ∨ c = ':' ∨ c.isDigit = true := by
  intro c hc
  cases hw with
  | mk hfirst hlast =>
    simp only [List.mem_append, List.mem_cons] at hc
    rcases hc with hc | hc | rfl | hc | hc
    · exact .inl (eq_of_mem_dollar hc)
    · exact .inr (.inr (hfirst c hc))
    · exact .inr (.inl rfl)
    · exact .inl (eq_of_mem_dollar hc)
    · exact .inr (.inr (hlast c hc))

/-- Nothing goes on with rows. -/
def EndsRows (rest : List Char) : Prop :=
  rest.head?.any (fun c => Unicode.isAlphanumeric c || c == '.' || c == '_' || c == '(') = false

theorem takeRows_eq_some_iff :
    takeRows cs = some (area, rest) ↔ EndsRows rest ∧ ∃ w, cs = w ++ rest ∧ RowsText w area := by
  constructor
  · intro h
    have hcs := Address.dollar_takeDollar cs
    unfold takeRows at h
    dsimp only at h
    split at h
    · next first r hfirst =>
      obtain ⟨hr, hdigits, -⟩ := Number.takeDigits_eq_iff.1 hfirst
      have hdollar := Address.dollar_takeDollar r
      obtain ⟨hcheck, h⟩ := Option.ite_none_left_eq_some.1 h
      obtain ⟨rfl, rfl⟩ := Prod.mk.inj (Option.some.inj h)
      generalize hlast : Number.takeDigits (Address.takeDollar r).2 = taken at hcheck ⊢
      obtain ⟨last, rest⟩ := taken
      obtain ⟨hlast, hdigits', -⟩ := Number.takeDigits_eq_iff.1 hlast
      simp only [Bool.or_eq_true, not_or, Bool.not_eq_true, List.isEmpty_eq_false_iff,
        beq_eq_false_iff_ne, Nat.not_lt, decide_eq_true_eq] at hcheck
      obtain ⟨⟨⟨⟨⟨⟨hne, hne'⟩, hends⟩, hzero⟩, hzero'⟩, hmax⟩, hmax'⟩ := hcheck
      refine ⟨hends, _, ?_, .mk hdigits hdigits' ⟨hne, hne'⟩ ⟨hzero, hmax⟩ ⟨hzero', hmax'⟩⟩
      rw [List.append_assoc, List.append_assoc, List.cons_append, List.append_assoc, ← hlast,
        hdollar, ← hr, hcs]
    · cases h
  · rintro ⟨hends, w, rfl, hw⟩
    cases hw with
    | @mk first last abs abs' hfirst hlast hne hrow hrow' =>
      have hdollar : '$'.isDigit = false := rfl
      have hdigit : ∀ c ∈ rest.head?, c.isDigit = false := by
        intro c hc
        rw [EndsRows, Option.mem_def.1 hc, Option.any_some, Bool.or_eq_false_iff,
          Bool.or_eq_false_iff,
          Bool.or_eq_false_iff] at hends
        cases hdigit : c.isDigit with
        | false => rfl
        | true => simp [Unicode.isAlphanumeric, Unicode.isNumeric, hdigit] at hends
      have htake := Address.takeDollar_dollar (b := abs)
        (not_mem_head_of_forall hfirst hne.1 hdollar
          (':' :: (Address.dollar abs' ++ (last ++ rest))))
      have htake' := Address.takeDollar_dollar (b := abs')
        (not_mem_head_of_forall hlast hne.2 hdollar rest)
      have hdigits := Number.takeDigits_eq_iff.2 ⟨rfl, hfirst, fun c (hc : c ∈
        (':' :: (Address.dollar abs' ++ (last ++ rest))).head?) => by
          obtain rfl := Option.some.inj hc
          rfl⟩
      have hdigits' := Number.takeDigits_eq_iff.2 ⟨rfl, hlast, hdigit⟩
      unfold takeRows
      simp only [List.append_assoc, List.cons_append, htake, hdigits, htake', hdigits']
      rw [if_neg]
      simp only [Bool.or_eq_true, not_or, Bool.not_eq_true, List.isEmpty_eq_false_iff,
        beq_eq_false_iff_ne, decide_eq_true_eq, Nat.not_lt]
      exact ⟨⟨⟨⟨⟨⟨hne.1, hne.2⟩, hends⟩, hrow.1⟩, hrow'.1⟩, hrow.2⟩, hrow'.2⟩

/-- The text of whole columns, before its colon and after it. -/
inductive ColumnsText : List Char → List Char → Range → Prop
  | mk {abs abs' : Bool} (hfirst : columnNumber (String.ofList first) = .ok col)
      (hlast : columnNumber (String.ofList last) = .ok col') :
      ColumnsText (Address.dollar abs ++ first) (Address.dollar abs' ++ last)
        (.ofCorners ⟨1, col, true, abs⟩ ⟨maxRow, col', true, abs'⟩)

theorem ColumnsText.mem (hw : ColumnsText left v area) :
    ∀ c ∈ left ++ ':' :: v, c = '$' ∨ c = ':' ∨ c.isAlpha = true := by
  intro c hc
  cases hw with
  | mk hfirst hlast =>
    obtain ⟨-, -, hfirst, -⟩ := columnNumber_eq_ok hfirst
    obtain ⟨-, -, hlast, -⟩ := columnNumber_eq_ok hlast
    simp only [List.mem_append, List.mem_cons] at hc
    rcases hc with (hc | hc) | rfl | hc | hc
    · exact .inl (eq_of_mem_dollar hc)
    · exact .inr (.inr (hfirst c hc))
    · exact .inr (.inl rfl)
    · exact .inl (eq_of_mem_dollar hc)
    · exact .inr (.inr (hlast c hc))

/-- Nothing goes on with columns. -/
def EndsColumns (rest : List Char) : Prop :=
  rest.head?.any (fun c =>
    Unicode.isAlphanumeric c || c == '_' || c == '$' || c == '(' || c == '!') = false

theorem takeColumns_eq_some_iff :
    takeColumns left cs = some (area, rest) ↔
      EndsColumns rest ∧ ∃ v, cs = v ++ rest ∧ ColumnsText left v area := by
  constructor
  · intro h
    have hleft := Address.dollar_takeDollar left
    have hcs := Address.dollar_takeDollar cs
    unfold takeColumns at h
    dsimp only at h
    obtain ⟨hends, h⟩ := Option.ite_none_left_eq_some.1 h
    split at h
    · next hfirst hlast =>
      obtain ⟨rfl, rfl⟩ := Prod.mk.inj (Option.some.inj h)
      generalize hr : (Address.takeDollar cs).2 = r at *
      have hprefix : (r.takeWhile Char.isAlpha).take 3 <+: r :=
        (List.take_prefix _ _).trans (List.takeWhile_prefix _)
      have htext : ColumnsText
          (Address.dollar (Address.takeDollar left).1 ++ (Address.takeDollar left).2)
          (Address.dollar (Address.takeDollar cs).1 ++ (r.takeWhile Char.isAlpha).take 3) _ :=
        .mk hfirst hlast
      rw [hleft] at htext
      refine ⟨eq_false_of_ne_true hends, _, ?_, htext⟩
      rw [List.append_assoc, List.prefix_iff_eq_append.1 hprefix, hcs]
    · cases h
  · rintro ⟨hends, v, rfl, hv⟩
    cases hv with
    | @mk first col last col' abs abs' hfirst hlast =>
      have hdollar : '$'.isAlpha = false := rfl
      obtain ⟨hne, -, halpha, -⟩ := columnNumber_eq_ok hfirst
      obtain ⟨hne', hlen, halpha', -⟩ := columnNumber_eq_ok hlast
      have hrest : ∀ c ∈ rest.head?, c.isAlpha = false := by
        intro c hc
        rw [EndsColumns, Option.mem_def.1 hc, Option.any_some] at hends
        cases halpha : c.isAlpha with
        | false => rfl
        | true => simp [Unicode.isAlphanumeric, Unicode.isAlphabetic, halpha] at hends
      have htake := Address.takeDollar_dollar (b := abs)
        (not_mem_head_of_forall halpha hne hdollar [])
      have htake' := Address.takeDollar_dollar (b := abs')
        (not_mem_head_of_forall halpha' hne' hdollar rest)
      have hletters := takeWhile_of_span (span_eq_iff.2 ⟨rfl, halpha', hrest⟩)
      rw [List.append_nil] at htake
      unfold takeColumns
      simp only [List.append_assoc, htake, htake', hletters, List.take_of_length_le hlen,
        List.drop_left, hfirst, hlast]
      exact if_neg (by rw [hends]; exact Bool.false_ne_true)

/-- Rows have a colon after their first digits. -/
theorem takeRows_append_eq_none (hne : w ≠ []) (hw : ∀ c ∈ w, c ≠ ':' ∧ c ≠ '$')
    (hrest : ∀ c ∈ rest.head?, c ≠ ':' ∧ c.isDigit = false) : takeRows (w ++ rest) = none := by
  obtain ⟨c, v, rfl⟩ := List.exists_cons_of_ne_nil hne
  have hdollar : '$' ∉ (c :: v ++ rest).head? := by
    intro h
    exact (hw c List.mem_cons_self).2 (Option.some.inj h)
  have htake : Address.takeDollar (c :: v ++ rest) = (false, c :: v ++ rest) :=
    Address.takeDollar_dollar (b := false) hdollar
  unfold takeRows
  rw [htake]
  dsimp only
  split
  · next first r hfirst =>
    obtain ⟨happend, hdigits, -⟩ := Number.takeDigits_eq_iff.1 hfirst
    rcases List.append_eq_append_iff.1 happend with ⟨x, rfl, hx⟩ | ⟨x, hx, hr⟩
    · cases x with
      | nil => exact absurd rfl (hrest ':' (by rw [hx]; rfl)).1
      | cons d x =>
        have hd := hdigits d (by simp)
        rw [(hrest d (by rw [hx]; rfl)).2] at hd
        cases hd
    · cases x with
      | nil => exact absurd rfl (hrest ':' (by rw [← List.nil_append rest, ← hr]; rfl)).1
      | cons d x =>
        obtain ⟨rfl, -⟩ := List.cons.inj hr
        exact absurd rfl (hw ':' (by rw [hx]; simp)).1
  · rfl

theorem takeColumns_eq_none_of_left (h : (columnNumber (String.ofList
    (Address.takeDollar left).2)).toOption = none) : takeColumns left right = none := by
  unfold takeColumns
  dsimp only
  split
  · rfl
  · split
    · next hcol _ =>
      rw [hcol] at h
      cases h
    · rfl

/-- An address has digits, which the name of a column has not. -/
theorem takeColumns_write_left {s : Spelling} (hs : s.Valid) (right : List Char) :
    takeColumns s.write right = none := by
  obtain ⟨c, digits, hc⟩ := List.exists_cons_of_ne_nil hs.digits_ne_nil
  have hdigit := hs.isDigit c (hc ▸ List.mem_cons_self)
  have hdollar := hs.formed.takeDollar_write []
  rw [List.append_nil] at hdollar
  refine takeColumns_eq_none_of_left (columnNumber_ofList_of_not_isAlpha (c := c) ?_
    (not_isAlpha_of_isDigit hdigit))
  rw [hdollar, hc]
  simp

/-- What columns end with is followed by no letter, digit or `$`. -/
theorem takeColumns_write_right {s : Spelling} (hs : s.Valid) (left rest : List Char) :
    takeColumns left (s.write ++ rest) = none := by
  have hletters := takeWhile_of_span (span_eq_iff.2 ⟨rfl, hs.isAlpha,
    hs.formed.head_afterLetters rest rfl fun _ hc => not_isAlpha_of_isDigit hc⟩)
  unfold takeColumns
  rw [hs.formed.takeDollar_write]
  dsimp only
  rw [hletters]
  have hhead : ∃ c ∈ ((s.letters ++ (Address.dollar s.rowAbs ++ (s.digits ++ rest))).drop
      (s.letters.take 3).length).head?, c = '$' ∨ Unicode.isAlphanumeric c = true := by
    rw [List.drop_append_of_le_length (List.length_take_le' 3 s.letters), List.head?_append]
    cases hdrop : s.letters.drop (s.letters.take 3).length with
    | cons c letters =>
      have hc := hs.isAlpha c (List.mem_of_mem_drop (hdrop ▸ List.mem_cons_self))
      exact ⟨c, rfl, .inr (by simp [Unicode.isAlphanumeric, Unicode.isAlphabetic, hc])⟩
    | nil =>
      obtain ⟨c, digits, hc⟩ := List.exists_cons_of_ne_nil hs.digits_ne_nil
      have hdigit := hs.isDigit c (hc ▸ List.mem_cons_self)
      cases s.rowAbs with
      | true => exact ⟨'$', rfl, .inl rfl⟩
      | false =>
        rw [hc]
        exact ⟨c, rfl, .inr (by simp [Unicode.isAlphanumeric, Unicode.isNumeric, hdigit])⟩
  obtain ⟨c, hc, hstop⟩ := hhead
  rw [if_pos]
  rw [Option.mem_def.1 hc]
  rcases hstop with rfl | hc
  · decide
  · simp [hc]

theorem takeColumns_eq_none_of_head (h : ∀ c ∈ cs.head?, c ≠ '$' ∧ c.isAlpha = false) :
    takeColumns left cs = none := by
  have hdollar : Address.takeDollar cs = (false, cs) :=
    Address.takeDollar_dollar (b := false) fun hc => (h '$' hc).1 rfl
  have hletters : cs.takeWhile Char.isAlpha = [] := by
    cases cs with
    | nil => rfl
    | cons c cs =>
      exact List.takeWhile_cons_of_neg (by rw [(h c rfl).2]; exact Bool.false_ne_true)
  unfold takeColumns
  rw [hdollar]
  dsimp only
  rw [hletters]
  split
  · rfl
  · split
    · next hcol =>
      cases hcol
    · rfl

/-- Whether columns end in a word depends on no more than the character after it. -/
theorem takeColumns_append_congr (hhead : rest'.head? = rest.head?)
    (hrest : ∀ c ∈ rest.head?, c ≠ '$' ∧ c.isAlpha = false)
    (h : takeColumns left (w ++ rest) = none) : takeColumns left (w ++ rest') = none := by
  have hdollar {r : List Char} (hr : ∀ c ∈ r.head?, c ≠ '$' ∧ c.isAlpha = false) :
      Address.takeDollar (w ++ r) = ((Address.takeDollar w).1, (Address.takeDollar w).2 ++ r) := by
    cases w with
    | nil => exact Address.takeDollar_dollar (b := false) fun hc => (hr '$' hc).1 rfl
    | cons c w =>
      by_cases hc : c = '$'
      · rw [hc]
        rfl
      · have hw (v : List Char) : Address.takeDollar (c :: v) = (false, c :: v) :=
          Address.takeDollar_dollar (b := false) fun h => hc (Option.some.inj h)
        rw [List.cons_append, hw, hw, List.cons_append]
  have hletters {v r : List Char} (hr : ∀ c ∈ r.head?, c ≠ '$' ∧ c.isAlpha = false) :
      (v ++ r).takeWhile Char.isAlpha = v.takeWhile Char.isAlpha := by
    induction v with
    | nil => exact takeWhile_of_span (span_eq_iff.2 ⟨rfl, nofun, fun c hc => (hr c hc).2⟩)
    | cons c v ih => rw [List.cons_append, List.takeWhile_cons, List.takeWhile_cons, ih]
  have hrest' := hhead ▸ hrest
  have hlen (v : List Char) : ((v.takeWhile Char.isAlpha).take 3).length ≤ v.length :=
    ((List.take_prefix _ _).trans (List.takeWhile_prefix _)).length_le
  unfold takeColumns at h ⊢
  rw [hdollar hrest] at h
  rw [hdollar hrest']
  dsimp only at h ⊢
  rw [hletters hrest, List.drop_append_of_le_length (hlen _), List.head?_append] at h
  rw [hletters hrest', List.drop_append_of_le_length (hlen _), List.head?_append, hhead]
  split at h
  · next hstop => rw [if_pos hstop]
  · next hstop =>
    rw [if_neg hstop]
    split at h
    · cases h
    · rfl

end Lexer

end Spreadsheet
