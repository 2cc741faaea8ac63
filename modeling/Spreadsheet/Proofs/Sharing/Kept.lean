import Mathlib.Data.List.Chain
import Spreadsheet.Proofs.Lexing.Reads
import Spreadsheet.Proofs.Sharing.Text

/-!
Texts of tokens that stay as they are: in them is no spelling, or only such as are part of a name
or lie outside the sheet.
-/

namespace Spreadsheet.SharedFormula

open Lexer

variable {rows cols : Int} {before before' : Option Char} {c : Char} {cs rest u v w : List Char}
  {s : Spelling}

theorem getLast?_cons_or (c : Char) (u : List Char) (before : Option Char) :
    (c :: u).getLast?.or before = u.getLast?.or (some c) := by
  rw [List.getLast?_cons]
  cases u.getLast? <;> rfl

theorem getLast?_append_or (hu : u ≠ []) (v : List Char) (before : Option Char) :
    (u ++ v).getLast?.or before = v.getLast?.or u.getLast? := by
  rw [List.getLast?_append, Option.or_assoc, List.getLast?_eq_some_getLast hu]
  rfl

theorem Spelling.Valid.getLast?_write (hs : s.Valid) : s.write.getLast? = s.digits.getLast? :=
  List.getLast?_append_of_ne_nil _ hs.digits_ne_nil

theorem continuesName_of_isDigit (h : c.isDigit = true) : continuesName c = true := by
  simp [continuesName, Unicode.isAlphanumeric, Unicode.isNumeric, h]

theorem continuesName_of_continuesIdent (h : continuesIdent c = true)
    (hplain : c ≠ '\\' ∧ c ≠ '$') : continuesName c = true := by
  simp only [continuesIdent, continuesName, Bool.or_eq_true, beq_iff_eq] at h ⊢
  tauto

theorem not_continuesName_of_not_continuesIdent (h : continuesIdent c = false) :
    continuesName c = false := by
  simp only [continuesIdent, continuesName, Bool.or_eq_false_iff] at h ⊢
  tauto

/-- Every spelling that starts in the text ends in it and is one that does not move. -/
def Kept (before : Option Char) (w rest : List Char) : Prop :=
  ∀ ⦃u v s r⦄, w = u ++ v → v ≠ [] → Spelling.take? (v ++ rest) = some (s, r) →
    s.write <+: v ∧ (s.address? = none ∨ isPartOfName (u.getLast?.or before) r.head? = true)

theorem moveFrom_append (hq : ∀ c ∈ w, isQuote c = false) (h : Kept before w rest) :
    moveFrom rows cols before (w ++ rest) =
      w ++ moveFrom rows cols (w.getLast?.or before) rest := by
  induction hn : w.length using Nat.strong_induction_on generalizing w before with
  | _ n ih =>
    subst hn
    cases w with
    | nil => rfl
    | cons c w =>
      cases htake : Spelling.take? (c :: w ++ rest) with
      | none =>
        have hkept : Kept (some c) w rest := by
          intro u v s r hw hv hs
          have hc := h (u := c :: u) (congrArg (c :: ·) hw) hv hs
          rwa [getLast?_cons_or] at hc
        obtain ⟨hc, hq⟩ := List.forall_mem_cons.1 hq
        rw [List.cons_append] at htake ⊢
        rw [moveFrom_of_none hc htake, ih w.length (Nat.lt_succ_self _) hq hkept rfl,
          getLast?_cons_or]
        rfl
      | some p =>
        obtain ⟨s, r⟩ := p
        obtain ⟨hs, happend, -⟩ := Spelling.take?_eq_some_iff.1 htake
        obtain ⟨⟨tail, htail⟩, hstay⟩ := h (u := []) rfl (List.cons_ne_nil _ _) htake
        have hkept : Kept s.digits.getLast? tail rest := by
          intro u v s' r hw hv hs'
          have hc := h (u := s.write ++ u) (by rw [← htail, hw, List.append_assoc]) hv hs'
          rwa [getLast?_append_or hs.formed.write_ne_nil, hs.getLast?_write] at hc
        have hr : r = tail ++ rest := by
          rw [← htail, List.append_assoc] at happend
          exact (List.append_cancel_left happend).symm
        have hmoved : s.moved rows cols before r.head? = s.write := by
          unfold Spelling.moved
          rcases hstay with hnone | hpart
          · rw [hnone]
          · cases s.address? with
            | none => rfl
            | some a => exact if_pos hpart
        have hlen : tail.length < (c :: w).length := by
          have hpos := List.length_pos_iff.2 hs.formed.write_ne_nil
          rw [← htail, List.length_append]
          omega
        have hq : ∀ c ∈ tail, isQuote c = false := by
          intro c hc
          exact hq c (by rw [← htail]; exact List.mem_append_right _ hc)
        rw [moveFrom_of_some htake, hmoved, hr, ih _ hlen hq hkept rfl, ← htail,
          getLast?_append_or hs.formed.write_ne_nil, hs.getLast?_write, List.append_assoc]

theorem head_of_take? (h : Spelling.take? (c :: cs) = some (s, rest)) :
    c = '$' ∨ c.isUpper = true := by
  obtain ⟨hs, hcs, -⟩ := Spelling.take?_eq_some_iff.1 h
  exact hs.head_write rest c (by rw [← hcs]; rfl)

/-- Before a character that goes on with no word, a spelling ends where the text does. -/
theorem prefix_of_take? (hrest : ∀ c ∈ rest.head?, continuesIdent c = false)
    (h : Spelling.take? (v ++ rest) = some (s, r)) : ∃ x, v = s.write ++ x ∧ r = x ++ rest := by
  obtain ⟨hs, happend, -⟩ := Spelling.take?_eq_some_iff.1 h
  rcases List.append_eq_append_iff.1 happend with ⟨x, hx, hr⟩ | ⟨x, hx, hr⟩
  · cases x with
    | nil => exact ⟨[], by rw [hx, List.append_nil, List.append_nil], hr.symm⟩
    | cons c x =>
      have hc := hs.continuesIdent c (by rw [hx]; simp)
      rw [hrest c (by rw [hr]; rfl)] at hc
      cases hc
  · exact ⟨x, hx, hr⟩

theorem kept_of_no_head (h : ∀ c ∈ w, c ≠ '$' ∧ c.isUpper = false) : Kept before w rest := by
  intro u v s r hw hv hs
  obtain ⟨c, v, rfl⟩ := List.exists_cons_of_ne_nil hv
  obtain ⟨hdollar, hupper⟩ := h c (by rw [hw]; simp)
  rcases head_of_take? hs with rfl | hc
  · exact absurd rfl hdollar
  · rw [hupper] at hc
    cases hc

theorem isPartOfName_of_before (h : before.any continuesName = true) (after : Option Char) :
    isPartOfName before after = true := by
  rw [isPartOfName, h, Bool.true_or]

/-- A name moves only if it is a spelling as a whole. -/
theorem kept_name (hw : ∀ c ∈ w, continuesName c = true)
    (hrest : ∀ c ∈ rest.head?, continuesIdent c = false)
    (hwhole : ∀ s : Spelling, s.Valid → w = s.write →
      s.address? = none ∨ isPartOfName before rest.head? = true) : Kept before w rest := by
  intro u v s r hsplit hv hs
  have hvalid := (Spelling.take?_eq_some_iff.1 hs).1
  obtain ⟨x, rfl, rfl⟩ := prefix_of_take? hrest hs
  refine ⟨List.prefix_append _ _, ?_⟩
  rcases List.eq_nil_or_concat u with rfl | ⟨u, c, rfl⟩
  · cases x with
    | nil =>
      exact hwhole s hvalid (by rw [hsplit, List.append_nil]; rfl)
    | cons c x =>
      have hc := hw c (by rw [hsplit]; simp)
      exact .inr (by simp [isPartOfName, hc])
  · have hc := hw c (by rw [hsplit]; simp)
    rw [List.concat_eq_append, List.getLast?_concat]
    exact .inr (isPartOfName_of_before (by simpa using hc) _)

theorem eq_of_append_cons {m e : List Char} (h : u ++ c :: v = m ++ e) (hm : c ∉ m)
    (he : c ∉ e.tail) : u = m := by
  rcases List.append_eq_append_iff.1 h with ⟨x, rfl, hx⟩ | ⟨x, rfl, rfl⟩
  · cases x with
    | nil => exact (List.append_nil u).symm
    | cons d x =>
      obtain ⟨rfl, -⟩ := List.cons.inj hx
      exact absurd (by simp) hm
  · cases x with
    | nil => exact List.append_nil m
    | cons d x => exact absurd (by simp) he

/-- In a numeral a letter follows a digit or the point. -/
theorem kept_numeral (hw : Number.NumeralText w n)
    (hrest : ∀ c ∈ rest.head?, continuesIdent c = false) : Kept before w rest := by
  intro u v s r hsplit hv hs
  obtain ⟨c, v, rfl⟩ := List.exists_cons_of_ne_nil hv
  obtain ⟨x, hx, -⟩ := prefix_of_take? hrest hs
  refine ⟨⟨x, hx.symm⟩, .inr (isPartOfName_of_before ?_ _)⟩
  obtain ⟨m, e, _, rfl, hne, hm, he⟩ := hw.exists_exponent
  have hhead {d : Char} (hd : d.isDigit = true ∨ d = '.' ∨ d = '+' ∨ d = '-') : c ≠ d := by
    rintro rfl
    rcases head_of_take? hs with rfl | hupper
    · rcases hd with hd | hd | hd | hd <;> cases hd
    · rcases hd with hd | rfl | rfl | rfl
      · have halpha := isAlpha_of_isUpper hupper
        rw [not_isAlpha_of_isDigit hd] at halpha
        cases halpha
      all_goals cases hupper
  have hu : u = m := by
    refine eq_of_append_cons hsplit.symm (fun hc => ?_) fun hc => ?_
    · exact hhead ((hm c hc).imp_right .inl) rfl
    · exact hhead ((he.tail c hc).imp_right .inr) rfl
  subst hu
  rw [List.getLast?_eq_some_getLast hne]
  rcases hm _ (List.getLast_mem hne) with hd | hd
  · exact continuesName_of_isDigit hd
  · rw [hd]
    rfl

/-- In a spelling a `$` or a digit follows a letter. -/
theorem Spelling.Valid.exists_letter_digit (hs : s.Valid) :
    ∃ u c d v, s.write = u ++ c :: d :: v ∧ c.isUpper = true ∧ (d = '$' ∨ d.isDigit = true) := by
  obtain ⟨letters, c, hc⟩ := (List.eq_nil_or_concat s.letters).resolve_left hs.letters_ne_nil
  obtain ⟨d, digits, hd⟩ := List.exists_cons_of_ne_nil hs.digits_ne_nil
  have hupper := hs.isUpper c (by rw [hc]; simp)
  cases hrow : s.rowAbs with
  | true =>
    refine ⟨Address.dollar s.colAbs ++ letters, c, '$', s.digits, ?_, hupper, .inl rfl⟩
    simp [write, hc, hrow, Address.dollar]
  | false =>
    refine ⟨Address.dollar s.colAbs ++ letters, c, d, digits, ?_, hupper,
      .inr (hs.isDigit d (hd ▸ List.mem_cons_self))⟩
    simp [write, hc, hd, hrow, Address.dollar]

/-- In no error literal a `$` or a digit follows a letter. -/
theorem kept_error (he : e ∈ ErrorValue.literals)
    (hw : Unicode.sameAscii e.text (String.ofList w) = true)
    (hrest : ∀ c ∈ rest.head?, continuesIdent c = false) : Kept before w rest := by
  intro u v s r hsplit hv hs
  obtain ⟨x, rfl, -⟩ := prefix_of_take? hrest hs
  obtain ⟨l, c, d, m, hwrite, hc, hd⟩ := (Spelling.take?_eq_some_iff.1 hs).1.exists_letter_digit
  have hchain : ∀ e ∈ ErrorValue.literals, List.IsChain
      (fun c d : Char => c.isLower = true → d.isDigit = false ∧ d ≠ '$')
      (e.text.toList.map Char.toLower) := by decide +kernel
  have hpair : d.toLower.isDigit = false ∧ d.toLower ≠ '$' := by
    rw [Unicode.sameAscii, String.toList_ofList, beq_iff_eq] at hw
    have hchain := hchain e he
    rw [hw, hsplit, hwrite] at hchain
    simp only [List.map_append, List.map_cons, List.append_assoc, List.cons_append] at hchain
    have hchain := hchain.right_of_append.right_of_append
    exact (List.isChain_cons_cons.1 hchain).1 (isLower_toLower hc)
  have hlower : d.toLower = d := by
    rcases hd with rfl | hd
    · rfl
    · exact toLower_eq_self (Bool.or_eq_false_iff.1 (not_isAlpha_of_isDigit hd)).1
  rw [hlower] at hpair
  rcases hd with rfl | hd
  · exact absurd rfl hpair.2
  · rw [hpair.1] at hd
    cases hd

theorem kept_of_no_spelling (hw : ∀ s : Spelling, s.Valid → ¬ s.write <:+: w)
    (hrest : ∀ c ∈ rest.head?, continuesIdent c = false) : Kept before w rest := by
  intro u v s r hsplit hv hs
  obtain ⟨x, rfl, -⟩ := prefix_of_take? hrest hs
  have hvalid := (Spelling.take?_eq_some_iff.1 hs).1
  exact absurd ⟨u, x, by rw [hsplit, List.append_assoc]⟩ (hw s hvalid)

/-- Rows have no letters. -/
theorem kept_rows (hw : RowsText w area) (hrest : ∀ c ∈ rest.head?, continuesIdent c = false) :
    Kept before w rest := by
  refine kept_of_no_spelling (fun s hs hsub => ?_) hrest
  obtain ⟨c, letters, hc⟩ := List.exists_cons_of_ne_nil hs.letters_ne_nil
  have hupper := hs.isUpper c (hc ▸ List.mem_cons_self)
  rcases hw.mem c (hsub.subset (by simp [Spelling.write, hc])) with rfl | rfl | hdigit
  · cases hupper
  · cases hupper
  · have halpha := not_isAlpha_of_isDigit hdigit
    rw [isAlpha_of_isUpper hupper] at halpha
    cases halpha

/-- Columns have no digits. -/
theorem kept_columns (hw : ColumnsText w v area)
    (hrest : ∀ c ∈ rest.head?, continuesIdent c = false) : Kept before (w ++ ':' :: v) rest := by
  refine kept_of_no_spelling (fun s hs hsub => ?_) hrest
  obtain ⟨c, digits, hc⟩ := List.exists_cons_of_ne_nil hs.digits_ne_nil
  have hdigit := hs.isDigit c (hc ▸ List.mem_cons_self)
  rcases hw.mem c (hsub.subset (by simp [Spelling.write, hc])) with rfl | rfl | halpha
  · cases hdigit
  · cases hdigit
  · rw [not_isAlpha_of_isDigit hdigit] at halpha
    cases halpha

/-- Behind the first character of letters with a `$` or without stand letters. -/
theorem mem_of_dollar_append {letters : List Char} (h : Address.dollar b ++ letters = d :: cs)
    (hc : c ∈ cs) : c ∈ letters := by
  cases b with
  | true =>
    obtain ⟨-, htail⟩ := List.cons.inj h
    rwa [← htail] at hc
  | false =>
    have hletters : letters = d :: cs := h
    rw [hletters]
    exact List.mem_cons_of_mem d hc

theorem filter_isAlpha {letters : List Char} (h : ∀ c ∈ letters, c.isAlpha = true) (b : Bool) :
    (Address.dollar b ++ letters).filter Char.isAlpha = letters := by
  rw [List.filter_append, List.filter_eq_self.2 h]
  cases b <;> rfl

/-- In a text in the form of an address the letters of a spelling end where all letters do. -/
theorem append_letters_eq {s s' : Spelling} (halpha : ∀ c ∈ s.letters, c.isAlpha = true)
    (hdigit : ∀ c ∈ s.digits, c.isDigit = true) (hs' : s'.Valid)
    (h : s.write = u ++ (s'.write ++ v)) :
    Address.dollar s.colAbs ++ s.letters = u ++ (Address.dollar s'.colAbs ++ s'.letters) := by
  have htail : ∀ c ∈ Address.dollar s.rowAbs ++ s.digits, c.isAlpha = false := by
    intro c hc
    rcases List.mem_append.1 hc with hc | hc
    · rw [eq_of_mem_dollar hc]
      rfl
    · exact not_isAlpha_of_isDigit (hdigit c hc)
  have hsplit : (Address.dollar s.colAbs ++ s.letters) ++ (Address.dollar s.rowAbs ++ s.digits) =
      (u ++ (Address.dollar s'.colAbs ++ s'.letters)) ++
        (Address.dollar s'.rowAbs ++ (s'.digits ++ v)) := by
    simpa only [Spelling.write, List.append_assoc] using h
  rcases List.append_eq_append_iff.1 hsplit with ⟨x, hx, hrow⟩ | ⟨x, hx, hrow⟩
  · -- the spelling's last letter would stand behind the letters
    rcases List.eq_nil_or_concat x with rfl | ⟨x, c, rfl⟩
    · rw [hx, List.append_nil]
    · obtain ⟨letters, l, hl⟩ := (List.eq_nil_or_concat s'.letters).resolve_left hs'.letters_ne_nil
      have hlast := hs'.isAlpha l (by simp [hl])
      simp only [hl, List.concat_eq_append, ← List.append_assoc] at hx
      obtain ⟨-, hc⟩ := List.append_inj' hx rfl
      obtain rfl := (List.cons.inj hc).1
      rw [htail l (by simp [hrow])] at hlast
      cases hlast
  · -- a `$` or a digit would stand among the letters
    cases x with
    | nil => rw [hx, List.append_nil]
    | cons c x =>
      have hc := hs'.formed.head_afterLetters v (p := Char.isAlpha) rfl
        (fun _ => not_isAlpha_of_isDigit) c (by rw [hrow]; rfl)
      obtain ⟨d, p, hp⟩ := List.exists_cons_of_ne_nil
        (l := u ++ (Address.dollar s'.colAbs ++ s'.letters)) (by simp [hs'.letters_ne_nil])
      rw [hp] at hx
      rw [halpha c (mem_of_dollar_append hx (by simp))] at hc
      cases hc

theorem Spelling.Valid.isLower (hs : s.Valid) : ∀ c ∈ s.write, c.isLower = false :=
  hs.forall_mem_write rfl (fun _ hc => not_isLower_of_isUpper hc)
    fun _ hc => (Bool.or_eq_false_iff.1 (not_isAlpha_of_isDigit hc)).2

/-- In an address with a small letter a spelling stands behind another letter. -/
theorem kept_smallLetter (hident : ∀ c ∈ w, continuesIdent c = true)
    (ha : Address.parse (String.ofList w) = .ok a) (hsmall : ∃ c ∈ w, c.isLower = true)
    (hrest : ∀ c ∈ rest.head?, continuesIdent c = false) : Kept before w rest := by
  intro u v s' r hsplit hv hs'
  obtain ⟨x, rfl, -⟩ := prefix_of_take? hrest hs'
  have hvalid := (Spelling.take?_eq_some_iff.1 hs').1
  obtain ⟨-, s, hformed, rfl⟩ := Address.exists_write_of_parse hident ha
  have hletters := append_letters_eq hformed.isAlpha hformed.isDigit hvalid hsplit
  have hbefore : u.filter Char.isAlpha ≠ [] := by
    intro hnil
    have heq := congrArg (List.filter Char.isAlpha) hletters
    rw [filter_isAlpha hformed.isAlpha, List.filter_append, filter_isAlpha hvalid.isAlpha, hnil,
      List.nil_append] at heq
    obtain ⟨c, hc, hlower⟩ := hsmall
    have hs : s.Valid :=
      ⟨hformed.letters_ne_nil, heq ▸ hvalid.isUpper, hformed.digits_ne_nil, hformed.isDigit⟩
    rw [hs.isLower c hc] at hlower
    cases hlower
  refine ⟨List.prefix_append _ _, .inr (isPartOfName_of_before ?_ _)⟩
  rcases List.eq_nil_or_concat u with rfl | ⟨u, c, rfl⟩
  · exact absurd rfl hbefore
  · have hc : c.isAlpha = true := by
      cases u with
      | nil =>
        cases hc : c.isAlpha with
        | true => rfl
        | false => exact absurd (List.filter_cons_of_neg (by simp [hc])) hbefore
      | cons d u =>
        refine hformed.isAlpha c (mem_of_dollar_append hletters ?_)
        simp
    rw [List.concat_eq_append, List.getLast?_concat]
    simp [continuesName, Unicode.isAlphanumeric, Unicode.isAlphabetic, hc]

theorem takeQuoted_of_quoted {quote : Char} (hw : Quoted quote w t) (hrest : quote ∉ rest.head?) :
    takeQuoted quote (w ++ rest) = (w, rest) := by
  induction hw with
  | close =>
    cases rest with
    | nil => rfl
    | cons c rest =>
      have hc : ¬ c = quote := fun h => hrest (congrArg some h)
      simp [takeQuoted, hc]
  | doubled _ ih => simp [takeQuoted, ih]
  | @char c w s hc h ih =>
    obtain ⟨d, v, rfl⟩ := List.exists_cons_of_ne_nil h.ne_nil
    rw [List.cons_append, List.cons_append] at *
    simp [takeQuoted, hc, ih]

theorem moveFrom_quoted {quote : Char} (hq : isQuote quote = true) (hw : Quoted quote w t)
    (hrest : quote ∉ rest.head?) :
    moveFrom rows cols before (quote :: (w ++ rest)) =
      quote :: (w ++ moveFrom rows cols none rest) := by
  rw [moveFrom_quote hq, takeQuoted_of_quoted hw hrest]
  rfl

end Spreadsheet.SharedFormula
