import Mathlib.Data.String.Basic
import Spreadsheet.Proofs.Lexing.Characters
import Spreadsheet.Proofs.Outcome
import Spreadsheet.Proofs.Sharing.Moved

/-!
Addresses as text: what is read as an address, and that what is written reads back.
-/

namespace Spreadsheet

/-! ### Letters and digits -/

theorem lettersValue_append (cs ds : List Char) :
    lettersValue (cs ++ ds) = ds.foldl (fun n c => 26 * n + letterValue c) (lettersValue cs) :=
  List.foldl_append

theorem columnLetters_succ (n : Nat) :
    columnLetters (n + 1) = columnLetters (n / 26) ++ [Char.ofNat ('A'.toNat + n % 26)] := by
  rw [columnLetters, if_neg (Nat.succ_ne_zero n), Nat.add_sub_cancel]

theorem lettersValue_columnLetters (n : Nat) : lettersValue (columnLetters n) = n := by
  induction n using Nat.strong_induction_on with
  | _ n ih =>
    cases n with
    | zero => rw [columnLetters, if_pos rfl]; rfl
    | succ n =>
      have hletter : ∀ k < 26, letterValue (Char.ofNat ('A'.toNat + k)) = k + 1 := by decide
      rw [columnLetters_succ, lettersValue_append, ih (n / 26) (by omega), List.foldl_cons,
        List.foldl_nil, hletter _ (Nat.mod_lt _ (by omega))]
      omega

theorem isUpper_of_mem_columnLetters (h : c ∈ columnLetters n) : c.isUpper = true := by
  induction n using Nat.strong_induction_on with
  | _ n ih =>
    cases n with
    | zero =>
      rw [columnLetters, if_pos rfl] at h
      cases h
    | succ n =>
      have hletter : ∀ k < 26, (Char.ofNat ('A'.toNat + k)).isUpper = true := by decide
      rw [columnLetters_succ, List.mem_append, List.mem_singleton] at h
      rcases h with h | rfl
      · exact ih (n / 26) (by omega) h
      · exact hletter _ (Nat.mod_lt _ (by omega))

theorem columnLetters_ne_nil (h : 1 ≤ n) : columnLetters n ≠ [] := by
  obtain ⟨m, rfl⟩ := Nat.exists_eq_add_of_le' h
  rw [columnLetters_succ]
  exact List.append_ne_nil_of_right_ne_nil _ (List.cons_ne_nil _ _)

/-- With one letter more, 26 times as many columns and 26 more can be named. -/
theorem length_columnLetters_le (hk : ∀ m ≤ top, (columnLetters m).length ≤ k)
    (h : n ≤ 26 * top + 26) : (columnLetters n).length ≤ k + 1 := by
  cases n with
  | zero => 
    rw [columnLetters, if_pos rfl]
    exact Nat.zero_le _
  | succ n =>
    rw [columnLetters_succ, List.length_append]
    exact Nat.add_le_add_right (hk _ (by omega)) 1

theorem length_columnLetters_le_three (h : n ≤ maxCol) : (columnLetters n).length ≤ 3 := by
  have h₀ : ∀ m ≤ 0, (columnLetters m).length ≤ 0 := by
    intro m hm
    rw [Nat.le_zero.1 hm, columnLetters, if_pos rfl]
    exact Nat.le_refl 0
  have h₁ : ∀ m ≤ 26, (columnLetters m).length ≤ 1 := fun m hm => length_columnLetters_le h₀ hm
  have h₂ : ∀ m ≤ 702, (columnLetters m).length ≤ 2 := fun m hm => length_columnLetters_le h₁ hm
  exact length_columnLetters_le h₂ (by rw [maxCol] at h; omega)

theorem utf8Size_of_isAlpha {c : Char} (h : c.isAlpha = true) : c.utf8Size = 1 := by
  rw [Char.utf8Size_eq_one_iff]
  simp only [Char.isAlpha, Char.isUpper, Char.isLower, Bool.or_eq_true, Bool.and_eq_true,
    decide_eq_true_eq] at h
  rcases h with ⟨-, h⟩ | ⟨-, h⟩
  · exact UInt32.le_trans h (by decide)
  · exact UInt32.le_trans h (by decide)

theorem utf8ByteSize_ofList_of_isAlpha {cs : List Char} (h : ∀ c ∈ cs, c.isAlpha = true) :
    (String.ofList cs).utf8ByteSize = cs.length := by
  rw [String.utf8ByteSize_ofList]
  induction cs with
  | nil => rfl
  | cons c cs ih =>
    obtain ⟨hc, hcs⟩ := List.forall_mem_cons.1 h
    rw [String.utf8Len_cons, ih hcs, List.length_cons, utf8Size_of_isAlpha hc]

/-- Letters name a column if they are at most three and their value is in the sheet. -/
theorem columnNumber_ofList {cs : List Char} (hne : cs ≠ []) (h : ∀ c ∈ cs, c.isAlpha = true) :
    (columnNumber (String.ofList cs)).toOption =
      if cs.length ≤ 3 ∧ lettersValue cs ≤ maxCol then some (lettersValue cs) else none := by
  have hfind : cs.find? (fun c => !c.isAlpha) = none := by
    simpa using h
  have hempty : (String.ofList cs).isEmpty = false := by
    simpa using hne
  rw [columnNumber, hempty, utf8ByteSize_ofList_of_isAlpha h, String.toList_ofList, hfind]
  by_cases hlen : cs.length ≤ 3
  · by_cases hcol : lettersValue cs ≤ maxCol
    · simp [hlen, hcol, Nat.not_lt.2 hlen, Nat.not_lt.2 hcol, Except.toOption]
    · simp [hlen, hcol, Nat.not_lt.2 hlen, Nat.not_le.1 hcol, Except.toOption]
  · simp [hlen, Nat.not_le.1 hlen, Except.toOption]

/-- Something other than a letter names no column. -/
theorem columnNumber_ofList_of_not_isAlpha {cs : List Char} (hc : c ∈ cs)
    (h : c.isAlpha = false) : (columnNumber (String.ofList cs)).toOption = none := by
  have hempty : (String.ofList cs).isEmpty = false := by
    simpa using List.ne_nil_of_mem hc
  obtain ⟨d, hd⟩ : ∃ d, cs.find? (fun c => !c.isAlpha) = some d := by
    rw [← Option.isSome_iff_exists, List.find?_isSome]
    exact ⟨c, hc, by rw [h]; rfl⟩
  rw [columnNumber, hempty, String.toList_ofList, hd]
  by_cases hlen : 3 < (String.ofList cs).utf8ByteSize
  · simp [hlen, Except.toOption]
  · simp [hlen, Except.toOption]

theorem digitsValue_toDigits (n : Nat) : Number.digitsValue (Nat.toDigits 10 n) = n :=
  Nat.ofDigitChars_ten_toDigits

/-- Digits name a row if their value is in the sheet. -/
theorem rowNumber_eq (text : String) {cs : List Char} (hne : cs ≠ [])
    (h : ∀ c ∈ cs, c.isDigit = true) :
    (Address.rowNumber text cs).toOption =
      if 1 ≤ Number.digitsValue cs ∧ Number.digitsValue cs ≤ maxRow then
        some (Number.digitsValue cs)
      else none := by
  have hempty : cs.isEmpty = false := by
    simpa using hne
  have hall : cs.all Char.isDigit = true := List.all_eq_true.2 h
  have hmax : maxRow < unreadable := by decide
  rw [Address.rowNumber, hempty, hall]
  generalize Number.digitsValue cs = row
  by_cases hlarge : unreadable < row
  · simp [hlarge, Nat.not_le.2 (hmax.trans hlarge), Except.toOption]
  · by_cases hzero : row = 0
    · simp [hzero, Except.toOption]
    · by_cases hrow : row ≤ maxRow
      · simp [hlarge, hzero, hrow, Nat.not_lt.2 hrow, Nat.one_le_iff_ne_zero.2 hzero,
          Except.toOption]
      · simp [hlarge, hzero, hrow, Nat.not_le.1 hrow, Except.toOption]

theorem isDigit_of_rowNumber (h : Address.rowNumber text cs = .ok row) :
    cs ≠ [] ∧ ∀ c ∈ cs, c.isDigit = true := by
  rw [Address.rowNumber] at h
  by_cases hempty : cs.isEmpty = true
  · rw [hempty] at h
    cases h
  · by_cases hall : cs.all Char.isDigit = true
    · exact ⟨by simpa using hempty, List.all_eq_true.1 hall⟩
    · simp [hempty, hall] at h

/-! ### Spellings -/

theorem Address.takeDollar_dollar {b : Bool} {cs : List Char} (h : '$' ∉ cs.head?) :
    Address.takeDollar (Address.dollar b ++ cs) = (b, cs) := by
  cases b with
  | true => rfl
  | false =>
    change Address.takeDollar cs = (false, cs)
    unfold Address.takeDollar
    split
    · exact absurd rfl h
    · rfl

theorem Address.dollar_takeDollar (cs : List Char) :
    Address.dollar (Address.takeDollar cs).1 ++ (Address.takeDollar cs).2 = cs := by
  unfold Address.takeDollar Address.dollar
  split <;> rfl

namespace SharedFormula.Spelling

/-- Letters before digits. -/
structure Formed (s : Spelling) : Prop where
  letters_ne_nil : s.letters ≠ []
  isAlpha : ∀ c ∈ s.letters, c.isAlpha = true
  digits_ne_nil : s.digits ≠ []
  isDigit : ∀ c ∈ s.digits, c.isDigit = true

/-- Capital letters before digits. -/
structure Valid (s : Spelling) : Prop where
  letters_ne_nil : s.letters ≠ []
  isUpper : ∀ c ∈ s.letters, c.isUpper = true
  digits_ne_nil : s.digits ≠ []
  isDigit : ∀ c ∈ s.digits, c.isDigit = true

variable {s : Spelling} {cs rest : List Char}

theorem Valid.isAlpha (hs : s.Valid) : ∀ c ∈ s.letters, c.isAlpha = true :=
  fun c hc => isAlpha_of_isUpper (hs.isUpper c hc)

theorem Valid.formed (hs : s.Valid) : s.Formed :=
  ⟨hs.letters_ne_nil, hs.isAlpha, hs.digits_ne_nil, hs.isDigit⟩

/-- After the letters comes a `$` or a digit. -/
theorem Formed.head_afterLetters (hs : s.Formed) (rest : List Char) {p : Char → Bool}
    (hdollar : p '$' = false)
    (hdigit : ∀ c, c.isDigit = true → p c = false) :
    ∀ c ∈ (Address.dollar s.rowAbs ++ (s.digits ++ rest)).head?, p c = false := by
  intro c hc
  obtain ⟨d, ds, hd⟩ := List.exists_cons_of_ne_nil hs.digits_ne_nil
  rw [hd] at hc
  cases hrow : s.rowAbs with
  | true =>
    rw [hrow] at hc
    obtain rfl := Option.some.inj hc
    exact hdollar
  | false =>
    rw [hrow] at hc
    obtain rfl := Option.some.inj hc
    exact hdigit d (hs.isDigit d (hd ▸ List.mem_cons_self))

theorem Formed.takeDollar_write (hs : s.Formed) (rest : List Char) :
    Address.takeDollar (s.write ++ rest) =
      (s.colAbs, s.letters ++ (Address.dollar s.rowAbs ++ (s.digits ++ rest))) := by
  rw [write, List.append_assoc, List.append_assoc, List.append_assoc]
  refine Address.takeDollar_dollar fun hdollar => ?_
  obtain ⟨c, cs, hc⟩ := List.exists_cons_of_ne_nil hs.letters_ne_nil
  rw [hc] at hdollar
  obtain rfl := Option.some.inj hdollar
  have halpha := hs.isAlpha '$' (hc ▸ List.mem_cons_self)
  cases halpha

theorem Formed.takeDollar_row (hs : s.Formed) (rest : List Char) :
    Address.takeDollar (Address.dollar s.rowAbs ++ (s.digits ++ rest)) =
      (s.rowAbs, s.digits ++ rest) := by
  refine Address.takeDollar_dollar fun hdollar => ?_
  obtain ⟨c, cs, hc⟩ := List.exists_cons_of_ne_nil hs.digits_ne_nil
  rw [hc] at hdollar
  obtain rfl := Option.some.inj hdollar
  have hdigit := hs.isDigit '$' (hc ▸ List.mem_cons_self)
  cases hdigit

/-- Just the texts that spellings write are taken, with all the digits that there are. -/
theorem take?_eq_some_iff :
    take? cs = some (s, rest) ↔
      s.Valid ∧ cs = s.write ++ rest ∧ ∀ c ∈ rest.head?, c.isDigit = false := by
  constructor
  · intro h
    have happend := write_append_of_take? h
    simp only [take?] at h
    split at h
    · cases h
    · next hne =>
      cases h
      rw [Bool.or_eq_true, not_or, List.isEmpty_iff, List.isEmpty_iff] at hne
      refine ⟨⟨hne.1, fun c hc => List.mem_takeWhile_imp hc, hne.2,
        fun c hc => List.mem_takeWhile_imp hc⟩, happend.symm, ?_⟩
      exact (span_eq_iff.1 (List.span_eq_takeWhile_dropWhile _ _)).2.2
  · rintro ⟨hs, rfl, hrest⟩
    have hletters := span_eq_iff.2 ⟨rfl, hs.isUpper, hs.formed.head_afterLetters rest rfl
      fun c hc => (Bool.or_eq_false_iff.1 (not_isAlpha_of_isDigit hc)).1⟩
    have hdigits := span_eq_iff.2 ⟨rfl, hs.isDigit, hrest⟩
    simp only [take?, hs.formed.takeDollar_write, takeWhile_of_span hletters,
      dropWhile_of_span hletters, hs.formed.takeDollar_row, takeWhile_of_span hdigits,
      dropWhile_of_span hdigits]
    rw [if_neg]
    simp [hs.letters_ne_nil, hs.digits_ne_nil]

theorem Valid.forall_mem_write (hs : s.Valid) {p : Char → Prop} (hdollar : p '$')
    (hupper : ∀ c, c.isUpper = true → p c) (hdigit : ∀ c, c.isDigit = true → p c) :
    ∀ c ∈ s.write, p c := by
  have hflag (b : Bool) : ∀ c ∈ Address.dollar b, p c := by
    intro c hc
    cases b with
    | true =>
      obtain rfl := List.mem_singleton.1 hc
      exact hdollar
    | false => cases hc
  intro c hc
  simp only [write, List.mem_append] at hc
  rcases hc with ((hc | hc) | hc) | hc
  · exact hflag _ c hc
  · exact hupper c (hs.isUpper c hc)
  · exact hflag _ c hc
  · exact hdigit c (hs.isDigit c hc)

theorem Valid.continuesIdent (hs : s.Valid) : ∀ c ∈ s.write, Lexer.continuesIdent c = true :=
  hs.forall_mem_write (by decide)
    (fun _ hc => Lexer.continuesIdent_of_isAlpha (isAlpha_of_isUpper hc))
    fun _ hc => Lexer.continuesIdent_of_isDigit hc

theorem Formed.write_ne_nil (hs : s.Formed) : s.write ≠ [] :=
  List.append_ne_nil_of_right_ne_nil _ hs.digits_ne_nil

/-- A spelling starts with a `$` or with a capital letter. -/
theorem Valid.head_write (hs : s.Valid) (rest : List Char) :
    ∀ c ∈ (s.write ++ rest).head?, c = '$' ∨ c.isUpper = true := by
  intro c hc
  obtain ⟨d, ds, hd⟩ := List.exists_cons_of_ne_nil hs.letters_ne_nil
  rw [write, hd] at hc
  cases hcol : s.colAbs with
  | true =>
    rw [hcol] at hc
    exact .inl (Option.some.inj hc).symm
  | false =>
    rw [hcol] at hc
    obtain rfl := Option.some.inj hc
    exact .inr (hs.isUpper d (hd ▸ List.mem_cons_self))

/-- A spelling is read as the address that it spells. -/
theorem Formed.parse (hs : s.Formed) {text : String} (htrim : Unicode.trim text.toList = s.write) :
    (Address.parse text).toOption = s.address? := by
  have hdollar := hs.takeDollar_write []
  have hrow := hs.takeDollar_row []
  have hletters := span_eq_iff.2 ⟨rfl, hs.isAlpha, hs.head_afterLetters [] rfl
    fun _ hc => not_isAlpha_of_isDigit hc⟩
  have hempty : s.write.isEmpty = false := by
    simpa using hs.write_ne_nil
  have hempty' : s.letters.isEmpty = false := by
    simpa using hs.letters_ne_nil
  simp only [List.append_nil] at hdollar hrow hletters
  simp only [Address.parse, htrim, hempty, hdollar, hletters, hempty', hrow,
    Bool.false_eq_true, if_false, toOption_bind, address?]
  rw [columnNumber_ofList hs.letters_ne_nil hs.isAlpha,
    rowNumber_eq (String.ofList s.write) hs.digits_ne_nil hs.isDigit]
  by_cases hcol : s.letters.length ≤ 3 ∧ lettersValue s.letters ≤ maxCol
  · by_cases hdigits : 1 ≤ Number.digitsValue s.digits ∧ Number.digitsValue s.digits ≤ maxRow
    · rw [if_pos hcol, if_pos hdigits, if_pos ⟨hcol.1, hcol.2, hdigits⟩]
      rfl
    · rw [if_pos hcol, if_neg hdigits, if_neg fun h => hdigits h.2.2]
      rfl
  · rw [if_neg hcol]
    exact (if_neg fun h => hcol ⟨h.1, h.2.1⟩).symm

theorem Valid.parse (hs : s.Valid) :
    (Address.parse (String.ofList s.write)).toOption = s.address? := by
  apply hs.formed.parse
  rw [String.toList_ofList, Lexer.trim_word hs.continuesIdent]

end SharedFormula.Spelling

theorem one_le_lettersValue {cs : List Char} (hne : cs ≠ []) : 1 ≤ lettersValue cs := by
  obtain ⟨cs, c, rfl⟩ := (List.eq_nil_or_concat cs).resolve_left hne
  rw [List.concat_eq_append, lettersValue_append, List.foldl_cons, List.foldl_nil, letterValue]
  omega

namespace SharedFormula.Spelling

variable {s : Spelling}

theorem address?_eq_some (h : s.address? = some a) :
    (1 ≤ a.row ∧ a.row ≤ maxRow ∧ a.col ≤ maxCol) ∧
      a = ⟨Number.digitsValue s.digits, lettersValue s.letters, s.rowAbs, s.colAbs⟩ := by
  obtain ⟨⟨-, hcol, hrow, hmax⟩, h⟩ := Option.ite_none_right_eq_some.1 h
  obtain rfl := Option.some.inj h
  exact ⟨⟨hrow, hmax, hcol⟩, rfl⟩

theorem Formed.inSheet (hs : s.Formed) (ha : s.address? = some a) : a.InSheet := by
  obtain ⟨⟨hrow, hmax, hcol⟩, rfl⟩ := address?_eq_some ha
  exact ⟨hrow, hmax, one_le_lettersValue hs.letters_ne_nil, hcol⟩

end SharedFormula.Spelling

theorem columnNumber_eq_ok {cs : List Char} (h : columnNumber (String.ofList cs) = .ok col) :
    cs ≠ [] ∧ cs.length ≤ 3 ∧ (∀ c ∈ cs, c.isAlpha = true) ∧ 1 ≤ col ∧ col ≤ maxCol := by
  have hne : cs ≠ [] := by
    rintro rfl
    cases h
  have halpha : ∀ c ∈ cs, c.isAlpha = true := by
    intro c hc
    cases hcalpha : c.isAlpha with
    | true => rfl
    | false =>
      have hnone := columnNumber_ofList_of_not_isAlpha hc hcalpha
      rw [h] at hnone
      cases hnone
  have hsome := columnNumber_ofList hne halpha
  rw [h] at hsome
  obtain ⟨⟨hlen, hmax⟩, hcol⟩ := Option.ite_none_right_eq_some.1 hsome.symm
  obtain rfl := Option.some.inj hcol
  exact ⟨hne, hlen, halpha, one_le_lettersValue hne, hmax⟩

theorem rowNumber_eq_ok (h : Address.rowNumber text cs = .ok row) :
    cs ≠ [] ∧ (∀ c ∈ cs, c.isDigit = true) ∧ 1 ≤ row ∧ row ≤ maxRow := by
  obtain ⟨hne, hdigits⟩ := isDigit_of_rowNumber h
  have hsome := rowNumber_eq text hne hdigits
  rw [h] at hsome
  obtain ⟨hrow, hvalue⟩ := Option.ite_none_right_eq_some.1 hsome.symm
  obtain rfl := Option.some.inj hvalue
  exact ⟨hne, hdigits, hrow⟩

/-- What is read as an address has the form of a spelling, with white space around it. -/
theorem Address.exists_formed_of_parse {text : String} {a : Address}
    (h : Address.parse text = .ok a) :
    ∃ s : SharedFormula.Spelling, s.Formed ∧ Unicode.trim text.toList = s.write := by
  simp only [Address.parse] at h
  generalize Unicode.trim text.toList = cs at h ⊢
  have hcs := Address.dollar_takeDollar cs
  generalize Address.takeDollar cs = head at h hcs
  obtain ⟨hafter, -, -⟩ :=
    span_eq_iff.1 (List.span_eq_takeWhile_dropWhile Char.isAlpha head.2)
  rw [List.span_eq_takeWhile_dropWhile] at h
  generalize head.2.takeWhile Char.isAlpha = letters at h hafter
  generalize head.2.dropWhile Char.isAlpha = afterLetters at h hafter
  have hdigits := Address.dollar_takeDollar afterLetters
  generalize Address.takeDollar afterLetters = tail at h hdigits
  by_cases hempty : cs.isEmpty = true
  · rw [if_pos hempty] at h
    cases h
  by_cases hletters : letters.isEmpty = true
  · rw [if_neg hempty, if_pos hletters] at h
    cases h
  rw [if_neg hempty, if_neg hletters] at h
  obtain ⟨col, hcol, h⟩ := bind_eq_ok.1 h
  obtain ⟨row, hrow, h⟩ := bind_eq_ok.1 h
  obtain ⟨hne, -, halpha, -⟩ := columnNumber_eq_ok hcol
  obtain ⟨hne', hdigit, -⟩ := rowNumber_eq_ok hrow
  refine ⟨⟨head.1, letters, tail.1, tail.2⟩, ⟨hne, halpha, hne', hdigit⟩, ?_⟩
  rw [SharedFormula.Spelling.write, List.append_assoc, hdigits, List.append_assoc, ← hafter, hcs]

/-- Just the spellings of addresses of the sheet are read, with white space around them. -/
theorem Address.parse_eq_ok_iff {text : String} {a : Address} :
    Address.parse text = .ok a ↔
      ∃ s : SharedFormula.Spelling, s.Formed ∧ Unicode.trim text.toList = s.write ∧
        s.address? = some a := by
  constructor
  · intro h
    obtain ⟨s, hs, htrim⟩ := Address.exists_formed_of_parse h
    exact ⟨s, hs, htrim, (hs.parse htrim).symm.trans (toOption_eq_some.2 h)⟩
  · rintro ⟨s, hs, htrim, ha⟩
    exact toOption_eq_some.1 ((hs.parse htrim).trans ha)

/-- Without white space, what is read as an address is a spelling itself. -/
theorem Address.exists_write_of_parse {cs : List Char} {a : Address}
    (hident : ∀ c ∈ cs, Lexer.continuesIdent c = true)
    (h : Address.parse (String.ofList cs) = .ok a) :
    a.InSheet ∧ ∃ s : SharedFormula.Spelling, s.Formed ∧ cs = s.write := by
  obtain ⟨s, hs, htrim, ha⟩ := Address.parse_eq_ok_iff.1 h
  rw [String.toList_ofList, Lexer.trim_word hident] at htrim
  exact ⟨hs.inSheet ha, s, hs, htrim⟩

/-- What is read as an address without small letters is a spelling in capital letters. -/
theorem Address.exists_spelling_of_parse {cs : List Char} {a : Address}
    (hident : ∀ c ∈ cs, Lexer.continuesIdent c = true) (hlower : ∀ c ∈ cs, c.isLower = false)
    (h : Address.parse (String.ofList cs) = .ok a) :
    ∃ s : SharedFormula.Spelling, s.Valid ∧ cs = s.write := by
  obtain ⟨-, s, hs, rfl⟩ := Address.exists_write_of_parse hident h
  refine ⟨s, ⟨hs.letters_ne_nil, fun c hc => ?_, hs.digits_ne_nil, hs.isDigit⟩, rfl⟩
  have hsmall := hlower c (by simp [SharedFormula.Spelling.write, hc])
  have hc := hs.isAlpha c hc
  rwa [Char.isAlpha, hsmall, Bool.or_false] at hc

namespace Address

/-- The spelling that an address is written in. -/
def spelling (a : Address) : SharedFormula.Spelling :=
  ⟨a.colAbs, columnLetters a.col, a.rowAbs, Nat.toDigits 10 a.row⟩

theorem write_spelling (a : Address) : a.spelling.write = a.write := rfl

theorem spelling_valid {a : Address} (h : a.InSheet) : a.spelling.Valid where
  letters_ne_nil := columnLetters_ne_nil h.2.2.1
  isUpper _ hc := isUpper_of_mem_columnLetters hc
  digits_ne_nil := Nat.toDigits_ne_nil
  isDigit _ hc := Nat.isDigit_of_mem_toDigits (by decide) (by decide) hc

theorem address?_spelling {a : Address} (h : a.InSheet) : a.spelling.address? = some a := by
  obtain ⟨hrow, hmaxRow, hcol, hmaxCol⟩ := h
  rw [SharedFormula.Spelling.address?]
  simp only [spelling, lettersValue_columnLetters, digitsValue_toDigits]
  exact if_pos ⟨length_columnLetters_le_three hmaxCol, hmaxCol, hrow, hmaxRow⟩

/-- An address of the sheet reads back from its text. -/
theorem parse_toText {a : Address} (h : a.InSheet) : Address.parse a.toText = .ok a := by
  have hparse := (spelling_valid h).parse
  rw [address?_spelling h] at hparse
  exact toOption_eq_some.1 hparse

end Address

end Spreadsheet
