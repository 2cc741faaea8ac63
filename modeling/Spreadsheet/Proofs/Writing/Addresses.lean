import Spreadsheet.Proofs.Sharing.Composition
import Spreadsheet.Proofs.Writing.Listed

/-!
Addresses and ranges as texts, both ways: what is written reads back, and what is read is written
in capital letters and without zeros before the row.
-/

namespace Spreadsheet

/-! ### Columns -/

theorem columnLetters_injective : Function.Injective columnLetters :=
  Function.LeftInverse.injective lettersValue_columnLetters

theorem lettersValue_map_toUpper (cs : List Char) :
    lettersValue (cs.map Char.toUpper) = lettersValue cs := by
  rw [lettersValue, List.foldl_map]
  simp only [letterValue, Char.toUpper_toUpper_eq_toUpper]
  rfl

/-- The letters of a column are read in either case and written as capitals. -/
theorem columnLetters_lettersValue_of_isAlpha {cs : List Char} (h : ∀ c ∈ cs, c.isAlpha = true) :
    columnLetters (lettersValue cs) = cs.map Char.toUpper := by
  rw [← lettersValue_map_toUpper]
  apply SharedFormula.columnLetters_lettersValue
  intro c hc
  obtain ⟨d, hd, rfl⟩ := List.mem_map.1 hc
  rw [Char.isUpper_toUpper_eq_isAlpha]
  exact h d hd

theorem columnNumber_eq_ok_iff {cs : List Char} :
    columnNumber (String.ofList cs) = .ok col ↔
      (1 ≤ cs.length ∧ cs.length ≤ 3) ∧ (∀ c ∈ cs, c.isAlpha = true) ∧ col ≤ maxCol ∧
        lettersValue cs = col := by
  constructor
  · intro h
    obtain ⟨hne, hlen, halpha, -, hmax⟩ := columnNumber_eq_ok h
    have hsome := columnNumber_ofList hne halpha
    rw [h] at hsome
    obtain ⟨-, hcol⟩ := Option.ite_none_right_eq_some.1 hsome.symm
    exact ⟨⟨List.length_pos_iff.2 hne, hlen⟩, halpha, hmax, Option.some.inj hcol⟩
  · rintro ⟨⟨hpos, hlen⟩, halpha, hmax, rfl⟩
    have hsome := columnNumber_ofList (List.length_pos_iff.1 hpos) halpha
    rw [if_pos ⟨hlen, hmax⟩] at hsome
    exact toOption_eq_some.1 hsome

/-! ### Rows -/

theorem digitsValue_dropWhile_zero (cs : List Char) :
    Number.digitsValue (cs.dropWhile (· == '0')) = Number.digitsValue cs := by
  induction cs with
  | nil => rfl
  | cons c cs ih =>
    by_cases hc : c = '0'
    · subst hc
      rw [List.dropWhile_cons_of_pos rfl, ih]
      rfl
    · rw [List.dropWhile_cons_of_neg (by simpa using hc)]

/-- The digits of a row are written without the zeros before it. -/
theorem toDigits_digitsValue_eq_dropWhile {cs : List Char} (h : ∀ c ∈ cs, c.isDigit = true)
    (hpos : 1 ≤ Number.digitsValue cs) :
    Nat.toDigits 10 (Number.digitsValue cs) = cs.dropWhile (· == '0') := by
  rw [← digitsValue_dropWhile_zero] at hpos ⊢
  refine (SharedFormula.toDigits_digitsValue ?_ ?_ ?_).2
  · intro hnil
    rw [hnil] at hpos
    cases hpos
  · exact fun c hc => h c ((List.dropWhile_suffix _).mem hc)
  · intro hzero
    have hhead := List.head?_dropWhile_not (· == '0') cs
    rw [Option.mem_def.1 hzero] at hhead
    cases hhead

/-! ### Addresses -/

namespace SharedFormula.Spelling

/-- The spelling in capital letters and without zeros before the row. -/
def canonical (s : Spelling) : Spelling :=
  { s with letters := s.letters.map Char.toUpper, digits := s.digits.dropWhile (· == '0') }

/-- One to three letters stand for the column of the address, and digits for its row. -/
structure Denotes (s : Spelling) (a : Address) : Prop extends s.Formed where
  length_le : s.letters.length ≤ 3
  inSheet : a.InSheet
  eq : a = ⟨Number.digitsValue s.digits, lettersValue s.letters, s.rowAbs, s.colAbs⟩

variable {s : Spelling}

theorem denotes_iff : s.Denotes a ↔ s.Formed ∧ s.address? = some a := by
  constructor
  · intro h
    obtain ⟨hrow, hmaxRow, -, hmaxCol⟩ := h.inSheet
    obtain rfl := h.eq
    exact ⟨h.toFormed, if_pos ⟨h.length_le, hmaxCol, hrow, hmaxRow⟩⟩
  · rintro ⟨hs, ha⟩
    exact ⟨hs, (Option.ite_none_right_eq_some.1 ha).1.1, hs.inSheet ha, (address?_eq_some ha).2⟩

theorem Denotes.write_canonical (h : s.Denotes a) : a.write = s.canonical.write := by
  have hrow := h.inSheet.1
  obtain rfl := h.eq
  rw [Address.write, write, columnLetters_lettersValue_of_isAlpha h.isAlpha,
    toDigits_digitsValue_eq_dropWhile h.isDigit hrow]
  rfl

end SharedFormula.Spelling

theorem Address.parse_eq_ok_iff_denotes {text : String} {a : Address} :
    Address.parse text = .ok a ↔
      ∃ s : SharedFormula.Spelling, Unicode.trim text.toList = s.write ∧ s.Denotes a := by
  rw [Address.parse_eq_ok_iff]
  simp only [SharedFormula.Spelling.denotes_iff, and_left_comm]

theorem Address.not_isWhiteSpace_of_mem_write {a : Address} (h : a.InSheet) :
    ∀ c ∈ a.write, Unicode.isWhiteSpace c = false :=
  fun c hc => Lexer.not_isWhiteSpace_of_continuesIdent
    ((Address.spelling_valid h).continuesIdent c hc)

theorem Address.ne_colon_of_mem_write {a : Address} (h : a.InSheet) :
    ∀ c ∈ a.write, (c != ':') = true :=
  (Address.spelling_valid h).forall_mem_write rfl
    (fun c hc => bne_iff_ne.2 (by rintro rfl; cases hc))
    fun c hc => bne_iff_ne.2 (by rintro rfl; cases hc)

/-! ### Ranges -/

namespace Range

variable {r : Range}

theorem ofCorners_corners (r : Range) : ofCorners r.topLeft r.bottomRight = r := by
  simp [ofCorners, r.row_le, r.col_le]

theorem parse_write {a : Address} (h : a.InSheet) :
    Range.parse (String.ofList a.write) = .ok (single a) := by
  have hspan : a.write.span (· != ':') = (a.write, []) :=
    span_eq_iff.2 ⟨(List.append_nil _).symm, Address.ne_colon_of_mem_write h, nofun⟩
  rw [parse, String.toList_ofList, Unicode.trim_eq_self (Address.not_isWhiteSpace_of_mem_write h),
    hspan]
  exact congrArg (single <$> ·) (Address.parse_toText h)

theorem parse_corners {a b : Address} (ha : a.InSheet) (hb : b.InSheet) :
    Range.parse (String.ofList (a.write ++ ':' :: b.write)) = .ok (ofCorners a b) := by
  have hspan : (a.write ++ ':' :: b.write).span (· != ':') = (a.write, ':' :: b.write) := by
    refine span_eq_iff.2 ⟨rfl, Address.ne_colon_of_mem_write ha, fun c hc => ?_⟩
    obtain rfl := Option.some.inj hc
    rfl
  have hspace : ∀ c ∈ a.write ++ ':' :: b.write, Unicode.isWhiteSpace c = false :=
    List.forall_mem_append.2 ⟨Address.not_isWhiteSpace_of_mem_write ha,
      List.forall_mem_cons.2 ⟨by decide, Address.not_isWhiteSpace_of_mem_write hb⟩⟩
  rw [parse, String.toList_ofList, Unicode.trim_eq_self hspace, hspan]
  apply bind_eq_ok.2
  refine ⟨a, Address.parse_toText ha, ?_⟩
  exact bind_eq_ok.2 ⟨b, Address.parse_toText hb, rfl⟩

/-- A range of the sheet reads back from its text. -/
theorem parse_toText (h : r.InSheet) : Range.parse r.toText = .ok r := by
  rw [toText, write]
  split
  · next heq =>
    rw [parse_write h.1]
    obtain ⟨a, b, hrow, hcol⟩ := r
    obtain rfl : a = b := heq
    rfl
  · rw [parse_corners h.1 h.2, ofCorners_corners]

end Range

/-- Addresses and ranges of the sheet read back from their texts. What is read as an address is
written as its spelling in capitals without zeros before the row, and columns go through their
letters both ways. -/
theorem Address.texts_inverse :
    (∀ a : Address, a.InSheet → Address.parse a.toText = .ok a) ∧
    (∀ r : Range, r.InSheet → Range.parse r.toText = .ok r) ∧
    (∀ text a, Address.parse text = .ok a ↔
      ∃ s : SharedFormula.Spelling, Unicode.trim text.toList = s.write ∧ s.Denotes a) ∧
    (∀ (s : SharedFormula.Spelling) a, s.Denotes a →
      a.toText = String.ofList s.canonical.write) ∧
    Function.Injective columnLetters ∧
    (∀ col, 1 ≤ col → col ≤ maxCol →
      columnNumber (String.ofList (columnLetters col)) = .ok col) ∧
    ∀ text col, columnNumber text = .ok col →
      1 ≤ col ∧ col ≤ maxCol ∧ columnLetters col = text.toList.map Char.toUpper := by
  refine ⟨fun _ => Address.parse_toText, fun _ => Range.parse_toText,
    fun _ _ => Address.parse_eq_ok_iff_denotes,
    fun s a h => congrArg String.ofList h.write_canonical, columnLetters_injective,
    fun col hcol hmax => ?_, fun text col h => ?_⟩
  · have hlen := length_columnLetters_le_three hmax
    exact columnNumber_eq_ok_iff.2 ⟨⟨List.length_pos_iff.2 (columnLetters_ne_nil hcol), hlen⟩,
      fun c hc => isAlpha_of_isUpper (isUpper_of_mem_columnLetters hc), hmax,
      lettersValue_columnLetters col⟩
  · rw [← String.ofList_toList (s := text)] at h
    obtain ⟨⟨hpos, -⟩, halpha, hmax, rfl⟩ := columnNumber_eq_ok_iff.1 h
    exact ⟨one_le_lettersValue (List.length_pos_iff.1 hpos), hmax,
      columnLetters_lettersValue_of_isAlpha halpha⟩

/-- The last column in small letters, and a range with a `$` at either corner. -/
theorem Address.texts_inverse_dollar :
    Address.parse " $xfd007" = .ok ⟨7, 16384, false, true⟩ ∧
      Address.toText ⟨7, 16384, false, true⟩ = "$XFD7" ∧
      Range.parse (Range.ofCorners ⟨1, 1, true, false⟩ ⟨2, 3, false, true⟩).toText =
        .ok (Range.ofCorners ⟨1, 1, true, false⟩ ⟨2, 3, false, true⟩) := by
  have hs : SharedFormula.Spelling.Denotes ⟨true, ['x', 'f', 'd'], false, ['0', '0', '7']⟩
      ⟨7, 16384, false, true⟩ :=
    SharedFormula.Spelling.denotes_iff.2
      ⟨⟨nofun, forall_mem_of_all rfl, nofun, forall_mem_of_all rfl⟩, rfl⟩
  obtain ⟨-, hrange, hread, hwritten, -⟩ := Address.texts_inverse
  refine ⟨(hread _ _).2 ⟨_, by decide, hs⟩, hwritten _ _ hs, hrange _ ?_⟩
  exact Range.inSheet_ofCorners ⟨by decide, by decide, by decide, by decide⟩
    ⟨by decide, by decide, by decide, by decide⟩

end Spreadsheet
