import Spreadsheet.Proofs.Sharing.Pieces

/-!
Offsets act on the texts of shared formulas: moving a text twice is moving it once by both offsets
together.
-/

namespace Spreadsheet

/-- What an axis moves by adds up. -/
theorem Axis.index_moved_add {x : Axis} {n : Int}
    (h : 1 ≤ if x.absolute then (x.index : Int) else x.index + n) (n' : Int) :
    (if x.absolute then ((x.moved n).index : Int) else (x.moved n).index + n') =
      if x.absolute then (x.index : Int) else x.index + (n + n') := by
  obtain ⟨index, absolute⟩ := x
  cases absolute with
  | true => rfl
  | false =>
    change 1 ≤ (index : Int) + n at h
    change ((index + n).toNat : Int) + n' = index + (n + n')
    rw [Int.toNat_of_nonneg (by omega), Int.add_assoc]

theorem Address.move?_moved {a : Address} (h : (a.move? rows cols).isSome = true)
    (rows' cols' : Int) :
    (a.moved rows cols).move? rows' cols' = a.move? (rows + rows') (cols + cols') := by
  obtain ⟨_, hb⟩ := Option.isSome_iff_exists.1 h
  simp only [move?, Option.ite_none_right_eq_some] at hb
  obtain ⟨⟨hrow, -, hcol, -⟩, -⟩ := hb
  have hrow' :
      (if a.rowAbs then ((a.moved rows cols).row : Int) else (a.moved rows cols).row + rows') =
      if a.rowAbs then (a.row : Int) else a.row + (rows + rows') :=
    Axis.index_moved_add (x := a.rowAxis) hrow rows'
  have hcol' :
      (if a.colAbs then ((a.moved rows cols).col : Int) else (a.moved rows cols).col + cols') =
      if a.colAbs then (a.col : Int) else a.col + (cols + cols') :=
    Axis.index_moved_add (x := a.colAxis) hcol cols'
  have hrowAbs : (a.moved rows cols).rowAbs = a.rowAbs := Axis.absolute_moved rows a.rowAxis
  have hcolAbs : (a.moved rows cols).colAbs = a.colAbs := Axis.absolute_moved cols a.colAxis
  simp only [move?, hrowAbs, hcolAbs, hrow', hcol']

namespace SharedFormula

variable {rows cols : Int} {before : Option Char} {c : Char} {cs : List Char} {s : Spelling}
  {a : Address}

/-! ### Rows and columns without leading zeros -/

theorem exists_eq_add_of_isUpper (h : c.isUpper = true) :
    ∃ k < 26, c = Char.ofNat ('A'.toNat + k) := by
  have hA : 'A'.toNat ≤ c.toNat := UInt32.le_iff_toNat_le.1 (of_decide_eq_true h).1
  have hZ : c.toNat < 'A'.toNat + 26 :=
    Nat.lt_succ_of_le (UInt32.le_iff_toNat_le.1 (of_decide_eq_true h).2)
  refine ⟨c.toNat - 'A'.toNat, by omega, ?_⟩
  rw [Nat.add_sub_cancel' hA, Char.ofNat_toNat]

theorem columnLetters_lettersValue {cs : List Char} (h : ∀ c ∈ cs, c.isUpper = true) :
    columnLetters (lettersValue cs) = cs := by
  induction cs using List.reverseRecOn with
  | nil =>
    rw [lettersValue, List.foldl_nil, columnLetters, if_pos rfl]
  | append_singleton cs c ih =>
    obtain ⟨hcs, hc⟩ := List.forall_mem_append.1 h
    have hc := hc c List.mem_cons_self
    have hletter : ∀ k < 26, letterValue (Char.ofNat ('A'.toNat + k)) = k + 1 := by decide
    obtain ⟨k, hk, rfl⟩ := exists_eq_add_of_isUpper hc
    rw [lettersValue_append, List.foldl_cons, List.foldl_nil, hletter k hk, ← Nat.add_assoc,
      columnLetters_succ, Nat.mul_add_div (by decide), Nat.div_eq_of_lt hk, Nat.add_zero, ih hcs,
      Nat.mul_add_mod, Nat.mod_eq_of_lt hk]

theorem exists_eq_digitChar (h : c.isDigit = true) :
    ∃ d < 10, c = d.digitChar ∧ c.toNat - '0'.toNat = d := by
  have hdigit : ∀ d < 10, Char.ofNat ('0'.toNat + d) = d.digitChar := by decide
  obtain ⟨hzero, hnine⟩ := Char.isDigit_iff_toNat.1 h
  have hnine : c.toNat < '0'.toNat + 10 := Nat.lt_succ_of_le hnine
  refine ⟨c.toNat - '0'.toNat, by omega, ?_, rfl⟩
  rw [← hdigit _ (by omega), Nat.add_sub_cancel' hzero, Char.ofNat_toNat]

/-- Digits that do not start with a zero are the digits of their value, which is no zero. -/
theorem toDigits_digitsValue {cs : List Char} (hne : cs ≠ []) (h : ∀ c ∈ cs, c.isDigit = true)
    (hzero : '0' ∉ cs.head?) :
    0 < Number.digitsValue cs ∧ Nat.toDigits 10 (Number.digitsValue cs) = cs := by
  induction cs using List.reverseRecOn with
  | nil => exact absurd rfl hne
  | append_singleton cs c ih =>
    obtain ⟨hcs, hc⟩ := List.forall_mem_append.1 h
    obtain ⟨d, hd, rfl, hvalue⟩ := exists_eq_digitChar (hc c List.mem_cons_self)
    have hvalue : Number.digitsValue (cs ++ [d.digitChar]) = 10 * Number.digitsValue cs + d := by
      rw [Number.digitsValue, List.foldl_append, List.foldl_cons, List.foldl_nil, hvalue]
      rfl
    rw [hvalue]
    cases cs with
    | nil =>
      have hpos : d ≠ 0 := by
        rintro rfl
        exact hzero rfl
      have hzero : 10 * Number.digitsValue [] + d = d := Nat.zero_add d
      rw [hzero, Nat.toDigits_of_lt_base hd]
      exact ⟨Nat.pos_of_ne_zero hpos, rfl⟩
    | cons e cs =>
      obtain ⟨hpos, htoDigits⟩ := ih (List.cons_ne_nil e cs) hcs hzero
      refine ⟨by omega, ?_⟩
      rw [← Nat.toDigits_append_toDigits (by decide) hpos hd, htoDigits, Nat.toDigits_of_lt_base hd]

theorem Spelling.Valid.write_eq (hs : s.Valid) (ha : s.address? = some a)
    (hzero : '0' ∉ s.digits.head?) : s.write = a.write := by
  obtain ⟨-, rfl⟩ := address?_eq_some ha
  rw [write, Address.write, columnLetters_lettersValue hs.isUpper,
    (toDigits_digitsValue hs.digits_ne_nil hs.isDigit hzero).2]

/-! ### Moving twice -/

namespace Piece

/-- Where the piece moves, its row is spelled without leading zeros. -/
def NoLeadingZero : Piece → Prop
  | address s _ => '0' ∉ s.digits.head?
  | _ => True

/-- The piece moves nowhere, unless its row is spelled otherwise than it is written. -/
def Fixed : Piece → Prop
  | address s a => a.rowAbs = true ∧ a.colAbs = true ∧ '0' ∉ s.digits.head?
  | _ => True

theorem movedText_moved {p : Piece} (h : p.StaysInSheet rows cols) (rows' cols' : Int) :
    (p.moved rows cols).movedText rows' cols' = p.movedText (rows + rows') (cols + cols') := by
  cases p with
  | plain cs => rfl
  | quoted quote inside => rfl
  | address s a =>
    simp only [moved, movedText, SharedFormula.movedText]
    rw [Address.move?_moved h]

end Piece

theorem movedText_of_unmoved (h : .address s a ∈ pieces before cs)
    (hrow : a.rowAbs = true ∨ rows = 0) (hcol : a.colAbs = true ∨ cols = 0)
    (hzero : '0' ∉ s.digits.head?) : movedText rows cols a = s.write := by
  obtain ⟨hs, ha⟩ := valid_of_mem_pieces h
  rw [movedText, Address.move?_eq_self (hs.formed.inSheet ha) hrow hcol, hs.write_eq ha hzero]

theorem Piece.Fixed.movedText_eq {p : Piece} (hp : p.Fixed) (h : p ∈ pieces before cs)
    (rows cols : Int) : p.movedText rows cols = p.text := by
  cases p with
  | plain cs => rfl
  | quoted quote inside => rfl
  | address s a => exact movedText_of_unmoved h (.inl hp.1) (.inl hp.2.1) hp.2.2

theorem Piece.NoLeadingZero.movedText_zero {p : Piece} (hp : p.NoLeadingZero)
    (h : p ∈ pieces before cs) : p.movedText 0 0 = p.text := by
  cases p with
  | plain cs => rfl
  | quoted quote inside => rfl
  | address s a => exact movedText_of_unmoved h (.inr rfl) (.inr rfl) hp

/-- The pieces of a whole text. -/
def piecesOf (text : String) : List Piece := pieces none text.toList

def StaysInSheet (rows cols : Int) (text : String) : Prop :=
  ∀ p ∈ piecesOf text, p.StaysInSheet rows cols

def NoLeadingZeros (text : String) : Prop := ∀ p ∈ piecesOf text, p.NoLeadingZero

theorem ofList_flatMap_text (text : String) :
    String.ofList ((piecesOf text).flatMap Piece.text) = text := by
  rw [piecesOf, flatMap_text, String.ofList_toList]

/-- A text is shared piece by piece, unless the offset is zero: then it stays as it is, with the
leading zeros that there are. -/
theorem expand_eq {text : String} (h : (rows, cols) ≠ (0, 0) ∨ NoLeadingZeros text) :
    expand text rows cols = String.ofList ((piecesOf text).flatMap (Piece.movedText rows cols)) := by
  unfold expand
  split
  · next hzero =>
    obtain ⟨rfl, rfl⟩ := hzero
    have htext := List.flatMap_congr fun p hp =>
      (h.resolve_left (absurd rfl) p hp).movedText_zero hp
    rw [htext, ofList_flatMap_text]
  · rw [moveOutsideQuotes_eq, moveFrom_eq, piecesOf]

theorem piecesOf_expand {text : String} (h : StaysInSheet rows cols text)
    (hzero : (rows, cols) ≠ (0, 0)) :
    piecesOf (expand text rows cols) = (piecesOf text).map (Piece.moved rows cols) := by
  rw [expand, if_neg (by simpa using hzero), moveOutsideQuotes_eq, piecesOf, String.toList_ofList,
    pieces_moveFrom h rfl, piecesOf]

theorem expand_zero (text : String) : expand text 0 0 = text := if_pos ⟨rfl, rfl⟩

/-- Moving a text twice is moving it once by both offsets together. -/
theorem expand_add {text : String} (h : StaysInSheet rows cols text) (rows' cols' : Int)
    (hzero : (rows + rows', cols + cols') ≠ (0, 0) ∨ NoLeadingZeros text) :
    expand (expand text rows cols) rows' cols' = expand text (rows + rows') (cols + cols') := by
  by_cases hfirst : (rows, cols) = (0, 0)
  · obtain ⟨rfl, rfl⟩ := Prod.mk.inj hfirst
    rw [expand_zero, Int.zero_add, Int.zero_add]
  · by_cases hsecond : (rows', cols') = (0, 0)
    · obtain ⟨rfl, rfl⟩ := Prod.mk.inj hsecond
      rw [expand_zero, Int.add_zero, Int.add_zero]
    · rw [expand_eq (.inl hsecond), expand_eq hzero, piecesOf_expand h hfirst, List.flatMap_map]
      exact congrArg String.ofList
        (List.flatMap_congr fun p hp => p.movedText_moved (h p hp) rows' cols')

/-- Offsets act on texts. What is quoted and what is absolute no offset changes. -/
theorem expand_action (text : String) :
    (∀ rows cols rows' cols' : Int, StaysInSheet rows cols text →
      (rows + rows', cols + cols') ≠ (0, 0) ∨ NoLeadingZeros text →
        expand (expand text rows cols) rows' cols' = expand text (rows + rows') (cols + cols')) ∧
    (∀ rows cols : Int, StaysInSheet rows cols text → NoLeadingZeros text →
      expand (expand text rows cols) (-rows) (-cols) = text) ∧
    String.ofList ((piecesOf text).flatMap Piece.text) = text ∧
    ∀ rows cols : Int, ∃ ws : List (List Char),
      List.Forall₂ (fun p w => p.Fixed → w = p.text) (piecesOf text) ws ∧
        expand text rows cols = String.ofList ws.flatten := by
  refine ⟨fun rows cols rows' cols' h => expand_add h rows' cols', ?_, ofList_flatMap_text text, ?_⟩
  · intro rows cols h hzeros
    rw [expand_add h _ _ (.inr hzeros), Int.add_right_neg, Int.add_right_neg, expand_zero]
  · intro rows cols
    by_cases hzero : (rows, cols) = (0, 0)
    · obtain ⟨rfl, rfl⟩ := Prod.mk.inj hzero
      refine ⟨(piecesOf text).map Piece.text, ?_, ?_⟩
      · exact List.forall₂_map_right_iff.2 (List.forall₂_same.2 fun p _ _ => rfl)
      · rw [expand_zero, ← List.flatMap_def, ofList_flatMap_text]
    · refine ⟨(piecesOf text).map (Piece.movedText rows cols), ?_, ?_⟩
      · exact List.forall₂_map_right_iff.2
          (List.forall₂_same.2 fun p hp hfixed => hfixed.movedText_eq hp rows cols)
      · rw [expand_eq (.inl hzero), ← List.flatMap_def]

theorem expand_action_quoted :
    StaysInSheet 3 2 "=A1&\"A1\"&$B$2" ∧ NoLeadingZeros "=A1&\"A1\"&$B$2" ∧
      expand "=A1&\"A1\"&$B$2" 3 2 = "=C4&\"A1\"&$B$2" ∧
      expand (expand "=A1&\"A1\"&$B$2" 3 2) (-2) (-1) = "=B2&\"A1\"&$B$2" ∧
      expand (expand "=A1&\"A1\"&$B$2" 3 2) (-3) (-2) = "=A1&\"A1\"&$B$2" := by
  have hpieces : piecesOf "=A1&\"A1\"&$B$2" =
      [.plain ['='], .address ⟨false, ['A'], false, ['1']⟩ (.relative 1 1), .plain ['&'],
        .quoted '"' ['A', '1', '"'], .plain ['&'],
        .address ⟨true, ['B'], true, ['2']⟩ ⟨2, 2, true, true⟩] := by
    cbv
  have hin : StaysInSheet 3 2 "=A1&\"A1\"&$B$2" := by
    rw [StaysInSheet, hpieces]
    simp only [List.forall_mem_cons, Piece.StaysInSheet]
    exact ⟨trivial, by decide, trivial, trivial, trivial, by decide, List.forall_mem_nil _⟩
  have hzeros : NoLeadingZeros "=A1&\"A1\"&$B$2" := by
    rw [NoLeadingZeros, hpieces]
    simp only [List.forall_mem_cons, Piece.NoLeadingZero]
    exact ⟨trivial, by decide, trivial, trivial, trivial, by decide, List.forall_mem_nil _⟩
  obtain ⟨hadd, hback, -, -⟩ := expand_action "=A1&\"A1\"&$B$2"
  refine ⟨hin, hzeros, by cbv, ?_, hback 3 2 hin hzeros⟩
  rw [hadd 3 2 (-2) (-1) hin (.inr hzeros)]
  cbv

end SharedFormula

end Spreadsheet
