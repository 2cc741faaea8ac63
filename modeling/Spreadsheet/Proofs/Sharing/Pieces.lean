import Spreadsheet.Proofs.Sharing.Lexing

/-!
The pieces of a text that is shared: addresses that move, texts in quotes, and what lies between
them. The text moves piece by piece, and the pieces of the moved text are the pieces moved.
-/

namespace Spreadsheet.SharedFormula

inductive Piece
  /-- A character, or a spelling that moves nowhere. -/
  | plain (cs : List Char)
  /-- A text with its opening quote and, unless nothing closes it, its closing one. -/
  | quoted (quote : Char) (inside : List Char)
  /-- A spelling of an address of the sheet that is no part of a name. -/
  | address (s : Spelling) (a : Address)

namespace Piece

def text : Piece → List Char
  | plain cs => cs
  | quoted quote inside => quote :: inside
  | address s _ => s.write

/-- What takes the place of the piece. -/
def movedText (rows cols : Int) : Piece → List Char
  | address _ a => SharedFormula.movedText rows cols a
  | p => p.text

/-- The piece that stands there if it does not leave the sheet. -/
def moved (rows cols : Int) : Piece → Piece
  | address _ a => address (a.moved rows cols).spelling (a.moved rows cols)
  | p => p

def StaysInSheet (rows cols : Int) : Piece → Prop
  | address _ a => (a.move? rows cols).isSome = true
  | _ => True

end Piece

/-- The piece that a spelling is between two characters. -/
def Spelling.piece (before after : Option Char) (s : Spelling) : Piece :=
  match s.address? with
  | some a => if isPartOfName before after then .plain s.write else .address s a
  | none => .plain s.write

/-- The pieces of a text after the character `before`. -/
def pieces (before : Option Char) (cs : List Char) : List Piece :=
  match _h : Spelling.take? cs with
  | some (s, rest) => s.piece before rest.head? :: pieces s.digits.getLast? rest
  | none =>
    match cs with
    | [] => []
    | c :: rest =>
      if isQuote c then .quoted c (takeQuoted c rest).1 :: pieces none (takeQuoted c rest).2
      else .plain [c] :: pieces (some c) rest
termination_by cs.length
decreasing_by
  · exact Spelling.length_lt_of_take? _h
  · have hquoted := congrArg List.length (takeQuoted_append c rest)
    rw [List.length_append] at hquoted
    simp only [List.length_cons]
    omega
  · simp

variable {rows cols : Int} {before before' : Option Char} {c : Char} {cs rest : List Char}
  {s : Spelling} {a : Address}

theorem Spelling.text_piece (before after : Option Char) (s : Spelling) :
    (s.piece before after).text = s.write := by
  unfold piece
  split
  · split <;> rfl
  · rfl

theorem Spelling.movedText_piece (before after : Option Char) (s : Spelling) :
    (s.piece before after).movedText rows cols = s.moved rows cols before after := by
  unfold piece moved
  cases s.address? with
  | none => rfl
  | some a =>
    dsimp only
    split <;> rfl

theorem take?_quote (hc : isQuote c = true) (cs : List Char) : Spelling.take? (c :: cs) = none := by
  cases htake : Spelling.take? (c :: cs) with
  | none => rfl
  | some p =>
    have hstart := Lexer.startsIdent_of_head (head_of_take? htake)
    rcases eq_of_isQuote hc with rfl | rfl
    · cases hstart
    · cases hstart

theorem pieces_nil : pieces before [] = [] := by
  rw [pieces]
  rfl

theorem pieces_of_some (h : Spelling.take? cs = some (s, rest)) :
    pieces before cs = s.piece before rest.head? :: pieces s.digits.getLast? rest := by
  rw [pieces]
  split
  · next s' rest' h' =>
    rw [h] at h'
    cases h'
    rfl
  · next h' =>
    rw [h] at h'
    cases h'

theorem pieces_quote (hc : isQuote c = true) :
    pieces before (c :: cs) =
      .quoted c (takeQuoted c cs).1 :: pieces none (takeQuoted c cs).2 := by
  rw [pieces]
  split
  · next h =>
    rw [take?_quote hc] at h
    cases h
  · exact if_pos hc

theorem pieces_of_none (hc : isQuote c = false) (h : Spelling.take? (c :: cs) = none) :
    pieces before (c :: cs) = .plain [c] :: pieces (some c) cs := by
  rw [pieces]
  split
  · next h' =>
    rw [h] at h'
    cases h'
  · exact if_neg (by simp [hc])

/-- The pieces of a text are the text. -/
theorem flatMap_text (before : Option Char) (cs : List Char) :
    (pieces before cs).flatMap Piece.text = cs := by
  fun_induction pieces before cs with
  | case1 before cs s rest h ih =>
    rw [List.flatMap_cons, ih, Spelling.text_piece, Spelling.write_append_of_take? h]
  | case2 => rfl
  | case3 before c rest hnone hc ih =>
    rw [List.flatMap_cons, ih, Piece.text, List.cons_append, takeQuoted_append]
  | case4 before c rest hnone hc ih =>
    rw [List.flatMap_cons, ih]
    rfl

/-- A text moves piece by piece. -/
theorem moveFrom_eq (rows cols : Int) (before : Option Char) (cs : List Char) :
    moveFrom rows cols before cs = (pieces before cs).flatMap (Piece.movedText rows cols) := by
  fun_induction pieces before cs with
  | case1 before cs s rest h ih =>
    rw [moveFrom_of_some h, List.flatMap_cons, ih, Spelling.movedText_piece]
  | case2 => exact moveFrom_nil
  | case3 before c rest hnone hc ih =>
    rw [moveFrom_quote hc, List.flatMap_cons, ih]
    rfl
  | case4 before c rest hnone hc ih =>
    rw [moveFrom_of_none (by simpa using hc) hnone, List.flatMap_cons, ih]
    rfl

/-! ### Spellings of pieces -/

namespace Spelling

theorem piece_eq_plain (h : s.address? = none ∨ isPartOfName before after = true) :
    s.piece before after = .plain s.write := by
  unfold piece
  rcases h with h | h
  · rw [h]
  · cases s.address? with
    | none => rfl
    | some a => exact if_pos h

theorem piece_eq_address (ha : s.address? = some a) (h : isPartOfName before after = false) :
    s.piece before after = .address s a := by
  rw [piece, ha]
  exact if_neg (by simp [h])

/-- A spelling is a piece that moves just if it spells an address and is part of no name. -/
theorem piece_cases (before after : Option Char) (s : Spelling) :
    s.piece before after = .plain s.write ∨
      ∃ a, s.piece before after = .address s a ∧ s.address? = some a ∧
        isPartOfName before after = false := by
  cases ha : s.address? with
  | none => exact .inl (piece_eq_plain (.inl ha))
  | some a =>
    cases h : isPartOfName before after with
    | true => exact .inl (piece_eq_plain (.inr h))
    | false => exact .inr ⟨a, piece_eq_address ha h, rfl, rfl⟩

end Spelling

/-- Pieces that move are spelled as addresses of the sheet. -/
theorem valid_of_mem_pieces (h : .address s a ∈ pieces before cs) :
    s.Valid ∧ s.address? = some a := by
  fun_induction pieces before cs with
  | case1 before cs s' rest htake ih =>
    rcases List.mem_cons.1 h with h | h
    · rcases s'.piece_cases before rest.head? with hplain | ⟨b, hb, ha, -⟩
      · rw [hplain] at h
        cases h
      · rw [hb] at h
        cases h
        exact ⟨(Spelling.take?_eq_some_iff.1 htake).1, ha⟩
    · exact ih h
  | case2 => cases h
  | case3 before c rest hnone hc ih => exact ih ((List.mem_cons.1 h).resolve_left nofun)
  | case4 before c rest hnone hc ih => exact ih ((List.mem_cons.1 h).resolve_left nofun)

/-- In the place of a spelling comes one that is as absolute, and it makes the moved piece. -/
theorem Spelling.Valid.exists_moved (hs : s.Valid)
    (h : (s.piece before after).StaysInSheet rows cols) :
    ∃ s' : Spelling, s'.Valid ∧ s'.colAbs = s.colAbs ∧
      s'.write = (s.piece before after).movedText rows cols ∧
      ∀ before' after', isPartOfName before' after' = isPartOfName before after →
        s'.piece before' after' = (s.piece before after).moved rows cols := by
  rcases s.piece_cases before after with hplain | ⟨a, hpiece, ha, hpart⟩
  · refine ⟨s, hs, rfl, by rw [hplain]; rfl, fun before' after' hpart => ?_⟩
    have hsame : s.piece before' after' = s.piece before after := by
      rw [piece, piece, hpart]
    rw [hsame, hplain]
    rfl
  · rw [hpiece] at h ⊢
    obtain ⟨b, hb⟩ := Option.isSome_iff_exists.1 h
    obtain ⟨rfl, hin⟩ := Address.move?_eq_some hb
    refine ⟨(a.moved rows cols).spelling, Address.spelling_valid hin, ?_, ?_, ?_⟩
    · obtain ⟨-, rfl⟩ := address?_eq_some ha
      exact Axis.absolute_moved cols ⟨_, s.colAbs⟩
    · rw [Piece.movedText, movedText, hb]
      exact Address.write_spelling _
    · intro before' after' hpart'
      exact piece_eq_address (Address.address?_spelling hin) (hpart'.trans hpart)

/-! ### Heads of pieces -/

theorem not_isDigit_of_isUpper (h : c.isUpper = true) : c.isDigit = false := by
  cases hdigit : c.isDigit with
  | false => rfl
  | true =>
    have halpha := isAlpha_of_isUpper h
    rw [not_isAlpha_of_isDigit hdigit] at halpha
    cases halpha

/-- Whether an address whose last letter stands before the text goes on in it. -/
def endsAddress : List Char → Bool
  | [] => false
  | c :: cs =>
    if c.isUpper then endsAddress cs else if c = '$' then Lexer.isDigitNext cs else c.isDigit

theorem endsAddress_eq (cs : List Char) :
    endsAddress cs = Lexer.isDigitNext (Address.takeDollar (cs.dropWhile Char.isUpper)).2 := by
  induction cs with
  | nil => rfl
  | cons c cs ih =>
    cases hc : c.isUpper with
    | true => rw [endsAddress, if_pos hc, List.dropWhile_cons_of_pos hc, ih]
    | false =>
      rw [endsAddress, if_neg (by simp [hc]), List.dropWhile_cons_of_neg (by simp [hc])]
      by_cases hdollar : c = '$'
      · rw [if_pos hdollar, hdollar]
        rfl
      · rw [if_neg hdollar]
        have h : Address.takeDollar (c :: cs) = (false, c :: cs) :=
          Address.takeDollar_dollar (b := false) fun h => hdollar (Option.some.inj h)
        rw [h]
        rfl

theorem isSome_take? (cs : List Char) :
    (Spelling.take? cs).isSome =
      ((Address.takeDollar cs).2.head?.any Char.isUpper &&
        endsAddress (Address.takeDollar cs).2) := by
  have hempty (p : Char → Bool) (l : List Char) : (l.takeWhile p).isEmpty = !l.head?.any p := by
    cases l with
    | nil => rfl
    | cons c l => cases hc : p c <;> simp [hc]
  simp only [Spelling.take?, endsAddress_eq, Lexer.isDigitNext, hempty]
  generalize (Address.takeDollar cs).2.head?.any Char.isUpper = b
  generalize (Address.takeDollar ((Address.takeDollar cs).2.dropWhile Char.isUpper)).2.head?.any
    Char.isDigit = d
  cases b <;> cases d <;> rfl

theorem isSome_take?_cons (c : Char) (cs : List Char) :
    (Spelling.take? (c :: cs)).isSome =
      ((c.isUpper || c == '$' && cs.head?.any Char.isUpper) && endsAddress cs) := by
  rw [isSome_take?]
  by_cases hdollar : c = '$'
  · rw [hdollar]
    rfl
  · have h : Address.takeDollar (c :: cs) = (false, c :: cs) :=
      Address.takeDollar_dollar (b := false) fun h => hdollar (Option.some.inj h)
    rw [h, beq_false_of_ne hdollar]
    cases hc : c.isUpper <;> simp [endsAddress, hc]

/-- After a spelling without a leading `$` an address ends, before one with it none does. -/
theorem Spelling.Valid.endsAddress_write (hs : s.Valid) (rest : List Char) :
    endsAddress (s.write ++ rest) = !s.colAbs := by
  have hdigits : Lexer.isDigitNext (s.digits ++ rest) = true := by
    obtain ⟨d, ds, hd⟩ := List.exists_cons_of_ne_nil hs.digits_ne_nil
    rw [hd]
    exact hs.isDigit d (hd ▸ List.mem_cons_self)
  have hletters : (s.letters ++ (Address.dollar s.rowAbs ++ (s.digits ++ rest))).dropWhile
      Char.isUpper = Address.dollar s.rowAbs ++ (s.digits ++ rest) :=
    dropWhile_of_span (span_eq_iff.2 ⟨rfl, hs.isUpper, hs.formed.head_afterLetters rest rfl
      fun c hc => (Bool.or_eq_false_iff.1 (not_isAlpha_of_isDigit hc)).1⟩)
  obtain ⟨c, letters, hc⟩ := List.exists_cons_of_ne_nil hs.letters_ne_nil
  have hupper := hs.isUpper c (hc ▸ List.mem_cons_self)
  simp only [write, List.append_assoc]
  cases s.colAbs with
  | true =>
    rw [hc]
    exact not_isDigit_of_isUpper hupper
  | false =>
    change endsAddress (s.letters ++ _) = true
    rw [endsAddress_eq, hletters, hs.formed.takeDollar_row]
    exact hdigits

theorem any_head_write {s' : Spelling} {p : Char → Bool}
    (hp : ∀ c d, c.isUpper = true → d.isUpper = true → p c = p d) (hs : s.Valid) (hs' : s'.Valid)
    (hcol : s'.colAbs = s.colAbs) (rest rest' : List Char) :
    (s'.write ++ rest').head?.any p = (s.write ++ rest).head?.any p := by
  obtain ⟨c, letters, hc⟩ := List.exists_cons_of_ne_nil hs.letters_ne_nil
  obtain ⟨d, letters', hd⟩ := List.exists_cons_of_ne_nil hs'.letters_ne_nil
  simp only [Spelling.write, hcol, hc, hd]
  cases s.colAbs with
  | true => rfl
  | false =>
    exact hp d c (hs'.isUpper d (hd ▸ List.mem_cons_self)) (hs.isUpper c (hc ▸ List.mem_cons_self))

section

variable (h : ∀ p ∈ pieces before cs, p.StaysInSheet rows cols)

include h

/-- Moving a text changes its head only from one capital letter to another. -/
theorem any_head_moveFrom {p : Char → Bool}
    (hp : ∀ c d, c.isUpper = true → d.isUpper = true → p c = p d) :
    (moveFrom rows cols before cs).head?.any p = cs.head?.any p := by
  cases htake : Spelling.take? cs with
  | none => rw [head?_moveFrom htake]
  | some q =>
    obtain ⟨s, rest⟩ := q
    obtain ⟨hs, rfl, -⟩ := Spelling.take?_eq_some_iff.1 htake
    rw [pieces_of_some htake] at h
    obtain ⟨s', hs', hcol, hwrite, -⟩ := hs.exists_moved (h _ List.mem_cons_self)
    rw [moveFrom_of_some htake, ← Spelling.movedText_piece, ← hwrite]
    exact any_head_write hp hs hs' hcol _ _

theorem endsAddress_moveFrom : endsAddress (moveFrom rows cols before cs) = endsAddress cs := by
  fun_induction pieces before cs with
  | case1 before cs s rest htake ih =>
    obtain ⟨hs, rfl, -⟩ := Spelling.take?_eq_some_iff.1 htake
    obtain ⟨s', hs', hcol, hwrite, -⟩ := hs.exists_moved (h _ List.mem_cons_self)
    rw [moveFrom_of_some htake, ← Spelling.movedText_piece, ← hwrite, hs'.endsAddress_write,
      hs.endsAddress_write, hcol]
  | case2 => rw [moveFrom_nil]
  | case3 before c rest hnone hc ih =>
    have hquote : ∀ c ∈ ['"', '\x27'], c.isUpper = false ∧ c ≠ '$' := forall_mem_of_all (by decide)
    obtain ⟨hupper, hdollar⟩ := hquote c (by rcases eq_of_isQuote hc with rfl | rfl <;> decide)
    rw [moveFrom_quote hc]
    simp only [List.cons_append, endsAddress, hupper, hdollar, if_false, Bool.false_eq_true]
  | case4 before c rest hnone hc ih =>
    have hrest := fun p hp => h p (List.mem_cons_of_mem _ hp)
    have hdigit := any_head_moveFrom hrest (p := Char.isDigit) fun c d hc hd => by
      rw [not_isDigit_of_isUpper hc, not_isDigit_of_isUpper hd]
    rw [moveFrom_of_none (by simpa using hc) hnone, endsAddress, endsAddress, ih hrest,
      Lexer.isDigitNext, Lexer.isDigitNext, hdigit]

/-- Moving a text lets no address begin at a character before it. -/
theorem take?_moveFrom (hnone : Spelling.take? (c :: cs) = none) :
    Spelling.take? (c :: moveFrom rows cols before cs) = none := by
  have hupper := any_head_moveFrom h (p := Char.isUpper) fun c d hc hd => hc.trans hd.symm
  rw [← Option.not_isSome_iff_eq_none, isSome_take?_cons] at hnone ⊢
  rwa [endsAddress_moveFrom h, hupper]

theorem isPartOfName_moveFrom (before' : Option Char) :
    isPartOfName before' (moveFrom rows cols before cs).head? = isPartOfName before' cs.head? := by
  rw [isPartOfName, isPartOfName, any_head_moveFrom h]
  intro c d hc hd
  have hname {c : Char} (hc : c.isUpper = true) : continuesName c = true := by
    simp [continuesName, Unicode.isAlphanumeric, Unicode.isAlphabetic, isAlpha_of_isUpper hc]
  rw [hname hc, hname hd]
  rfl

end

theorem not_mem_head_takeQuoted (quote : Char) (cs : List Char) :
    quote ∉ (takeQuoted quote cs).2.head? := by
  fun_induction takeQuoted quote cs with
  | case1 | case2 => simp
  | case3 rest inside after h ih | case5 c d rest hc inside after h ih => rwa [h] at ih
  | case4 d rest hd => exact fun h => hd (Option.some.inj h)

/-- A quoted text ends where it did before a text that its quote does not go on in. -/
theorem takeQuoted_append_of_end {quote : Char} {rest' : List Char}
    (hnil : (takeQuoted quote cs).2 = [] → rest' = []) (hrest : quote ∉ rest'.head?) :
    takeQuoted quote ((takeQuoted quote cs).1 ++ rest') = ((takeQuoted quote cs).1, rest') := by
  fun_induction takeQuoted quote cs with
  | case1 =>
    rw [hnil rfl]
    rfl
  | case2 c =>
    rw [hnil rfl]
    rfl
  | case3 rest inside after h ih =>
    rw [h] at ih
    simp [takeQuoted, ih hnil]
  | case4 d rest hd =>
    cases rest' with
    | nil => rfl
    | cons e rest' =>
      have he : ¬ e = quote := fun h => hrest (congrArg some h)
      simp [takeQuoted, he]
  | case5 c d rest hc inside after h ih =>
    rw [h] at ih
    have ih := ih hnil
    rw [List.cons_append]
    cases happend : inside ++ rest' with
    | nil =>
      obtain ⟨rfl, rfl⟩ := List.append_eq_nil_iff.1 happend
      rfl
    | cons e tail =>
      rw [happend] at ih
      simp [takeQuoted, hc, ih]

theorem Spelling.Valid.any_getLast?_digits (hs : s.Valid) :
    s.digits.getLast?.any continuesName = true := by
  rw [List.getLast?_eq_some_getLast hs.digits_ne_nil]
  exact continuesName_of_isDigit (hs.isDigit _ (List.getLast_mem _))

/-- The pieces of a text that has moved are its pieces moved. -/
theorem pieces_moveFrom (h : ∀ p ∈ pieces before cs, p.StaysInSheet rows cols)
    (hb : before'.any continuesName = before.any continuesName) :
    pieces before' (moveFrom rows cols before cs) =
      (pieces before cs).map (Piece.moved rows cols) := by
  fun_induction pieces before cs generalizing before' with
  | case1 before cs s rest htake ih =>
    obtain ⟨hs, rfl, hdigit⟩ := Spelling.take?_eq_some_iff.1 htake
    have hrest := fun p hp => h p (List.mem_cons_of_mem _ hp)
    obtain ⟨s', hs', -, hwrite, hpiece⟩ := hs.exists_moved (h _ List.mem_cons_self)
    have htake' : Spelling.take? (s'.write ++ moveFrom rows cols s.digits.getLast? rest) =
        some (s', moveFrom rows cols s.digits.getLast? rest) := by
      have hhead := any_head_moveFrom hrest (p := Char.isDigit) fun c d hc hd => by
        rw [not_isDigit_of_isUpper hc, not_isDigit_of_isUpper hd]
      rw [(Option.any_eq_false _ _).2 hdigit] at hhead
      exact Spelling.take?_eq_some_iff.2 ⟨hs', rfl, (Option.any_eq_false _ _).1 hhead⟩
    have hpart : isPartOfName before' (moveFrom rows cols s.digits.getLast? rest).head? =
        isPartOfName before rest.head? := by
      rw [isPartOfName_moveFrom hrest, isPartOfName, isPartOfName, hb]
    have hlast : s'.digits.getLast?.any continuesName = s.digits.getLast?.any continuesName := by
      rw [hs'.any_getLast?_digits, hs.any_getLast?_digits]
    rw [moveFrom_of_some htake, ← Spelling.movedText_piece, ← hwrite, pieces_of_some htake',
      hpiece _ _ hpart, ih hrest hlast]
    rfl
  | case2 => rw [moveFrom_nil, pieces_nil, List.map_nil]
  | case3 before c rest hnone hc ih =>
    have hrest := fun p hp => h p (List.mem_cons_of_mem _ hp)
    rw [moveFrom_quote hc, List.cons_append, pieces_quote hc, takeQuoted_append_of_end,
      ih hrest rfl]
    · rfl
    · intro hnil
      rw [hnil, moveFrom_nil]
    · refine (alike_moveFrom none _).not_mem (not_mem_head_takeQuoted c rest) ?_
      rcases eq_of_isQuote hc with rfl | rfl <;> decide
  | case4 before c rest hnone hc ih =>
    have hrest := fun p hp => h p (List.mem_cons_of_mem _ hp)
    have hc : isQuote c = false := by simpa using hc
    rw [moveFrom_of_none hc hnone, pieces_of_none hc (take?_moveFrom hrest hnone), ih hrest rfl]
    rfl

end Spreadsheet.SharedFormula
