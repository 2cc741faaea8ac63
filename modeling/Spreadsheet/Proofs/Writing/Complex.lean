import Spreadsheet.Proofs.Writing.Decimals

/-!
Complex numbers that are written and read back. The sign that divides the text is the last one that
does not belong to an exponent; the part behind it is a numeral without a sign, or nothing if the
factor of the unit is one.
-/

namespace Spreadsheet

open Float.Model Number

/-! ### Factors -/

/-- Numbers that compare as equal are the same unless they are zeros. -/
theorem eq_of_beq_finite {x y : Float} {s : UnpackedFloat.Sign} {m : Nat} {e : Int} {hm : 0 < m}
    (hy : y.toModel.unpack = .finite s m e hm) (h : (x == y) = true) : x = y := by
  have hcompare : UnpackedFloat.compare x.toModel.unpack y.toModel.unpack = some .eq :=
    beq_iff_eq.1 h
  have hx : x.toModel.unpack ≠ .notANumber := by
    intro hnan
    rw [hnan] at hcompare
    cases hcompare
  rw [hy, FloatOrder.compare_eq (g := .finite s m e hm) hx nofun, Option.some.injEq] at hcompare
  simp only [FloatOrder.compare, compareLex, compareOn, Ordering.then_eq_eq,
    Std.compare_eq_iff_eq] at hcompare
  obtain ⟨hkind, hexponent, hdigits⟩ := hcompare
  have hsame : x.toModel.unpack = .finite s m e hm := by
    generalize x.toModel.unpack = f at hkind hexponent hdigits
    cases f with
    | notANumber | zero s' => cases s <;> cases hkind
    | infinity s' => cases s <;> cases s' <;> cases hkind
    | finite s' m' e' hm' =>
      cases s <;> cases s' <;> cases hkind <;>
        simp [FloatOrder.exponent, FloatOrder.digits] at hexponent hdigits <;>
        simp [hexponent, hdigits]
  exact (eq_of_unpack (hsame.trans hy.symm)).trans (eq_of_unpack rfl).symm

theorem pos_iff_of_finite {x : Float} {s : UnpackedFloat.Sign} {m : Nat} {e : Int} {hm : 0 < m}
    (hx : x.toModel.unpack = .finite s m e hm) : 0 < x ↔ s = .positive := by
  have hzero : (0 : Float).toModel.unpack = .zero .positive := rfl
  rw [lt_iff_compare, hzero, hx]
  cases s with
  | positive => exact ⟨fun _ => rfl, fun _ => rfl⟩
  | negative => exact ⟨nofun, nofun⟩

/-- The text of a factor of the unit. -/
inductive FactorText : Float → List Char → Prop
  | one : FactorText 1 []
  | minusOne : FactorText (-1) ['-']
  | plain (hw : NumeralText w n) (hpos : 0 < n.toFloat) : FactorText n.toFloat w
  | minus (hw : NumeralText w n) (hneg : ¬ 0 < -n.toFloat) : FactorText (-n.toFloat) ('-' :: w)

theorem factorText {x : Float} (hx : x.isFinite = true) (hne : (x == 0) = false) :
    FactorText x (Complex.coefficient x).toList := by
  rw [Complex.coefficient]
  split
  · next h =>
    rw [eq_of_beq_finite (y := 1) rfl h]
    exact .one
  split
  · next h =>
    rw [eq_of_beq_finite (y := -1) rfl h]
    exact .minusOne
  obtain ⟨s, h⟩ | ⟨s, m, e, hm, h⟩ := unpack_cases hx
  · rw [beq_zero_of_zero h] at hne
    cases hne
  · have hpos := pos_iff_of_finite h
    obtain ⟨w, n, hw, ⟨rfl, hformat, rfl⟩ | ⟨rfl, hformat, rfl⟩⟩ := format_cases hx h
    · rw [hformat]
      exact .plain hw (hpos.2 rfl)
    · rw [hformat]
      exact .minus hw fun hlt => nomatch hpos.1 hlt

/-! ### Ends of texts -/

theorem Number.NumeralText.exists_concat (hw : NumeralText w n) :
    ∃ u c, w = u ++ [c] ∧ (c.isDigit = true ∨ c = '.') := by
  obtain ⟨mantissa, exponent, x, rfl, hne, hm, he⟩ := hw.exists_exponent
  have hlast {u ds : List Char} (hne : ds ≠ []) (hd : ∀ c ∈ ds, c.isDigit = true ∨ c = '.') :
      ∃ v c, u ++ ds = v ++ [c] ∧ (c.isDigit = true ∨ c = '.') := by
    refine ⟨u ++ ds.dropLast, ds.getLast hne, ?_, hd _ (List.getLast_mem hne)⟩
    rw [List.append_assoc, List.dropLast_append_getLast]
  cases he with
  | none =>
    rw [List.append_nil]
    exact hlast (u := []) hne hm
  | @unsigned e ds _ hne hds =>
    rw [List.append_cons]
    exact hlast hne fun c hc => .inl (hds c hc)
  | @plus e ds _ hne hds | @minus e ds _ hne hds =>
    rw [List.append_cons, List.append_cons]
    exact hlast hne fun c hc => .inl (hds c hc)

theorem Number.SignedText.exists_concat (h : SignedText w x) :
    ∃ u c, w = u ++ [c] ∧ (c.isDigit = true ∨ c = '.') := by
  cases h with
  | plain hw => exact hw.exists_concat
  | plus hw | minus hw =>
    obtain ⟨u, c, rfl, hc⟩ := hw.exists_concat
    exact ⟨_ :: u, c, rfl, hc⟩

/-! ### The dividing sign -/

namespace Number.WrittenComplex

theorem splitReversed_of_not_isSign (hc : isSign c = false) (hrest : rest ≠ []) :
    splitReversed (c :: rest) after = splitReversed rest (c :: after) := by
  obtain ⟨d, rest, rfl⟩ := List.exists_cons_of_ne_nil hrest
  rw [splitReversed, hc]
  rfl

theorem splitReversed_exponent {e : Char} (he : e = 'e' ∨ e = 'E') (c : Char) :
    splitReversed (c :: e :: rest) after = splitReversed (e :: rest) (c :: after) := by
  rw [splitReversed, if_neg]
  rcases he with rfl | rfl <;> simp

theorem splitReversed_signless (h : ∀ c ∈ cs, isSign c = false) (hrest : rest ≠ []) :
    splitReversed (cs.reverse ++ rest) after = splitReversed rest (cs ++ after) := by
  induction cs generalizing rest with
  | nil => rfl
  | cons c cs ih =>
    obtain ⟨hc, hcs⟩ := List.forall_mem_cons.1 h
    rw [List.reverse_cons, List.append_assoc, List.singleton_append,
      ih hcs (List.cons_ne_nil _ _)]
    exact splitReversed_of_not_isSign hc hrest

theorem not_isSign_of_isDigit (h : c.isDigit = true ∨ c = '.') : isSign c = false := by
  rcases h with h | rfl
  · by_contra hsign
    rw [Bool.not_eq_false, isSign, Bool.or_eq_true, beq_iff_eq, beq_iff_eq] at hsign
    rcases hsign with rfl | rfl <;> cases h
  · rfl

theorem not_isSign_of_digits (h : Digits cs) : ∀ c ∈ cs, isSign c = false :=
  fun c hc => not_isSign_of_isDigit (.inl (h c hc))

theorem not_isSign_of_exponent {e : Char} (he : e = 'e' ∨ e = 'E') : isSign e = false := by
  rcases he with rfl | rfl <;> rfl

/-- No numeral is divided. -/
theorem splitReversed_numeral (hw : NumeralText w n) (hrest : rest ≠ []) :
    splitReversed (w.reverse ++ rest) after = splitReversed rest (w ++ after) := by
  obtain ⟨mantissa, exponent, x, rfl, hne, hm, he⟩ := hw.exists_exponent
  have hmantissa : ∀ c ∈ mantissa, isSign c = false := fun c hc => not_isSign_of_isDigit (hm c hc)
  have hexponent {e sign : Char} {ds : List Char} (he : e = 'e' ∨ e = 'E') (hds : Digits ds) :
      splitReversed ((mantissa ++ e :: sign :: ds).reverse ++ rest) after =
        splitReversed rest (mantissa ++ e :: sign :: ds ++ after) := by
    have hdigits := not_isSign_of_digits hds
    have hfirst : ∀ c ∈ mantissa ++ [e], isSign c = false :=
      List.forall_mem_append.2 ⟨hmantissa, List.forall_mem_singleton.2 (not_isSign_of_exponent he)⟩
    have htext : (mantissa ++ e :: sign :: ds).reverse ++ rest =
        ds.reverse ++ (sign :: e :: (mantissa.reverse ++ rest)) := by simp
    rw [htext, splitReversed_signless hdigits (List.cons_ne_nil _ _), splitReversed_exponent he]
    have hback : splitReversed ((mantissa ++ [e]).reverse ++ rest) (sign :: (ds ++ after)) = _ :=
      splitReversed_signless hfirst hrest
    simpa using hback
  cases he with
  | none =>
    rw [List.append_nil]
    exact splitReversed_signless hmantissa hrest
  | @unsigned e ds he _ hds =>
    refine splitReversed_signless (List.forall_mem_append.2 ⟨hmantissa, ?_⟩) hrest
    exact List.forall_mem_cons.2 ⟨not_isSign_of_exponent he, not_isSign_of_digits hds⟩
  | plus he _ hds => exact hexponent he hds
  | minus he _ hds => exact hexponent he hds

/-! ### Parts -/

theorem readParts?_concat (hc : isSign c = false) :
    readParts? (cs ++ [c]) =
      match readSigned? (cs ++ [c]) with
      | some im => some ⟨0, im⟩
      | none => do
        let (re, im) ← splitReversed (cs ++ [c]).reverse []
        return ⟨← readSigned? re, ← readSigned? im⟩ := by
  rw [readParts?]
  have hreverse : (cs ++ [c]).reverse = c :: cs.reverse := List.reverse_concat
  rw [hreverse]
  dsimp only
  rw [hc]
  exact if_neg Bool.false_ne_true

theorem readParts?_signed (h : SignedText w x) : readParts? w = some ⟨0, x⟩ := by
  obtain ⟨u, c, rfl, hc⟩ := h.exists_concat
  rw [readParts?_concat (not_isSign_of_isDigit hc), readSigned?_eq_some_iff.2 h]

theorem readParts?_sign (h : SignedText r y) (hc : isSign c = true) :
    readParts? (r ++ [c]) = some ⟨y, ofSign c⟩ := by
  have hempty : r.reverse.isEmpty = false := by
    obtain ⟨u, d, rfl, -⟩ := h.exists_concat
    simp
  have hreverse : (r ++ [c]).reverse = c :: r.reverse := List.reverse_concat
  rw [readParts?, hreverse]
  dsimp only
  rw [hc, hempty, if_pos rfl, if_neg Bool.false_ne_true, List.reverse_reverse,
    readSigned?_eq_some_iff.2 h]
  rfl

theorem splitReversed_sign (h : SignedText r y) (hc : isSign c = true) :
    splitReversed (c :: r.reverse) after = some (r, c :: after) := by
  obtain ⟨u, d, rfl, hd⟩ := h.exists_concat
  have hletter : (d == 'e' || d == 'E') = false := by
    rw [Bool.or_eq_false_iff, beq_eq_false_iff_ne, beq_eq_false_iff_ne]
    rcases hd with hd | rfl
    · constructor <;> rintro rfl <;> cases hd
    · decide
  have hreverse : (u ++ [d]).reverse = d :: u.reverse := List.reverse_concat
  rw [hreverse, splitReversed, hc, hletter, ← hreverse, List.reverse_reverse]
  rfl

/-- The sign between two numerals divides them. -/
theorem readParts?_parts (h : SignedText r y) (hw : NumeralText w n) (hc : isSign c = true)
    (hx : SignedText (c :: w) x) : readParts? (r ++ c :: w) = some ⟨y, x⟩ := by
  have hover : Over (c :: w) := by
    intro d hd
    obtain rfl := Option.some.inj hd
    rw [isSign, Bool.or_eq_true, beq_iff_eq, beq_iff_eq] at hc
    rcases hc with rfl | rfl <;> decide
  have hnone : readSigned? (r ++ c :: w) = none := by
    rw [readSigned?, takeSigned_append h hover]
  have hsplit : splitReversed (r ++ c :: w).reverse [] = some (r, c :: w) := by
    have htext : (r ++ c :: w).reverse = w.reverse ++ c :: r.reverse := by simp
    rw [htext, splitReversed_numeral hw (List.cons_ne_nil _ _), List.append_nil,
      splitReversed_sign h hc]
  obtain ⟨u, d, rfl, hd⟩ := hw.exists_concat
  rw [← List.cons_append, ← List.append_assoc] at hnone hsplit ⊢
  rw [readParts?_concat (not_isSign_of_isDigit hd), hnone, hsplit]
  change (do return Number.Complex.mk (← readSigned? r) (← readSigned? (c :: u ++ [d]))) = _
  rw [readSigned?_eq_some_iff.2 h, List.cons_append, readSigned?_eq_some_iff.2 hx]
  rfl

/-- What stands before the unit is read as the factor of the unit. -/
theorem readParts?_factor (h : FactorText x w) : readParts? w = some ⟨0, x⟩ := by
  cases h with
  | one => rfl
  | minusOne => rfl
  | plain hw => exact readParts?_signed (.plain hw)
  | minus hw => exact readParts?_signed (.minus hw)

/-- A real number before a factor, which gets a plus sign if it is positive. -/
theorem readParts?_both (h : SignedText r y) (hw : FactorText x w) :
    readParts? (r ++ ((if 0 < x then ['+'] else []) ++ w)) = some ⟨y, x⟩ := by
  cases hw with
  | one =>
    rw [if_pos (by decide +kernel)]
    exact readParts?_sign h rfl
  | minusOne =>
    rw [if_neg (by decide +kernel)]
    exact readParts?_sign h rfl
  | plain hw hpos =>
    rw [if_pos hpos]
    exact readParts?_parts h hw rfl (.plus hw)
  | minus hw hneg =>
    rw [if_neg hneg]
    exact readParts?_parts h hw rfl (.minus hw)

/-! ### Whole texts -/

/-- A character that is neither white space nor a unit. -/
def Apart (c : Char) : Prop := Unicode.isWhiteSpace c = false ∧ isUnit c = false

theorem apart_of_mem : ∀ c ∈ ['.', 'e', 'E', '+', '-'], Apart c := by
  have hall : ∀ c ∈ ['.', 'e', 'E', '+', '-'], Unicode.isWhiteSpace c = false ∧ isUnit c = false :=
    forall_mem_of_all (by decide +kernel)
  exact hall

theorem apart_of_isDigit (h : c.isDigit = true) : Apart c := by
  refine ⟨Lexer.not_isWhiteSpace_of_continuesIdent (Lexer.continuesIdent_of_isDigit h), ?_⟩
  by_contra hunit
  rw [Bool.not_eq_false, isUnit, Bool.or_eq_true, beq_iff_eq, beq_iff_eq] at hunit
  rcases hunit with rfl | rfl <;> cases h

theorem apart_of_numeral (hw : NumeralText w n) : ∀ c ∈ w, Apart c :=
  fun c hc => (hw.mem c hc).elim apart_of_isDigit (apart_of_mem c)

theorem apart_of_signed (h : SignedText w x) : ∀ c ∈ w, Apart c := by
  cases h with
  | plain hw => exact apart_of_numeral hw
  | plus hw | minus hw =>
    exact List.forall_mem_cons.2 ⟨apart_of_mem _ (by decide), apart_of_numeral hw⟩

theorem apart_of_factor (h : FactorText x w) : ∀ c ∈ w, Apart c := by
  cases h with
  | one => nofun
  | minusOne => exact List.forall_mem_singleton.2 (apart_of_mem _ (by decide))
  | plain hw => exact apart_of_numeral hw
  | minus hw => exact List.forall_mem_cons.2 ⟨apart_of_mem _ (by decide), apart_of_numeral hw⟩

theorem read_concat {s : String} {unit : Char} (hs : s.toList = cs ++ [unit])
    (hunit : isUnit unit = true) (h : ∀ c ∈ cs, Apart c) (hz : readParts? cs = some z) :
    read s = .ok ⟨z, some unit⟩ := by
  have hspace : Unicode.isWhiteSpace unit = false := by
    rw [isUnit, Bool.or_eq_true, beq_iff_eq, beq_iff_eq] at hunit
    rcases hunit with rfl | rfl <;> decide +kernel
  have htrim : Unicode.trim s.toList = cs ++ [unit] := by
    rw [hs]
    exact Unicode.trim_eq_self (List.forall_mem_append.2
      ⟨fun c hc => (h c hc).1, List.forall_mem_singleton.2 hspace⟩)
  have hreverse : (cs ++ [unit]).reverse = unit :: cs.reverse := List.reverse_concat
  have hnone : cs.reverse.any isUnit = false := by
    rw [List.any_eq_false]
    intro c hc
    rw [(h c (List.mem_reverse.1 hc)).2]
    exact Bool.false_ne_true
  rw [read, htrim, hreverse]
  dsimp only
  rw [hunit, hnone, if_pos rfl, if_neg Bool.false_ne_true, List.reverse_reverse, hz]

theorem read_signed {s : String} (h : SignedText s.toList x) : read s = .ok (ofReal x) := by
  have htrim : Unicode.trim s.toList = s.toList :=
    Unicode.trim_eq_self fun c hc => (apart_of_signed h c hc).1
  have hread := readSigned?_eq_some_iff.2 h
  obtain ⟨u, c, hconcat, hc⟩ := h.exists_concat
  have hunit := (apart_of_signed h c (by rw [hconcat]; simp)).2
  have hreverse : s.toList.reverse = c :: u.reverse := by rw [hconcat]; exact List.reverse_concat
  rw [read, htrim, hreverse]
  dsimp only
  rw [hunit, if_neg Bool.false_ne_true, hread]

/-- What is written of a complex number is read as the number, its zeros without a sign, and with
the unit if there is an imaginary part. -/
theorem read_write {z : Complex} {unit : Char} (hre : z.re.isFinite = true)
    (him : z.im.isFinite = true) (hunit : isUnit unit = true) :
    read (z.write unit) =
      .ok ⟨⟨foldZero z.re, foldZero z.im⟩, if z.im == 0 then none else some unit⟩ := by
  have hreal := signedText_format hre
  cases hzero : z.im == 0 with
  | true =>
    rw [foldZero_of_beq hzero, Complex.write, hzero]
    exact read_signed hreal
  | false =>
    have hfactor := factorText him hzero
    rw [foldZero_of_not_beq hzero]
    cases hzero' : z.re == 0 with
    | true =>
      rw [foldZero_of_beq hzero']
      refine read_concat ?_ hunit (apart_of_factor hfactor) (readParts?_factor hfactor)
      rw [Complex.write, hzero, hzero']
      simp
    | false =>
      have hplus : ∀ c ∈ (if 0 < z.im then ['+'] else []), Apart c := by
        split
        · exact List.forall_mem_singleton.2 (apart_of_mem _ (by decide))
        · nofun
      have htext : (z.write unit).toList = ((format z.re).toList ++
          ((if 0 < z.im then ['+'] else []) ++ (Complex.coefficient z.im).toList)) ++ [unit] := by
        rw [Complex.write, hzero, hzero', if_neg Bool.false_ne_true]
        by_cases hpos : 0 < z.im <;> simp [hpos]
      have hapart := List.forall_mem_append.2 ⟨apart_of_signed hreal,
        List.forall_mem_append.2 ⟨hplus, apart_of_factor hfactor⟩⟩
      exact read_concat htext hunit hapart (readParts?_both hreal hfactor)

end Number.WrittenComplex

end Spreadsheet
