import Mathlib.Data.List.Forall2
import Mathlib.Data.List.Infix
import Spreadsheet.Pattern

/-!
What a wildcard pattern matches: a text that splits into pieces, one for each item of the pattern
in order. Matching goes through the rows of marks on the suffixes of a text.
-/

namespace Spreadsheet

/-- The pieces of a text that an item of a pattern matches. -/
def Wildcard.Takes : Wildcard → List Char → Prop
  | anyText, _ => True
  | anyChar, piece => ∃ c, piece = [c]
  | char d, piece => ∃ c, piece = [c] ∧ Unicode.foldChar c = Unicode.foldChar d

theorem Wildcard.takes_iff {w : Wildcard} (hw : w ≠ .anyText) :
    w.Takes piece ↔ ∃ c, piece = [c] ∧ w.accepts c = true := by
  cases w with
  | anyText => exact absurd rfl hw
  | anyChar => simp [Wildcard.Takes, Wildcard.accepts]
  | char d => simp [Wildcard.Takes, Wildcard.accepts]

namespace Pattern

/-- The items that a text of a pattern spells. -/
inductive Spells : List Char → Pattern → Prop
  | nil : Spells [] []
  | anyText (h : Spells cs p) : Spells ('*' :: cs) (.anyText :: p)
  | anyChar (h : Spells cs p) : Spells ('?' :: cs) (.anyChar :: p)
  | escaped (c : Char) (h : Spells cs p) : Spells ('~' :: c :: cs) (.char c :: p)
  | lastTilde : Spells ['~'] [.char '~']
  | other (hc : c ∉ ['*', '?', '~']) (h : Spells cs p) : Spells (c :: cs) (.char c :: p)

theorem spells_parse (cs : List Char) : Spells cs (parse cs) := by
  fun_induction parse cs with
  | case1 => exact .nil
  | case2 => exact .lastTilde
  | case3 c rest ih => exact .escaped c ih
  | case4 rest ih => exact .anyText ih
  | case5 rest ih => exact .anyChar ih
  | case6 c rest hlast hescape hstar hquestion ih =>
    refine .other ?_ ih
    rintro hc
    simp only [List.mem_cons, List.not_mem_nil, or_false] at hc
    rcases hc with rfl | rfl | rfl
    · exact hstar rfl
    · exact hquestion rfl
    · cases rest with
      | nil => exact hlast rfl rfl
      | cons c rest => exact hescape c rest rfl rfl

theorem Spells.parse_eq (h : Spells cs p) : parse cs = p := by
  induction h with
  | nil => rfl
  | anyText _ ih => rw [parse, ih]
  | anyChar _ ih => rw [parse, ih]
  | escaped c _ ih => rw [parse, ih]
  | lastTilde => rfl
  | other hc _ ih =>
    simp only [List.mem_cons, List.not_mem_nil, or_false, not_or] at hc
    rw [parse, ih]
    all_goals grind

/-- A text splits into pieces that the items match in order. -/
def Splits (p : Pattern) (cs : List Char) : Prop :=
  ∃ pieces, List.Forall₂ Wildcard.Takes p pieces ∧ cs = pieces.flatten

theorem splits_nil_iff : Splits [] cs ↔ cs = [] := by
  constructor
  · rintro ⟨pieces, hpieces, rfl⟩
    cases hpieces
    rfl
  · rintro rfl
    exact ⟨[], .nil, rfl⟩

theorem splits_cons_iff :
    Splits (w :: p) cs ↔ ∃ piece rest, cs = piece ++ rest ∧ w.Takes piece ∧ Splits p rest := by
  constructor
  · rintro ⟨pieces, hpieces, rfl⟩
    cases hpieces with
    | @cons _ piece _ pieces hpiece hpieces =>
      exact ⟨piece, pieces.flatten, List.flatten_cons, hpiece, pieces, hpieces, rfl⟩
  · rintro ⟨piece, _, rfl, hpiece, pieces, hpieces, rfl⟩
    exact ⟨piece :: pieces, .cons hpiece hpieces, List.flatten_cons.symm⟩

/-! ### Rows of marks -/

/-- A row marks the suffixes of a text of which something holds, from the text itself on. -/
inductive Marks (P : List Char → Prop) : List Char → List Bool → Prop
  | nil (hb : b = true ↔ P []) : Marks P [] [b]
  | cons (hb : b = true ↔ P (c :: cs)) (h : Marks P cs row) : Marks P (c :: cs) (b :: row)

theorem Marks.headD (h : Marks P cs row) : row.headD false = true ↔ P cs := by
  cases h with
  | nil hb => exact hb
  | cons hb _ => exact hb

theorem Marks.congr (h : Marks P cs row) (hP : ∀ s, P s ↔ Q s) : Marks Q cs row := by
  induction h with
  | nil hb => exact .nil (hb.trans (hP _))
  | cons hb _ ih => exact .cons (hb.trans (hP _)) ih

theorem marks_true (cs : List Char) :
    Marks (fun _ => True) cs (List.replicate (cs.length + 1) true) := by
  induction cs with
  | nil => exact .nil (by simp)
  | cons c cs ih => exact .cons (by simp) ih

theorem marks_end (cs : List Char) :
    Marks (· = []) cs (List.replicate cs.length false ++ [true]) := by
  induction cs with
  | nil => exact .nil (by simp)
  | cons c cs ih => exact .cons (by simp) ih

theorem Marks.stepText (h : Marks P cs row) :
    Marks (fun s => ∃ piece rest, s = piece ++ rest ∧ P rest) cs (stepText row) := by
  induction h with
  | @nil b hb =>
    refine .nil ?_
    simp [Pattern.stepText, hb]
  | @cons b c cs row hb _ ih =>
    refine .cons ?_ ih
    rw [Bool.or_eq_true, hb, ih.headD]
    constructor
    · rintro (h | ⟨piece, rest, rfl, h⟩)
      · exact ⟨[], c :: cs, rfl, h⟩
      · exact ⟨c :: piece, rest, rfl, h⟩
    · rintro ⟨piece, rest, hsplit, h⟩
      cases piece with
      | nil =>
        obtain rfl := hsplit
        exact .inl h
      | cons d piece =>
        obtain ⟨-, rfl⟩ := List.cons.inj hsplit
        exact .inr ⟨piece, rest, rfl, h⟩

theorem Marks.stepChar (h : Marks P cs row) (accepts : Char → Bool) :
    Marks (fun s => ∃ c rest, s = c :: rest ∧ accepts c = true ∧ P rest) cs
      (stepChar accepts cs row) := by
  induction h with
  | nil hb => exact .nil (by simp)
  | @cons b c cs row hb h ih =>
    refine .cons ?_ ih
    rw [Bool.and_eq_true, h.headD]
    constructor
    · rintro ⟨hc, hrest⟩
      exact ⟨c, cs, rfl, hc, hrest⟩
    · rintro ⟨_, _, heq, hc, hrest⟩
      cases heq
      exact ⟨hc, hrest⟩

/-- An item of a pattern steps from the rest of a match to the whole of it. -/
theorem Marks.step (h : Marks P cs row) (w : Wildcard) :
    Marks (fun s => ∃ piece rest, s = piece ++ rest ∧ w.Takes piece ∧ P rest) cs
      (step cs w row) := by
  have hchar (hw : w ≠ .anyText) (s : List Char) :
      (∃ c rest, s = c :: rest ∧ w.accepts c = true ∧ P rest) ↔
        ∃ piece rest, s = piece ++ rest ∧ w.Takes piece ∧ P rest := by
    constructor
    · rintro ⟨c, rest, rfl, hc, hrest⟩
      exact ⟨[c], rest, rfl, (Wildcard.takes_iff hw).2 ⟨c, rfl, hc⟩, hrest⟩
    · rintro ⟨piece, rest, rfl, hpiece, hrest⟩
      obtain ⟨c, rfl, hc⟩ := (Wildcard.takes_iff hw).1 hpiece
      exact ⟨c, rest, rfl, hc, hrest⟩
  cases w with
  | anyText => exact h.stepText.congr fun s => by simp [Wildcard.Takes]
  | anyChar => exact (h.stepChar _).congr (hchar nofun)
  | char d => exact (h.stepChar _).congr (hchar nofun)

/-- The suffixes of a text that begin with a match and go on as the last row marks. -/
theorem Marks.suffixes (h : Marks P cs last) (p : Pattern) :
    Marks (fun s => ∃ piece rest, s = piece ++ rest ∧ p.Splits piece ∧ P rest) cs
      (p.suffixes cs last) := by
  induction p with
  | nil => exact h.congr fun s => by simp [splits_nil_iff]
  | cons w p ih =>
    refine (ih.step w).congr fun s => ?_
    constructor
    · rintro ⟨piece, _, rfl, hpiece, more, rest, rfl, hmore, hrest⟩
      exact ⟨piece ++ more, rest, (List.append_assoc ..).symm,
        splits_cons_iff.2 ⟨piece, more, rfl, hpiece, hmore⟩, hrest⟩
    · rintro ⟨_, rest, rfl, hsplits, hrest⟩
      obtain ⟨piece, more, rfl, hpiece, hmore⟩ := splits_cons_iff.1 hsplits
      exact ⟨piece, more ++ rest, List.append_assoc .., hpiece, more, rest, rfl, hmore, hrest⟩

theorem holds_iff (p : Pattern) (cs : List Char) : p.holds cs = true ↔ p.Splits cs := by
  rw [holds, ((marks_end cs).suffixes p).headD]
  simp

/-- A text of a pattern matches the texts that split into pieces for the items that it spells. -/
def Matches (pattern subject : List Char) : Prop := ∃ p, Spells pattern p ∧ p.Splits subject

theorem splits_parse_iff : (parse pattern).Splits subject ↔ Matches pattern subject := by
  constructor
  · exact fun h => ⟨_, spells_parse pattern, h⟩
  · rintro ⟨p, hp, h⟩
    rwa [hp.parse_eq]

theorem holds_parse_iff : (parse pattern).holds subject = true ↔ Matches pattern subject :=
  (holds_iff _ _).trans splits_parse_iff

/-! ### The first match -/

theorem Marks.getElem? (h : Marks P cs row) (hn : n ≤ cs.length) :
    ∃ b, row[n]? = some b ∧ (b = true ↔ P (cs.drop n)) := by
  induction h generalizing n with
  | @nil b hb =>
    obtain rfl := Nat.le_zero.1 hn
    exact ⟨b, rfl, hb⟩
  | @cons b c cs row hb _ ih =>
    cases n with
    | zero => exact ⟨b, rfl, hb⟩
    | succ n => exact ih (Nat.le_of_succ_le_succ hn)

theorem Marks.length (h : Marks P cs row) : row.length = cs.length + 1 := by
  induction h with
  | nil => rfl
  | cons _ _ ih => rw [List.length_cons, ih, List.length_cons]

/-- Some piece of a text matches from a place on. -/
def MatchesAt (p : Pattern) (cs : List Char) (n : Nat) : Prop :=
  n ≤ cs.length ∧ ∃ piece, piece <+: cs.drop n ∧ p.Splits piece

theorem getElem?_suffixes (p : Pattern) (cs : List Char) (n : Nat) :
    (p.suffixes cs (List.replicate (cs.length + 1) true))[n]? = some true ↔ p.MatchesAt cs n := by
  have hmarks := (marks_true cs).suffixes p
  have hprefix (s : List Char) : (∃ piece rest, s = piece ++ rest ∧ p.Splits piece ∧ True) ↔
      ∃ piece, piece <+: s ∧ p.Splits piece := by
    constructor
    · rintro ⟨piece, rest, rfl, hsplits, -⟩
      exact ⟨piece, List.prefix_append _ _, hsplits⟩
    · rintro ⟨piece, ⟨rest, rfl⟩, hsplits⟩
      exact ⟨piece, rest, rfl, hsplits, trivial⟩
  by_cases hn : n ≤ cs.length
  · obtain ⟨b, hb, hiff⟩ := hmarks.getElem? hn
    rw [hb, Option.some.injEq, hiff, hprefix]
    exact (and_iff_right hn).symm
  · rw [List.getElem?_eq_none (by rw [hmarks.length]; omega)]
    exact ⟨nofun, fun h => absurd h.1 hn⟩

theorem find?_eq_some_iff {p : Pattern} :
    p.find? cs = some n ↔ p.MatchesAt cs n ∧ ∀ m < n, ¬ p.MatchesAt cs m := by
  simp only [find?, List.findIdx?_eq_some_iff_getElem, id_eq, Bool.not_eq_true,
    ← getElem?_suffixes]
  constructor
  · rintro ⟨hn, hfound, hearlier⟩
    refine ⟨by rw [List.getElem?_eq_getElem hn, hfound], fun m hm => ?_⟩
    rw [List.getElem?_eq_getElem (Nat.lt_trans hm hn), hearlier m hm]
    exact nofun
  · rintro ⟨hfound, hearlier⟩
    obtain ⟨hn, hfound⟩ := List.getElem?_eq_some_iff.1 hfound
    refine ⟨hn, hfound, fun m hm => ?_⟩
    have hm' := hearlier m hm
    rw [List.getElem?_eq_getElem (Nat.lt_trans hm hn), Option.some.injEq] at hm'
    exact eq_false_of_ne_true hm'

theorem find?_eq_none_iff {p : Pattern} : p.find? cs = none ↔ ∀ n, ¬ p.MatchesAt cs n := by
  simp only [find?, List.findIdx?_eq_none_iff, id_eq, ← getElem?_suffixes]
  constructor
  · intro h n hn
    exact absurd (h true (List.mem_of_getElem? hn)) nofun
  · intro h b hb
    obtain ⟨n, hn⟩ := List.mem_iff_getElem?.1 hb
    cases b with
    | false => rfl
    | true => exact absurd hn (h n)

end Pattern

end Spreadsheet
