import Spreadsheet.Proofs.Faults.Prefixes
import Spreadsheet.Proofs.Spacing.Locality

/-!
Texts that are the same but for the white space between their tokens have the same tokens. A gap
may become another one as long as it does not close or open, and those at both ends are free.
-/

namespace Spreadsheet

/-- Tokens that look alike one by one. Whether white space stands before the first of them is told
only by `spaced`. -/
inductive Token.Alike (spaced : Prop) : List Token → List Token → Prop
  | nil : Alike spaced [] []
  | cons (hkind : t.kind = t'.kind) (hlexeme : t.lexeme = t'.lexeme)
      (hspace : spaced → t.spaceBefore = t'.spaceBefore) (h : List.Forall₂ Token.Like ts ts') :
      Alike spaced (t :: ts) (t' :: ts')

theorem Token.Alike.forall₂ (h : Alike spaced ts ts') (hs : spaced) :
    List.Forall₂ Token.Like ts ts' := by
  cases h with
  | nil => exact .nil
  | cons hkind hlexeme hspace h => exact .cons ⟨hkind, hlexeme, hspace hs⟩ h

/-- Of texts that begin a common one, the place behind tells which one it is. -/
theorem Place.eq_of_behind_eq {a b x y : List Char} (h : a ++ x = b ++ y)
    (hplace : behind a = behind b) : a = b := by
  rcases List.append_eq_append_iff.1 h with ⟨z, rfl, -⟩ | ⟨z, rfl, -⟩
  · by_contra hne
    exact behind_append_ne a (by rintro rfl; exact hne (List.append_nil a).symm) hplace.symm
  · by_contra hne
    exact behind_append_ne b (by rintro rfl; exact hne (List.append_nil b)) hplace

namespace Lexer

/-- White space, or nothing. -/
def Blank (gap : List Char) : Prop := ∀ c ∈ gap, Unicode.isWhiteSpace c = true

/-- From a place on, after white space or not, a text is read as tokens with gaps before them. -/
inductive LexesGaps : Place → Bool → List Char → Lexed → Prop
  | stop (hgap : Blank gap) :
      LexesGaps place space gap ⟨[], place.after gap, space || !gap.isEmpty⟩
  | next (hgap : Blank gap) (hw : Reads w kind rest)
      (h : LexesGaps ((place.after gap).after w) false rest lexed) :
      LexesGaps place space (gap ++ (w ++ rest))
        { lexed with tokens :=
            ⟨kind, String.ofList w, place.after gap, space || !gap.isEmpty⟩ :: lexed.tokens }

/-- The same tokens with white space between them. What follows on a token may differ only behind
white space. -/
inductive SpacedAlike : List Char → List Char → Prop
  | stop (hgap : Blank gap) (hgap' : Blank gap') : SpacedAlike gap gap'
  | next (hgap : Blank gap) (hgap' : Blank gap') (hw : Reads w kind rest)
      (hrest : UpToSpace rest rest') (h : SpacedAlike rest rest') :
      SpacedAlike (gap ++ (w ++ rest)) (gap' ++ (w ++ rest'))

variable {gap gap' cs cs' rest : List Char} {place : Place} {space : Bool} {lexed : Lexed}

theorem blank_nil : Blank [] := nofun

theorem Blank.append (h : Blank gap) (h' : Blank gap') : Blank (gap ++ gap') :=
  List.forall_mem_append.2 ⟨h, h'⟩

theorem blank_append_iff : Blank (gap ++ gap') ↔ Blank gap ∧ Blank gap' := List.forall_mem_append

theorem Blank.pauses (h : Blank gap) : Pauses gap := fun c hc => h c (List.mem_of_mem_head? hc)

theorem Blank.pauses_append (h : Blank gap) (hne : gap ≠ []) (rest : List Char) :
    Pauses (gap ++ rest) := by
  obtain ⟨c, gap, rfl⟩ := List.exists_cons_of_ne_nil hne
  exact h.pauses

theorem Lexes.of_gap (hgap : Blank gap)
    (h : Lexes (place.after gap) (space || !gap.isEmpty) cs lexed) :
    Lexes place space (gap ++ cs) lexed := by
  induction gap generalizing place space with
  | nil =>
    rw [List.isEmpty_nil, Bool.not_true, Bool.or_false] at h
    exact h
  | cons c gap ih =>
    obtain ⟨hc, hgap⟩ := List.forall_mem_cons.1 hgap
    rw [List.isEmpty_cons, Bool.not_false, Bool.or_true] at h
    apply Lexes.space hc
    exact ih hgap h

/-- What was passed over since the last token is the gap of the one to come. -/
theorem Lexes.gaps_append (hgap : Blank gap)
    (h : Lexes (place.after gap) (space || !gap.isEmpty) cs lexed) :
    LexesGaps place space (gap ++ cs) lexed := by
  generalize hplace : place.after gap = place' at h
  generalize hspace : (space || !gap.isEmpty) = space' at h
  induction h generalizing place space gap with
  | nil =>
    rw [List.append_nil, ← hplace, ← hspace]
    exact .stop hgap
  | @space c _ cs _ _ hc _ ih =>
    rw [List.append_cons]
    apply ih (hgap.append (List.forall_mem_singleton.2 hc))
    · rw [← hplace, Place.after, Place.after, List.foldl_append]
      rfl
    · simp
  | token hw _ ih =>
    rw [← hplace, ← hspace]
    apply LexesGaps.next hgap hw
    rw [hplace]
    exact ih blank_nil rfl rfl

theorem Lexes.gaps (h : Lexes place space cs lexed) : LexesGaps place space cs lexed := by
  rw [← Bool.or_false space] at h
  exact Lexes.gaps_append blank_nil h

/-! ### Other gaps -/

theorem UpToSpace.gap_eq_nil (h : UpToSpace (w ++ cs) (gap ++ cs')) (hw : Reads w kind v)
    (hgap : Blank gap) : gap = [] := by
  have hspace := hw.not_isWhiteSpace
  obtain ⟨c, w, rfl⟩ := List.exists_cons_of_ne_nil hw.ne_nil
  obtain ⟨ds, hds, -⟩ := h.exists_cons (hspace c rfl)
  cases gap with
  | nil => rfl
  | cons d gap =>
    obtain ⟨rfl, -⟩ := List.cons.inj hds
    exact absurd (hgap d List.mem_cons_self) (by rw [hspace d rfl]; exact Bool.false_ne_true)

theorem UpToSpace.isEmpty_eq (h : UpToSpace (gap ++ (w ++ cs)) (gap' ++ (w ++ cs')))
    (hw : Reads w kind rest) (hgap : Blank gap) (hgap' : Blank gap') :
    gap.isEmpty = gap'.isEmpty := by
  rw [Bool.eq_iff_iff, List.isEmpty_iff, List.isEmpty_iff]
  constructor
  · rintro rfl
    exact gap_eq_nil (w := w) h hw hgap'
  · rintro rfl
    exact gap_eq_nil (w := w) h.symm hw hgap

namespace SpacedAlike

/-- Such texts have the same tokens, wherever they stand. -/
theorem exists_lexes (h : SpacedAlike cs cs') (place place' : Place) (space space' : Bool) :
    ∃ lexed lexed', Lexes place space cs lexed ∧ Lexes place' space' cs' lexed' ∧
      Token.Alike (UpToSpace cs cs' ∧ space = space') lexed.tokens lexed'.tokens := by
  induction h generalizing place place' space space' with
  | @stop gap gap' hgap hgap' =>
    rw [← List.append_nil gap, ← List.append_nil gap']
    exact ⟨_, _, .of_gap hgap .nil, .of_gap hgap' .nil, .nil⟩
  | @next gap gap' w kind rest rest' hgap hgap' hw hrest _ ih =>
    obtain ⟨more, more', hmore, hmore', halike⟩ :=
      ih ((place.after gap).after w) ((place'.after gap').after w) false false
    refine ⟨_, _, .of_gap hgap (.token hw hmore), .of_gap hgap' (.token (hw.congr hrest) hmore'),
      .cons rfl rfl ?_ (halike.forall₂ ⟨hrest, rfl⟩)⟩
    rintro ⟨hsame, rfl⟩
    dsimp only
    rw [hsame.isEmpty_eq hw hgap hgap']

theorem lead (h : SpacedAlike cs cs') (hgap : Blank gap) : SpacedAlike cs (gap ++ cs') := by
  cases h with
  | stop hstop hstop' => exact .stop hstop (hgap.append hstop')
  | next hnext hnext' hw hrest h =>
    rw [← List.append_assoc gap]
    exact .next hnext (hgap.append hnext') hw hrest h

end SpacedAlike

/-- White space at the end of a text is not part of its last token. -/
theorem Reads.append_eq_append_blank (hw : Reads w kind rest) (hgap : Blank gap)
    (h : a ++ (w ++ rest) = cs ++ gap) : ∃ x, cs = a ++ (w ++ x) ∧ rest = x ++ gap := by
  rw [← List.append_assoc] at h
  rcases List.append_eq_append_iff.1 h with ⟨x, rfl, rfl⟩ | ⟨x, hx, rfl⟩
  · exact ⟨x, List.append_assoc .., rfl⟩
  · rcases List.eq_nil_or_concat x with rfl | ⟨x, c, rfl⟩
    · rw [List.append_nil] at hx
      exact ⟨[], by rw [List.append_nil, hx], rfl⟩
    · have hlast : c ∈ w.getLast? := by
        obtain ⟨v, d, rfl⟩ := (List.eq_nil_or_concat w).resolve_left hw.ne_nil
        simp only [List.concat_eq_append, ← List.append_assoc] at hx ⊢
        obtain ⟨-, hcd⟩ := List.append_inj' hx rfl
        obtain rfl := (List.cons.inj hcd).1
        exact List.getLast?_concat
      have hspace := hgap c (by simp)
      rw [hw.not_isWhiteSpace_last c hlast] at hspace
      cases hspace

/-- The gap at the end may become any other. -/
theorem LexesGaps.spacedAlike_trail (h : LexesGaps place space (cs ++ gap) lexed) (hgap : Blank gap)
    (hgap' : Blank gap') : SpacedAlike (cs ++ gap) (cs ++ gap') := by
  generalize htext : cs ++ gap = text at h
  induction h generalizing cs with
  | stop hblank =>
    rw [← htext] at hblank ⊢
    exact .stop hblank ((blank_append_iff.1 hblank).1.append hgap')
  | next hfront hw _ ih =>
    obtain ⟨x, rfl, rfl⟩ := hw.append_eq_append_blank hgap htext.symm
    rw [List.append_assoc, List.append_assoc]
    apply SpacedAlike.next hfront hfront hw
    · exact (UpToSpace.pause hgap.pauses hgap'.pauses).append x
    · exact ih rfl

theorem LexesGaps.spacedAlike (h : LexesGaps place space cs lexed) : SpacedAlike cs cs := by
  rw [← List.append_nil cs] at h
  have hsame := h.spacedAlike_trail blank_nil blank_nil
  rwa [List.append_nil] at hsame

/-- The gap before the first token may become any other. -/
theorem LexesGaps.spacedAlike_first (h : LexesGaps place space (gap ++ rest) lexed)
    (hplace : place = Place.behind base) (htokens : lexed.tokens = u :: us)
    (hu : u.place = Place.behind (base ++ gap)) (hgap' : Blank gap') :
    SpacedAlike (gap ++ rest) (gap' ++ rest) := by
  generalize hcs : gap ++ rest = cs at h
  cases h with
  | stop => cases htokens
  | @next first w _ rest' _ _ _ hfirst hw hmore =>
    obtain ⟨rfl, -⟩ := List.cons.inj htokens
    have hbehind : Place.behind (base ++ gap) = Place.behind (base ++ first) := by
      rw [← hu, hplace, ← Place.behind_append]
    have hbase : base ++ gap ++ rest = base ++ first ++ (w ++ rest') := by
      rw [List.append_assoc, hcs, List.append_assoc]
    obtain rfl := List.append_cancel_left (Place.eq_of_behind_eq hbase hbehind)
    obtain rfl := List.append_cancel_left hcs
    exact .next hfirst hgap' hw (.refl rest') hmore.spacedAlike

/-- The gap between two tokens may become any other that is not empty. -/
theorem LexesGaps.exists_between (h : LexesGaps place space cs lexed)
    (hplace : place = Place.behind base) (htokens : lexed.tokens = ts ++ t :: u :: us)
    (hcs : base ++ cs = before ++ (t.lexeme.toList ++ (gap ++ rest)))
    (ht : t.place = Place.behind before)
    (hu : u.place = Place.behind (before ++ (t.lexeme.toList ++ gap))) (hgap : Blank gap)
    (hne : gap ≠ []) (hgap' : Blank gap') (hne' : gap' ≠ []) :
    ∃ front, front ≠ [] ∧ before ++ t.lexeme.toList = base ++ front ∧
      SpacedAlike (front ++ (gap ++ rest)) (front ++ (gap' ++ rest)) := by
  have hends : UpToSpace (gap ++ rest) (gap' ++ rest) :=
    .pause (hgap.pauses_append hne _) (hgap'.pauses_append hne' _)
  induction h generalizing base ts with
  | stop => exact absurd htokens.symm (List.append_ne_nil_of_right_ne_nil _ (List.cons_ne_nil _ _))
  | @next first w kind rest' more place _ hfirst hw hmore ih =>
    have hbehind : place.after first = Place.behind (base ++ first) := by
      rw [hplace, Place.behind_append]
    have hbehind' : (place.after first).after w = Place.behind (base ++ first ++ w) := by
      rw [hbehind, ← Place.behind_append]
    cases ts with
    | nil =>
      -- the first token is the one before the gap
      obtain ⟨rfl, hnext⟩ := List.cons.inj htokens
      simp only [String.toList_ofList] at hcs hu ⊢
      rw [← List.append_assoc] at hcs hu
      obtain rfl := Place.eq_of_behind_eq hcs (hbehind.symm.trans ht)
      obtain rfl := List.append_cancel_left (List.append_cancel_left hcs)
      refine ⟨first ++ w, by simp [hw.ne_nil], List.append_assoc .., ?_⟩
      rw [List.append_assoc, List.append_assoc]
      exact .next hfirst hfirst hw hends (hmore.spacedAlike_first hbehind' hnext hu hgap')
    | cons t₀ ts =>
      obtain ⟨-, htokens⟩ := List.cons.inj htokens
      obtain ⟨front, -, hbefore, halike⟩ :=
        ih hbehind' htokens (by simpa only [List.append_assoc] using hcs)
      have hrest : rest' = front ++ (gap ++ rest) := by
        rw [← List.append_assoc before, hbefore] at hcs
        simpa using hcs
      subst hrest
      refine ⟨first ++ (w ++ front), by simp [hw.ne_nil], by simpa using hbefore, ?_⟩
      rw [List.append_assoc, List.append_assoc, List.append_assoc, List.append_assoc]
      exact .next hfirst hfirst hw (hends.append front) halike

end Lexer

end Spreadsheet
