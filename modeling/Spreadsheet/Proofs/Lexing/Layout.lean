import Mathlib.Data.List.TakeWhile
import Spreadsheet.Proofs.Lexing.Lexes

/-!
Where the tokens of a text stand in it: what is written of them, with the white space between them,
is the text, and each tells the line and the column where it begins.
-/

namespace Spreadsheet

namespace Place

/-- The place behind a text, by its line breaks and by what stands after the last of them. -/
def behind (cs : List Char) : Place :=
  ⟨cs.count '\n' + 1, (cs.reverse.takeWhile (· ≠ '\n')).length + 1⟩

theorem behind_concat (cs : List Char) (c : Char) : behind (cs ++ [c]) = (behind cs).next c := by
  rw [behind, next, List.count_append, List.reverse_append, List.reverse_singleton,
    List.singleton_append]
  by_cases hc : c = '\n'
  · subst hc
    rfl
  · rw [if_neg hc, List.takeWhile_cons_of_pos (by simpa using hc), List.length_cons,
      List.count_singleton, if_neg (by simpa using hc)]
    rfl

theorem behind_append (cs w : List Char) : behind (cs ++ w) = (behind cs).after w := by
  induction w generalizing cs with
  | nil => rw [List.append_nil]; rfl
  | cons c w ih =>
    rw [List.append_cons, ih, behind_concat]
    rfl

theorem after_start (cs : List Char) : start.after cs = behind cs :=
  (behind_append [] cs).symm

end Place

/-- A token, or the end of a text: that has no kind. -/
structure Mark where
  kind : Option TokenKind
  lexeme : String
  place : Place
  spaceBefore : Bool

def Token.mark (t : Token) : Mark := ⟨some t.kind, t.lexeme, t.place, t.spaceBefore⟩

/-- The tokens of a text and its end. -/
def Lexed.marks (lexed : Lexed) : List Mark :=
  lexed.tokens.map Token.mark ++ [⟨none, "", lexed.stop, lexed.spaceBeforeStop⟩]

theorem Lexed.marks_ne_nil (lexed : Lexed) : lexed.marks ≠ [] :=
  List.append_ne_nil_of_right_ne_nil _ (List.cons_ne_nil _ _)

/-- A mark with the white space before it. -/
structure Piece where
  gap : List Char
  mark : Mark

def Piece.written (p : Piece) : List Char := p.gap ++ p.mark.lexeme.toList

def written (pieces : List Piece) : List Char := pieces.flatMap Piece.written

/-- What a piece tells of itself is so where it stands, `before` and `after` being around it. -/
structure Piece.Stands (p : Piece) (before : List Char) (after : List Piece) : Prop where
  gap : ∀ c ∈ p.gap, Unicode.isWhiteSpace c = true
  head : ∀ c ∈ p.mark.lexeme.toList.head?, Unicode.isWhiteSpace c = false
  place : p.mark.place = Place.behind (before ++ p.gap)
  spaceBefore : p.mark.spaceBefore = true ↔ p.gap ≠ []
  stop : p.mark.kind = none ↔ after = []
  empty : p.mark.lexeme = "" ↔ after = []

/-- Every piece of a list stands where it tells, the list following on `before`. -/
def Laid (before : List Char) (pieces : List Piece) : Prop :=
  ∀ front p back, pieces = front ++ p :: back → p.Stands (before ++ written front) back

theorem Laid.nil (before : List Char) : Laid before [] := by
  intro front p back h
  exact absurd h.symm (List.append_ne_nil_of_right_ne_nil _ (List.cons_ne_nil _ _))

theorem Laid.cons (hp : p.Stands before pieces) (h : Laid (before ++ p.written) pieces) :
    Laid before (p :: pieces) := by
  intro front q back heq
  cases front with
  | nil =>
    obtain ⟨rfl, rfl⟩ := List.cons.inj heq
    rwa [written, List.flatMap_nil, List.append_nil]
  | cons r front =>
    obtain ⟨rfl, rfl⟩ := List.cons.inj heq
    rw [written, List.flatMap_cons, ← List.append_assoc]
    exact h front q back rfl

namespace Lexer

theorem Reads.ne_nil (h : Reads w kind rest) : w ≠ [] := by
  obtain ⟨c, v, rfl, -⟩ := scan_of_reads h
  exact List.cons_ne_nil c v

/-- The white space that was passed over since the last token is the gap of the next. -/
theorem Lexes.laid {space : Bool} (h : Lexes place space cs lexed)
    (hplace : place = Place.behind (before ++ gap))
    (hgap : ∀ c ∈ gap, Unicode.isWhiteSpace c = true) (hspace : space = true ↔ gap ≠ []) :
    ∃ pieces, pieces.map Piece.mark = lexed.marks ∧ gap ++ cs = written pieces ∧
      Laid before pieces := by
  induction h generalizing before gap with
  | @nil place space =>
    refine ⟨[⟨gap, none, "", place, space⟩], rfl, by simp [written, Piece.written], ?_⟩
    apply Laid.cons _ (Laid.nil _)
    exact ⟨hgap, nofun, hplace, hspace, by simp, by simp⟩
  | @space c place cs _ space hc _ ih =>
    -- the gap takes the character; the piece that it belongs to is still to come
    have hgap' : ∀ d ∈ gap ++ [c], Unicode.isWhiteSpace d = true := by
      intro d hd
      rcases List.mem_append.1 hd with hd | hd
      · exact hgap d hd
      · rwa [List.mem_singleton.1 hd]
    obtain ⟨pieces, hmarks, hcs, hlaid⟩ := ih
      (by rw [hplace, ← List.append_assoc, Place.behind_concat]) hgap' (by simp)
    exact ⟨pieces, hmarks, by rw [← hcs, List.append_cons], hlaid⟩
  | @token w kind rest more place space hw _ ih =>
    obtain ⟨pieces, hmarks, hcs, hlaid⟩ := @ih (before ++ (gap ++ w)) []
      (by rw [hplace, List.append_nil, ← List.append_assoc, Place.behind_append _ w])
      nofun (by simp)
    -- the end is still to come, so that a token is never the last piece
    have hpieces : pieces ≠ [] := by
      rintro rfl
      exact more.marks_ne_nil hmarks.symm
    have hwritten : (String.ofList w).toList = w := String.toList_ofList
    refine ⟨⟨gap, some kind, String.ofList w, place, space⟩ :: pieces, ?_, ?_, ?_⟩
    · rw [List.map_cons, hmarks]
      rfl
    · rw [written, List.flatMap_cons, Piece.written, hwritten, List.append_assoc]
      exact congrArg (fun cs => gap ++ (w ++ cs)) hcs
    · apply Laid.cons
      · refine ⟨hgap, ?_, hplace, hspace, by simpa using hpieces, ?_⟩
        · rw [hwritten]
          exact hw.not_isWhiteSpace
        · simp [hpieces, hw.ne_nil]
      · rwa [Piece.written, hwritten]

end Lexer

/-- Nothing of a text is lost and nothing is read twice: after white space and an equals sign, the
lexemes with the gaps between them are the text; the end is the only mark with nothing written, and
each mark begins where it tells. -/
theorem tokenize_layout (h : tokenize text = .ok lexed) :
    ∃ lead sign pieces, (∀ c ∈ lead, Unicode.isWhiteSpace c = true) ∧ (sign = [] ∨ sign = ['=']) ∧
      pieces.map Piece.mark = lexed.marks ∧ text.toList = lead ++ sign ++ written pieces ∧
      ∀ front p back, pieces = front ++ p :: back →
        p.Stands (lead ++ sign ++ written front) back := by
  obtain ⟨lead, cs, htext, hlead, -, ⟨rest, rfl, hrest⟩ | ⟨-, hcs⟩⟩ := tokenize_eq_ok_iff.1 h
  · have hplace : (Place.start.after lead).next '=' = Place.behind (lead ++ ['='] ++ []) := by
      rw [Place.after_start, List.append_nil, Place.behind_concat]
    obtain ⟨pieces, hmarks, hwritten, hlaid⟩ := hrest.laid hplace nofun (by simp)
    refine ⟨lead, ['='], pieces, hlead, .inr rfl, hmarks, ?_, hlaid⟩
    rw [htext, ← hwritten, List.append_cons]
    rfl
  · have hplace : Place.start.after lead = Place.behind (lead ++ [] ++ []) := by
      rw [Place.after_start, List.append_nil, List.append_nil]
    obtain ⟨pieces, hmarks, hwritten, hlaid⟩ := hcs.laid hplace nofun (by simp)
    refine ⟨lead, [], pieces, hlead, .inl rfl, hmarks, ?_, hlaid⟩
    rw [htext, ← hwritten, List.append_nil]
    rfl

theorem tokenize_layout_lines :
    ∃ lexed, tokenize " =A1 &\n  \"ä\" " = .ok lexed ∧ lexed.stop = ⟨2, 7⟩ ∧
      lexed.tokens.map (fun t => (t.lexeme, t.place, t.spaceBefore)) =
        [("A1", ⟨1, 3⟩, false), ("&", ⟨1, 6⟩, true), ("\"ä\"", ⟨2, 3⟩, true)] ∧
      ∃ lead sign pieces, (∀ c ∈ lead, Unicode.isWhiteSpace c = true) ∧
        (sign = [] ∨ sign = ['=']) ∧ pieces.map Piece.mark = lexed.marks ∧
        " =A1 &\n  \"ä\" ".toList = lead ++ sign ++ written pieces ∧
        ∀ front p back, pieces = front ++ p :: back →
          p.Stands (lead ++ sign ++ written front) back :=
  have h : tokenize " =A1 &\n  \"ä\" " =
      .ok ⟨[⟨.cell ⟨1, 1, false, false⟩, "A1", ⟨1, 3⟩, false⟩,
        ⟨.symbol .ampersand, "&", ⟨1, 6⟩, true⟩, ⟨.text "ä", "\"ä\"", ⟨2, 3⟩, true⟩],
        ⟨2, 7⟩, true⟩ := rfl
  ⟨_, h, rfl, rfl, tokenize_layout h⟩

end Spreadsheet
