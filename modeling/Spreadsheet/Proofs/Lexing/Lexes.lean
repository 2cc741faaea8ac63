import Spreadsheet.Proofs.Lexing.Reads

/-!
The tokens of a text as a relation. `tokenize` finds just the tokens that are related to its text.
-/

namespace Spreadsheet

namespace Lexer

/-- From a place on, after white space or not, a text is read as tokens. -/
inductive Lexes : Place → Bool → List Char → Lexed → Prop
  | nil : Lexes place space [] ⟨[], place, space⟩
  | space (hc : Unicode.isWhiteSpace c = true) (h : Lexes (place.next c) true cs lexed) :
      Lexes place space (c :: cs) lexed
  | token (hw : Reads w kind rest) (h : Lexes (place.after w) false rest lexed) :
      Lexes place space (w ++ rest)
        { lexed with tokens := ⟨kind, String.ofList w, place, space⟩ :: lexed.tokens }

theorem tokensFrom_append (w rest : List Char) (place : Place) (space : Bool) :
    tokensFrom (w ++ rest) w.length place space = tokensFrom rest 0 (place.after w) space := by
  induction w generalizing place with
  | nil => rfl
  | cons c w ih => exact ih (place.next c)

theorem Reads.not_isWhiteSpace (h : Reads w kind rest) :
    ∀ c ∈ w.head?, Unicode.isWhiteSpace c = false := by
  have hword {w v : List Char} (hw : Word w) :
      ∀ c ∈ (w ++ v).head?, Unicode.isWhiteSpace c = false := by
    obtain ⟨c, u, rfl, hc, -⟩ := hw.starts
    intro d hd
    obtain rfl := Option.some.inj hd
    exact not_isWhiteSpace_of_continuesIdent (continuesIdent_of_startsIdent hc)
  cases h with
  | function hw | word hw => simpa using hword (v := []) hw
  | sheet hw | columns hw => exact hword hw
  | error he hw =>
    obtain ⟨v, rfl⟩ := exists_cons_of_sameAscii he hw
    intro c hc
    obtain rfl := Option.some.inj hc
    decide
  | single hc =>
    intro c hc'
    obtain rfl := Option.some.inj hc'
    exact not_isWhiteSpace_of_mem_symbolHeads (mem_symbolHeads_of_singleSymbol? hc)
  | rows hc =>
    intro c hc'
    obtain rfl := Option.some.inj hc'
    rcases hc with ⟨rfl, -⟩ | hc
    · decide
    · exact not_isWhiteSpace_of_continuesIdent (continuesIdent_of_isDigit hc)
  | number hc =>
    intro c hc'
    obtain rfl := Option.some.inj hc'
    rcases hc with hc | ⟨rfl, -⟩
    · exact not_isWhiteSpace_of_continuesIdent (continuesIdent_of_isDigit hc)
    · decide
  | lessEqual | notEqual | less | greaterEqual | greater | text | quotedSheet =>
    intro c hc
    obtain rfl := Option.some.inj hc
    decide

theorem lexes_of_tokensFrom (h : tokensFrom cs 0 place space = .ok lexed) :
    Lexes place space cs lexed := by
  induction hn : cs.length using Nat.strong_induction_on generalizing cs place space lexed with
  | _ n ih =>
    subst hn
    cases cs with
    | nil =>
      cases h
      exact .nil
    | cons c cs =>
      rw [tokensFrom] at h
      by_cases hc : Unicode.isWhiteSpace c = true
      · rw [if_pos hc] at h
        exact .space hc (ih _ (Nat.lt_succ_self _) h rfl)
      · rw [if_neg hc] at h
        split at h
        · cases h
        · next kind rest hscan =>
          obtain ⟨w, rfl, hw⟩ := reads_of_scan hscan
          obtain ⟨more, hmore, rfl⟩ := map_eq_ok.1 h
          have hlen : (w ++ rest).length - rest.length = w.length := by
            rw [List.length_append, Nat.add_sub_cancel]
          rw [hlen, tokensFrom_append] at hmore
          rw [hlen, List.take_left, ← List.cons_append]
          refine .token hw (ih _ ?_ hmore rfl)
          rw [List.length_cons, List.length_append]
          omega

theorem tokensFrom_of_lexes (h : Lexes place space cs lexed) :
    tokensFrom cs 0 place space = .ok lexed := by
  induction h with
  | nil => rfl
  | space hc _ ih => rw [tokensFrom, if_pos hc, ih]
  | @token w kind rest _ _ _ hw _ ih =>
    have hspace := hw.not_isWhiteSpace
    obtain ⟨c, v, rfl, hscan⟩ := scan_of_reads hw
    have hlen : (v ++ rest).length - rest.length = v.length := by
      rw [List.length_append, Nat.add_sub_cancel]
    rw [List.cons_append, tokensFrom, if_neg (by simp [hspace c rfl]), hscan]
    dsimp only
    rw [hlen, tokensFrom_append, List.take_left]
    rw [Place.after, List.foldl_cons] at ih
    rw [Place.after, ih]
    rfl

/-- `tokensFrom` finds just the tokens that the text is read as. -/
theorem tokensFrom_eq_ok_iff :
    tokensFrom cs 0 place space = .ok lexed ↔ Lexes place space cs lexed :=
  ⟨lexes_of_tokensFrom, tokensFrom_of_lexes⟩

end Lexer

open Lexer

theorem tokenize_eq_ok_iff :
    tokenize text = .ok lexed ↔
      ∃ lead cs, text.toList = lead ++ cs ∧ (∀ c ∈ lead, Unicode.isWhiteSpace c = true) ∧
        (∀ c ∈ cs.head?, Unicode.isWhiteSpace c = false) ∧
        ((∃ rest, cs = '=' :: rest ∧
            Lexes ((Place.start.after lead).next '=') false rest lexed) ∨
          '=' ∉ cs.head? ∧ Lexes (Place.start.after lead) false cs lexed) := by
  constructor
  · intro h
    unfold tokenize at h
    generalize hspan : text.toList.span Unicode.isWhiteSpace = taken at h
    obtain ⟨lead, cs⟩ := taken
    obtain ⟨htext, hlead, hcs⟩ := span_eq_iff.1 hspan
    refine ⟨lead, cs, htext, hlead, hcs, ?_⟩
    dsimp only at h
    split at h
    · next rest => exact .inl ⟨rest, rfl, lexes_of_tokensFrom h⟩
    · next hne =>
      refine .inr ⟨fun hhead => ?_, lexes_of_tokensFrom h⟩
      obtain ⟨rest, rfl⟩ := List.head?_eq_some_iff.1 hhead
      exact hne rest rfl
  · rintro ⟨lead, cs, htext, hlead, hcs, h⟩
    unfold tokenize
    rw [span_eq_iff.2 ⟨htext, hlead, hcs⟩]
    dsimp only
    rcases h with ⟨rest, rfl, h⟩ | ⟨hne, h⟩
    · exact tokensFrom_of_lexes h
    · split
      · exact absurd rfl hne
      · exact tokensFrom_of_lexes h

end Spreadsheet
