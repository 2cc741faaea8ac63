import Spreadsheet.Proofs.Lexing.Addresses

/-!
The text of a shared formula, rewritten from its head on. What stands before a character decides
only whether a name goes on there.
-/

namespace Spreadsheet.SharedFormula

variable {rows cols : Int} {before : Option Char} {c : Char} {cs rest w : List Char}

/-- What takes the place of an address that stands between two characters. -/
def Spelling.moved (rows cols : Int) (before after : Option Char) (s : Spelling) : List Char :=
  match s.address? with
  | some a => if isPartOfName before after then s.write else movedText rows cols a
  | none => s.write

theorem moveAddresses_nil : moveAddresses rows cols before [] = [] := by
  rw [moveAddresses]
  rfl

theorem moveAddresses_of_some (h : Spelling.take? cs = some (s, rest)) :
    moveAddresses rows cols before cs =
      s.moved rows cols before rest.head? ++ moveAddresses rows cols s.digits.getLast? rest := by
  rw [moveAddresses]
  split
  · next s' rest' h' =>
    rw [h] at h'
    cases h'
    rfl
  · next h' =>
    rw [h] at h'
    cases h'

theorem moveAddresses_of_none (h : Spelling.take? (c :: cs) = none) :
    moveAddresses rows cols before (c :: cs) = c :: moveAddresses rows cols (some c) cs := by
  rw [moveAddresses]
  split
  · next s' rest' h' =>
    rw [h] at h'
    cases h'
  · rfl

/-- The text after the character `before`, which is in no quotes. -/
def moveFrom (rows cols : Int) (before : Option Char) (cs : List Char) : List Char :=
  moveAddresses rows cols before (cs.takeWhile (!isQuote ·)) ++
    match cs.dropWhile (!isQuote ·) with
    | [] => []
    | quote :: rest =>
      quote :: (takeQuoted quote rest).1 ++ moveOutsideQuotes rows cols (takeQuoted quote rest).2

theorem moveOutsideQuotes_eq (cs : List Char) :
    moveOutsideQuotes rows cols cs = moveFrom rows cols none cs := by
  rw [moveOutsideQuotes, moveFrom]
  congr 1
  split
  · next h => rw [h]
  · next quote rest h => rw [h]

theorem eq_of_isQuote (hc : isQuote c = true) : c = '"' ∨ c = '\x27' := by
  rwa [isQuote, Bool.or_eq_true, beq_iff_eq, beq_iff_eq] at hc

theorem isQuote_of_continuesIdent (hc : Lexer.continuesIdent c = true) : isQuote c = false := by
  cases hq : isQuote c with
  | false => rfl
  | true => rcases eq_of_isQuote hq with rfl | rfl <;> cases hc

theorem takeWhile_cons_quote (hc : isQuote c = true) (cs : List Char) :
    (c :: cs).takeWhile (!isQuote ·) = [] ∧ (c :: cs).dropWhile (!isQuote ·) = c :: cs := by
  have hneg : ¬ (!isQuote c) = true := by
    rw [hc]
    decide
  exact ⟨List.takeWhile_cons_of_neg hneg, List.dropWhile_cons_of_neg hneg⟩

theorem takeWhile_append_plain (hw : ∀ c ∈ w, isQuote c = false) (rest : List Char) :
    (w ++ rest).takeWhile (!isQuote ·) = w ++ rest.takeWhile (!isQuote ·) ∧
      (w ++ rest).dropWhile (!isQuote ·) = rest.dropWhile (!isQuote ·) := by
  have hpos : ∀ c ∈ w, (!isQuote c) = true := by
    intro c hc
    rw [hw c hc]
    rfl
  exact ⟨List.takeWhile_append_of_pos hpos, List.dropWhile_append_of_pos hpos⟩

/-- A quote goes on with no name. -/
theorem isPartOfName_takeWhile (before : Option Char) (cs : List Char) :
    isPartOfName before (cs.takeWhile (!isQuote ·)).head? = isPartOfName before cs.head? := by
  have hquote : ∀ c ∈ ['"', '\x27'], (continuesName c || c == '!' || c == '(') = false :=
    forall_mem_of_all (by decide)
  rw [List.head?_takeWhile]
  cases cs with
  | nil => rfl
  | cons c cs =>
    cases hc : isQuote c with
    | false => simp [Option.filter, hc]
    | true =>
      have hc' := hquote c (by rcases eq_of_isQuote hc with rfl | rfl <;> decide)
      simp [isPartOfName, Option.filter, hc, hc']

theorem Spelling.Valid.isQuote {s : Spelling} (hs : s.Valid) :
    ∀ c ∈ s.write, SharedFormula.isQuote c = false :=
  fun c hc => isQuote_of_continuesIdent (hs.continuesIdent c hc)

theorem moveFrom_nil : moveFrom rows cols before [] = [] := by
  rw [moveFrom]
  exact congrArg (· ++ []) moveAddresses_nil

theorem moveFrom_quote (hc : isQuote c = true) :
    moveFrom rows cols before (c :: cs) =
      c :: (takeQuoted c cs).1 ++ moveFrom rows cols none (takeQuoted c cs).2 := by
  obtain ⟨htake, hdrop⟩ := takeWhile_cons_quote hc cs
  rw [moveFrom, htake, hdrop, moveAddresses_nil, ← moveOutsideQuotes_eq]
  rfl

theorem moveFrom_of_some (h : Spelling.take? cs = some (s, rest)) :
    moveFrom rows cols before cs =
      s.moved rows cols before rest.head? ++ moveFrom rows cols s.digits.getLast? rest := by
  obtain ⟨hs, rfl, hrest⟩ := Spelling.take?_eq_some_iff.1 h
  obtain ⟨htake, hdrop⟩ := takeWhile_append_plain hs.isQuote rest
  have hplain : Spelling.take? (s.write ++ rest.takeWhile (!isQuote ·)) =
      some (s, rest.takeWhile (!isQuote ·)) := by
    refine Spelling.take?_eq_some_iff.2 ⟨hs, rfl, fun c hc => hrest c ?_⟩
    rw [List.head?_takeWhile] at hc
    exact (Option.mem_filter_iff.1 hc).1
  rw [moveFrom, moveFrom, htake, hdrop, moveAddresses_of_some hplain, Spelling.moved,
    Spelling.moved, isPartOfName_takeWhile, List.append_assoc]

theorem moveFrom_of_none (hc : isQuote c = false) (h : Spelling.take? (c :: cs) = none) :
    moveFrom rows cols before (c :: cs) = c :: moveFrom rows cols (some c) cs := by
  obtain ⟨htake, hdrop⟩ := takeWhile_append_plain (w := [c]) (by simpa using hc) cs
  have hplain : Spelling.take? (c :: cs.takeWhile (!isQuote ·)) = none := by
    cases hsome : Spelling.take? (c :: cs.takeWhile (!isQuote ·)) with
    | none => rfl
    | some p =>
      obtain ⟨s, r⟩ := p
      obtain ⟨hs, hr, hhead⟩ := Spelling.take?_eq_some_iff.1 hsome
      have hall : Spelling.take? (c :: cs) = some (s, r ++ cs.dropWhile (!isQuote ·)) := by
        refine Spelling.take?_eq_some_iff.2 ⟨hs, ?_, fun d hd => ?_⟩
        · rw [← List.append_assoc, ← hr, List.cons_append, List.takeWhile_append_dropWhile]
        · cases r with
          | cons e r => exact hhead d hd
          | nil =>
            have hquote := (span_eq_iff.1 (List.span_eq_takeWhile_dropWhile _ _)).2.2 d hd
            rcases eq_of_isQuote (c := d) (by simpa using hquote) with rfl | rfl <;> rfl
      rw [h] at hall
      cases hall
  rw [moveFrom, moveFrom, ← List.singleton_append, htake, hdrop, List.singleton_append,
    moveAddresses_of_none hplain]
  rfl

end Spreadsheet.SharedFormula
