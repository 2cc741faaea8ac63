import Spreadsheet.Proofs.Numerals.Wholes
import Spreadsheet.Proofs.Wildcards.Matching

/-!
Pieces of text. The functions that cut a text into pieces count its characters alike: neighbouring
pieces make up the text again, and the place where a text is found is the first where cutting gives
it back. Positions behind the text are read as such however great they are.
-/

namespace Spreadsheet

variable {scope : Scope} {source : Source}

namespace Text

open Number (toNat64)

/-! ### Arguments -/

theorem charsAt_eq {args : List Argument} {vs : List Value} (h : AreArguments args vs)
    (hi : vs[i]? = some (.text s)) : charsAt args i = .ok s.toList := by
  rw [charsAt, h.textAt hi]
  rfl

theorem countAt_eq {args : List Argument} {vs : List Value} {v : Value}
    (h : AreArguments args vs) (hi : vs[i]? = some v) (hv : v ≠ .text "") (hx : v.toNumber = .ok x)
    (d : Float) : countAt args i d = .ok (Number.truncate x) := by
  rw [countAt, h.givenAt?, hi]
  split
  · next hnone => cases hnone
  · next hempty =>
    cases hempty
    exact absurd rfl hv
  · next hgiven =>
    cases hgiven
    rw [hx]
    rfl

theorem countAt_whole {args : List Argument} {vs : List Value} (h : AreArguments args vs)
    (hi : vs[i]? = some (.number (Float.ofNat n))) (d : Float) :
    countAt args i d = .ok (Float.ofNat n) := by
  rw [countAt_eq h hi nofun rfl, Number.truncate_whole]

/-! ### Counts and positions of any size -/

theorem charsBefore_of_one_le {start : Float} (h : 1 ≤ start) :
    charsBefore start + 1 = toNat64 start := by
  have hone : 1 ≤ toNat64 start := (ofNat_le_iff Nat.one_pos (by decide) start).1 h
  have hle : 1 ≤ start.toUInt64 := UInt64.le_iff_toNat_le.2 hone
  rw [charsBefore, UInt64.toNat_sub_of_le _ _ hle]
  exact Nat.sub_add_cancel hone

theorem min_toNat64 {length : Nat} (h : length ≤ 2 ^ 53) (n : Nat) :
    min (toNat64 (Float.ofNat n)) length = min n length := by
  by_cases hn : n ≤ 2 ^ 53
  · rw [Number.toNat64_whole hn]
  · have hgreat := Number.le_toNat64_whole (n := n) (by omega)
    omega

theorem min_charsBefore {length p : Nat} (h : length < 2 ^ 53) (hp : 1 ≤ p) :
    min (charsBefore (Float.ofNat p)) length = min (p - 1) length := by
  have hone : charsBefore (Float.ofNat p) + 1 = toNat64 (Float.ofNat p) :=
    charsBefore_of_one_le (ofNat_le_ofNat hp)
  have hmin : min (toNat64 (Float.ofNat p)) (length + 1) = min p (length + 1) := min_toNat64 h p
  omega

theorem take_toNat64 {cs : List Char} (h : cs.length ≤ 2 ^ 53) (n : Nat) :
    cs.take (toNat64 (Float.ofNat n)) = cs.take n :=
  List.take_eq_take_iff.2 (min_toNat64 h n)

theorem drop_toNat64 {cs : List Char} (h : cs.length ≤ 2 ^ 53) (n : Nat) :
    cs.drop (toNat64 (Float.ofNat n)) = cs.drop n :=
  List.drop_eq_drop_iff.2 (min_toNat64 h n)

theorem take_charsBefore {cs : List Char} {p : Nat} (h : cs.length < 2 ^ 53) (hp : 1 ≤ p) :
    cs.take (charsBefore (Float.ofNat p)) = cs.take (p - 1) :=
  List.take_eq_take_iff.2 (min_charsBefore h hp)

theorem drop_charsBefore {cs : List Char} {p : Nat} (h : cs.length < 2 ^ 53) (hp : 1 ≤ p) :
    cs.drop (charsBefore (Float.ofNat p)) = cs.drop (p - 1) :=
  List.drop_eq_drop_iff.2 (min_charsBefore h hp)

/-! ### Functions -/

section

variable {args : List Argument} {cs new : List Char} {n p : Nat}

theorem left_eq (hcs : charsAt args 0 = .ok cs) (hn : countAt args 1 1 = .ok (Float.ofNat n))
    (h : cs.length ≤ 2 ^ 53) : left args = .ok (.text (String.ofList (cs.take n))) := by
  rw [left, hcs, ← take_toNat64 h]
  dsimp only [bind, Except.bind]
  rw [hn]
  dsimp only
  rw [if_neg (Number.not_whole_lt_zero n)]
  rfl

theorem right_eq (hcs : charsAt args 0 = .ok cs) (hn : countAt args 1 1 = .ok (Float.ofNat n))
    (h : n ≤ 2 ^ 53) : right args = .ok (.text (String.ofList (cs.drop (cs.length - n)))) := by
  rw [right, hcs]
  dsimp only [bind, Except.bind]
  rw [hn]
  dsimp only
  rw [if_neg (Number.not_whole_lt_zero n), Number.toNat64_whole h]
  rfl

theorem not_outside (hp : 1 ≤ p) (n : Nat) :
    (decide (Float.ofNat p < 1) || decide (Float.ofNat n < 0)) = false := by
  have hone : ¬ Float.ofNat p < 1 := not_ofNat_lt Nat.one_pos hp
  rw [decide_eq_false hone, decide_eq_false (Number.not_whole_lt_zero n)]
  rfl

theorem mid_eq (hcs : charsAt args 0 = .ok cs) (hp : countAt args 1 1 = .ok (Float.ofNat p))
    (hn : countAt args 2 0 = .ok (Float.ofNat n)) (hone : 1 ≤ p) (h : cs.length < 2 ^ 53) :
    mid args = .ok (.text (String.ofList ((cs.drop (p - 1)).take n))) := by
  rw [mid, hcs]
  dsimp only [bind, Except.bind]
  rw [hp, hn]
  dsimp only
  rw [not_outside hone, drop_charsBefore h hone, take_toNat64]
  · rfl
  · rw [List.length_drop]
    omega

theorem replace_eq (hcs : charsAt args 0 = .ok cs) (hp : countAt args 1 1 = .ok (Float.ofNat p))
    (hn : countAt args 2 0 = .ok (Float.ofNat n)) (hnew : charsAt args 3 = .ok new)
    (hone : 1 ≤ p) (h : cs.length < 2 ^ 53) :
    replace args = .ok (.text (String.ofList
      (cs.take (p - 1) ++ new ++ (cs.drop (p - 1)).drop n))) := by
  rw [replace, hcs]
  dsimp only [bind, Except.bind]
  rw [hp, hn, hnew]
  dsimp only
  rw [not_outside hone, take_charsBefore h hone, drop_charsBefore h hone, drop_toNat64]
  · rfl
  · rw [List.length_drop]
    omega

end

/-! ### Finding -/

/-- A text stands in another behind so many characters. -/
def StandsAt (piece cs : List Char) (i : Nat) : Prop := (cs.drop i).take piece.length = piece

theorem standsAt_zero_iff {piece cs : List Char} :
    StandsAt piece cs 0 ↔ piece.isPrefixOf cs = true := by
  rw [List.isPrefixOf_iff_prefix, List.prefix_iff_eq_take]
  exact eq_comm

theorem not_standsAt_nil {piece : List Char} (h : piece ≠ []) (i : Nat) :
    ¬ StandsAt piece [] i := by
  rw [StandsAt, List.drop_nil, List.take_nil]
  exact Ne.symm h

theorem findPiece?_eq_none_iff {piece cs : List Char} :
    findPiece? piece cs = none ↔ ∀ i, ¬ StandsAt piece cs i := by
  induction cs with
  | nil =>
    cases piece with
    | nil => exact ⟨nofun, fun h => absurd rfl (h 0)⟩
    | cons c piece => exact ⟨fun _ => not_standsAt_nil (List.cons_ne_nil _ _), fun _ => rfl⟩
  | cons c cs ih =>
    rw [findPiece?]
    split
    · next hprefix => exact ⟨nofun, fun h => absurd (standsAt_zero_iff.2 hprefix) (h 0)⟩
    · next hprefix =>
      rw [Option.map_eq_none_iff, ih]
      constructor
      · intro h i
        cases i with
        | zero => exact fun hstands => hprefix (standsAt_zero_iff.1 hstands)
        | succ i => exact h i
      · exact fun h i => h (i + 1)

theorem findPiece?_eq_some {piece cs : List Char} {i : Nat} (h : findPiece? piece cs = some i) :
    i ≤ cs.length ∧ StandsAt piece cs i ∧ ∀ j < i, ¬ StandsAt piece cs j := by
  induction cs generalizing i with
  | nil =>
    cases piece with
    | nil =>
      cases h
      exact ⟨Nat.le_refl 0, rfl, nofun⟩
    | cons c piece => cases h
  | cons c cs ih =>
    rw [findPiece?] at h
    split at h
    · next hprefix =>
      cases h
      exact ⟨Nat.zero_le _, standsAt_zero_iff.2 hprefix, nofun⟩
    · next hprefix =>
      obtain ⟨k, hk, rfl⟩ := Option.map_eq_some_iff.1 h
      obtain ⟨hle, hstands, hfirst⟩ := ih hk
      refine ⟨Nat.succ_le_succ hle, hstands, fun j hj => ?_⟩
      cases j with
      | zero => exact fun hstands => hprefix (standsAt_zero_iff.1 hstands)
      | succ j => exact hfirst j (Nat.lt_of_succ_lt_succ hj)

theorem standsAt_drop {piece cs : List Char} (k i : Nat) :
    StandsAt piece (cs.drop k) i ↔ StandsAt piece cs (k + i) := by
  rw [StandsAt, StandsAt, List.drop_drop]

/-- Whether and where a text stands from a position on. -/
theorem findPiece?_drop (piece cs : List Char) {q : Nat} (hq : 1 ≤ q) :
    (findPiece? piece (cs.drop (q - 1)) = none ↔ ∀ p, q ≤ p → ¬ StandsAt piece cs (p - 1)) ∧
    ∀ p, q ≤ p → StandsAt piece cs (p - 1) →
      (∀ r, q ≤ r → r < p → ¬ StandsAt piece cs (r - 1)) →
      findPiece? piece (cs.drop (q - 1)) = some (p - q) := by
  have hplace (i : Nat) : StandsAt piece (cs.drop (q - 1)) i ↔ StandsAt piece cs (q + i - 1) := by
    rw [standsAt_drop, Nat.sub_add_comm hq]
  constructor
  · rw [findPiece?_eq_none_iff]
    constructor
    · intro h p hp
      obtain ⟨i, rfl⟩ := Nat.exists_eq_add_of_le hp
      exact fun hstands => h i ((hplace i).2 hstands)
    · exact fun h i hstands => h (q + i) (Nat.le_add_right q i) ((hplace i).1 hstands)
  · intro p hp hstands hfirst
    obtain ⟨i, rfl⟩ := Nat.exists_eq_add_of_le hp
    rw [Nat.add_sub_cancel_left]
    cases hfound : findPiece? piece (cs.drop (q - 1)) with
    | none => exact absurd ((hplace i).2 hstands) (findPiece?_eq_none_iff.1 hfound i)
    | some j =>
      obtain ⟨-, hstands', hfirst'⟩ := findPiece?_eq_some hfound
      rcases Nat.lt_trichotomy i j with hlt | rfl | hgt
      · exact absurd ((hplace i).2 hstands) (hfirst' i hlt)
      · rfl
      · exact absurd ((hplace j).1 hstands') (hfirst (q + j) (by omega) (by omega))

section

variable {args : List Argument} {piece within : List Char} {q : Nat}

theorem find_eq (hpiece : charsAt args 0 = .ok piece) (hwithin : charsAt args 1 = .ok within)
    (hq : countAt args 2 1 = .ok (Float.ofNat q)) (hone : 1 ≤ q) (hlast : q ≤ max within.length 1)
    (h : within.length < 2 ^ 53) :
    find args = (orError .value (findPiece? piece (within.drop (q - 1)))).map
      fun found => Float.ofNat (q + found) := by
  have hskipped : min (q - 1) within.length = q - 1 := by omega
  have hposition (n : Nat) : q - 1 + n + 1 = q + n := by omega
  rw [find, position, hpiece, hwithin]
  dsimp only [bind, Except.bind]
  rw [startAt_eq hq (Number.toNat64_whole (by omega)) hone hlast]
  dsimp only
  rw [hskipped]
  simp only [hposition]
  cases findPiece? piece (within.drop (q - 1)) <;> rfl

end

/-! ### Calls -/

/-- The functions of pieces are the built-in ones. -/
def HasPieces (scope : Scope) : Prop :=
  ∀ name ∈ ["LEN", "LEFT", "RIGHT", "MID", "REPLACE", "FIND"],
    scope.functions.find? name = Registry.find? builtins name

section

variable {text new count start : Expr} {s t : String} {n p : Nat}

theorem evaluates_len (hpieces : HasPieces scope) (htext : text.Reads scope source (.text s))
    (hs : s.length < 2 ^ 53) :
    (Expr.call "LEN" [text]).Evaluates scope source (.number (Float.ofNat s.length)) := by
  have hfind : scope.functions.find? "LEN" = some (.ofNumbers "LEN" .text 1 (some 1) len) :=
    hpieces "LEN" (by decide)
  have hlen (args : List Argument) (hargs : AreArguments args [.text s]) :
      Value.number <$> len args = .ok (.number (Float.ofNat s.length)) := by
    rw [len, charsAt_eq hargs rfl]
    rfl
  have hcall := evaluates_call hfind rfl rfl (.cons htext .nil) (by simp [Value.isPlain]) hlen
  have hfinite : (Float.ofNat s.length).isFinite = true := isFinite_ofNat (Nat.le_of_lt hs)
  change (Expr.call "LEN" [text]).Evaluates scope source
    (if (Float.ofNat s.length).isFinite then _ else _) at hcall
  rwa [if_pos hfinite] at hcall

theorem evaluates_left (hpieces : HasPieces scope) (htext : text.Reads scope source (.text s))
    (hcount : count.Reads scope source (.number (Float.ofNat n))) (hs : s.length < 2 ^ 53) :
    (Expr.call "LEFT" [text, count]).Evaluates scope source
      (.text (String.ofList (s.toList.take n))) := by
  have hfind : scope.functions.find? "LEFT" = some (.ofValues "LEFT" .text 1 (some 2) left) :=
    hpieces "LEFT" (by decide)
  exact evaluates_call hfind rfl rfl (.cons htext (.cons hcount .nil)) (by simp [Value.isPlain])
    fun args hargs => left_eq (charsAt_eq hargs rfl) (countAt_whole hargs rfl 1) (Nat.le_of_lt hs)

theorem evaluates_right (hpieces : HasPieces scope) (htext : text.Reads scope source (.text s))
    (hcount : count.Reads scope source (.number (Float.ofNat n))) (hn : n ≤ 2 ^ 53) :
    (Expr.call "RIGHT" [text, count]).Evaluates scope source
      (.text (String.ofList (s.toList.drop (s.length - n)))) := by
  have hfind : scope.functions.find? "RIGHT" = some (.ofValues "RIGHT" .text 1 (some 2) right) :=
    hpieces "RIGHT" (by decide)
  exact evaluates_call hfind rfl rfl (.cons htext (.cons hcount .nil)) (by simp [Value.isPlain])
    fun args hargs => right_eq (charsAt_eq hargs rfl) (countAt_whole hargs rfl 1) hn

theorem evaluates_mid (hpieces : HasPieces scope) (htext : text.Reads scope source (.text s))
    (hstart : start.Reads scope source (.number (Float.ofNat p)))
    (hcount : count.Reads scope source (.number (Float.ofNat n))) (hp : 1 ≤ p)
    (hs : s.length < 2 ^ 53) :
    (Expr.call "MID" [text, start, count]).Evaluates scope source
      (.text (String.ofList ((s.toList.drop (p - 1)).take n))) := by
  have hfind : scope.functions.find? "MID" = some (.ofValues "MID" .text 3 (some 3) mid) :=
    hpieces "MID" (by decide)
  exact evaluates_call hfind rfl rfl (.cons htext (.cons hstart (.cons hcount .nil)))
    (by simp [Value.isPlain]) fun args hargs => mid_eq (charsAt_eq hargs rfl)
      (countAt_whole hargs rfl 1) (countAt_whole hargs rfl 0) hp hs

theorem evaluates_replace (hpieces : HasPieces scope) (htext : text.Reads scope source (.text s))
    (hstart : start.Reads scope source (.number (Float.ofNat p)))
    (hcount : count.Reads scope source (.number (Float.ofNat n)))
    (hnew : new.Reads scope source (.text t)) (hp : 1 ≤ p) (hs : s.length < 2 ^ 53) :
    (Expr.call "REPLACE" [text, start, count, new]).Evaluates scope source
      (.text (String.ofList (s.toList.take (p - 1) ++ t.toList ++
        (s.toList.drop (p - 1)).drop n))) := by
  have hfind : scope.functions.find? "REPLACE" =
      some (.ofValues "REPLACE" .text 4 (some 4) replace) := hpieces "REPLACE" (by decide)
  exact evaluates_call hfind rfl rfl
    (.cons htext (.cons hstart (.cons hcount (.cons hnew .nil)))) (by simp [Value.isPlain])
    fun args hargs => replace_eq (charsAt_eq hargs rfl) (countAt_whole hargs rfl 1)
      (countAt_whole hargs rfl 0) (charsAt_eq hargs rfl) hp hs

theorem evaluates_find (hpieces : HasPieces scope) (hnew : new.Reads scope source (.text t))
    (htext : text.Reads scope source (.text s))
    (hstart : start.Reads scope source (.number (Float.ofNat p))) (hp : 1 ≤ p)
    (hlast : p ≤ max s.length 1) (hs : s.length < 2 ^ 53) :
    (Expr.call "FIND" [new, text, start]).Evaluates scope source
      (match findPiece? t.toList (s.toList.drop (p - 1)) with
      | some n => .number (Float.ofNat (p + n))
      | none => .error .value) := by
  have hfind : scope.functions.find? "FIND" = some (.ofNumbers "FIND" .text 2 (some 3) find) :=
    hpieces "FIND" (by decide)
  have hcall := evaluates_call hfind rfl rfl (.cons hnew (.cons htext (.cons hstart .nil)))
    (by simp [Value.isPlain]) fun args hargs => congrArg (Except.map Value.number)
      (find_eq (charsAt_eq hargs rfl) (charsAt_eq hargs rfl) (countAt_whole hargs rfl 1) hp hlast
        hs)
  cases hfound : findPiece? t.toList (s.toList.drop (p - 1)) with
  | none =>
    rw [hfound] at hcall
    exact hcall
  | some n =>
    obtain ⟨hle, -⟩ := findPiece?_eq_some hfound
    rw [List.length_drop, String.length_toList] at hle
    have hfinite : (Float.ofNat (p + n)).isFinite = true := isFinite_ofNat (by omega)
    rw [hfound] at hcall
    change (Expr.call "FIND" [new, text, start]).Evaluates scope source
      (if (Float.ofNat (p + n)).isFinite then _ else _) at hcall
    rwa [if_pos hfinite] at hcall

/-- The piece of a text at a position that is as long as another text. -/
def pieceAt (text new : Expr) (p : Nat) : Expr :=
  .call "MID" [text, .literal (.number (Float.ofNat p)), .call "LEN" [new]]

theorem evaluates_pieceAt_iff (hpieces : HasPieces scope)
    (htext : text.Reads scope source (.text s)) (hnew : new.Reads scope source (.text t))
    (hp : 1 ≤ p) (hs : s.length < 2 ^ 53) (ht : t.length < 2 ^ 53) :
    (pieceAt text new p).Evaluates scope source (.text t) ↔
      StandsAt t.toList s.toList (p - 1) := by
  have hlength : (Expr.call "LEN" [new]).Reads scope source (.number (Float.ofNat t.length)) :=
    (evaluates_len hpieces hnew ht).reads_number
  have hmid := evaluates_mid hpieces htext (Expr.reads_number _) hlength hp hs
  rw [pieceAt, Expr.Evaluates, hmid, StandsAt, String.length_toList]
  constructor
  · intro h
    have htext := Value.text.inj (Except.ok.inj h)
    exact String.toList_ofList.symm.trans (congrArg String.toList htext)
  · intro h
    rw [h, String.ofList_toList]

end

/-- Positions in texts agree, and count characters. The characters that are left of a place and
those that are right of it are the text. So are the characters before a piece, the piece and what
comes behind it, and replacing the piece changes just it. A text is found at the first position from
which as many characters are it, and an error tells that there is none. Counts and positions are
whole numbers of any size, each read as the float nearest to it. Lengths are whole numbers that
floats tell exactly, as those of all texts that fit into a memory. -/
theorem pieces_agree {text new : Expr} {s t : String} (hpieces : HasPieces scope)
    (htext : text.Reads scope source (.text s)) (hnew : new.Reads scope source (.text t))
    (hs : s.length < 2 ^ 53) (ht : t.length < 2 ^ 53) :
    (∀ (k : Nat) (count rest : Expr), count.Reads scope source (.number (Float.ofNat k)) →
      rest.Reads scope source (.number (Float.ofNat (s.length - k))) →
      ∃ a b, (Expr.call "LEFT" [text, count]).Evaluates scope source (.text a) ∧
        (Expr.call "RIGHT" [text, rest]).Evaluates scope source (.text b) ∧ a ++ b = s) ∧
    (∀ (p n : Nat) (start count before behind : Expr), 1 ≤ p →
      start.Reads scope source (.number (Float.ofNat p)) →
      count.Reads scope source (.number (Float.ofNat n)) →
      before.Reads scope source (.number (Float.ofNat (p - 1))) →
      behind.Reads scope source (.number (Float.ofNat (p + n))) →
      ∃ a b c, (Expr.call "LEFT" [text, before]).Evaluates scope source (.text a) ∧
        (Expr.call "MID" [text, start, count]).Evaluates scope source (.text b) ∧
        (Expr.call "MID" [text, behind, .call "LEN" [text]]).Evaluates scope source (.text c) ∧
        a ++ b ++ c = s ∧
        (Expr.call "REPLACE" [text, start, count, new]).Evaluates scope source
          (.text (a ++ t ++ c))) ∧
    ∀ (q : Nat) (start : Expr), 1 ≤ q → q ≤ max s.length 1 →
      start.Reads scope source (.number (Float.ofNat q)) →
      (∀ p, q ≤ p → (pieceAt text new p).Evaluates scope source (.text t) →
        (∀ r, q ≤ r → r < p → ¬ (pieceAt text new r).Evaluates scope source (.text t)) →
        (Expr.call "FIND" [new, text, start]).Evaluates scope source (.number (Float.ofNat p))) ∧
      ((Expr.call "FIND" [new, text, start]).Evaluates scope source (.error .value) ↔
        ∀ p, q ≤ p → ¬ (pieceAt text new p).Evaluates scope source (.text t)) := by
  refine ⟨?_, ?_, ?_⟩
  · intro k count rest hcount hrest
    refine ⟨_, _, evaluates_left hpieces htext hcount hs,
      evaluates_right hpieces htext hrest (by omega), ?_⟩
    have hdrop : s.toList.drop (s.length - (s.length - k)) = s.toList.drop k := by
      rw [List.drop_eq_drop_iff, String.length_toList]
      omega
    rw [hdrop, ← String.ofList_append, List.take_append_drop, String.ofList_toList]
  · intro p n start count before behind hp hstart hcount hbefore hbehind
    have hlength := (evaluates_len hpieces htext hs).reads_number
    have hreplace := evaluates_replace hpieces htext hstart hcount hnew hp hs
    have hrest : ((s.toList.drop (p + n - 1)).take s.length) = (s.toList.drop (p - 1)).drop n := by
      rw [List.take_of_length_le, List.drop_drop, Nat.sub_add_comm hp]
      rw [List.length_drop, String.length_toList]
      omega
    refine ⟨_, _, _, evaluates_left hpieces htext hbefore hs,
      evaluates_mid hpieces htext hstart hcount hp hs,
      evaluates_mid hpieces htext hbehind hlength (by omega) hs, ?_, ?_⟩
    · rw [hrest, ← String.ofList_append, ← String.ofList_append, List.append_assoc,
        List.take_append_drop, List.take_append_drop, String.ofList_toList]
    · rw [String.ofList_append, String.ofList_append, String.ofList_toList] at hreplace
      rwa [hrest]
  · intro q start hq hlast hstart
    have hfind := evaluates_find hpieces hnew htext hstart hq hlast hs
    have hpiece (p : Nat) (hp : q ≤ p) : (pieceAt text new p).Evaluates scope source (.text t) ↔
        StandsAt t.toList s.toList (p - 1) :=
      evaluates_pieceAt_iff hpieces htext hnew (by omega) hs ht
    obtain ⟨hnone, hfirst⟩ := findPiece?_drop t.toList s.toList hq
    constructor
    · intro p hp hstands hleast
      have hfound := hfirst p hp ((hpiece p hp).1 hstands) fun r hr hlt h =>
        hleast r hr hlt ((hpiece r hr).2 h)
      rw [hfound] at hfind
      dsimp only at hfind
      rwa [Nat.add_sub_cancel' hp] at hfind
    · have herror : (Expr.call "FIND" [new, text, start]).Evaluates scope source (.error .value) ↔
          findPiece? t.toList (s.toList.drop (q - 1)) = none := by
        rw [Expr.Evaluates, hfind]
        cases findPiece? t.toList (s.toList.drop (q - 1)) with
        | none => exact ⟨fun _ => rfl, fun _ => rfl⟩
        | some n =>
          constructor
          · intro h
            cases h
          · intro h
            cases h
      rw [herror, hnone]
      exact forall_congr' fun p => imp_congr_right fun hp => not_congr (hpiece p hp).symm

theorem pieces_agree_accent :
    HasPieces ((Engine.new .zero [] []).scope none) ∧ "lélé".length < 2 ^ 53 ∧
    (∃ a b, (Expr.call "LEFT" [.literal (.text "lélé"), .literal (.number 3)]).Evaluates
        ((Engine.new .zero [] []).scope none) Source.zero (.text a) ∧
      (Expr.call "RIGHT" [.literal (.text "lélé"), .literal (.number 1)]).Evaluates
        ((Engine.new .zero [] []).scope none) Source.zero (.text b) ∧ a ++ b = "lélé") ∧
    (Expr.call "FIND" [.literal (.text "é"), .literal (.text "lélé"),
      .literal (.number 3)]).Evaluates ((Engine.new .zero [] []).scope none) Source.zero
        (.number 4) := by
  have hpieces : HasPieces ((Engine.new .zero [] []).scope none) := fun _ _ => rfl
  have htext : (Expr.literal (.text "lélé")).Reads ((Engine.new .zero [] []).scope none)
      Source.zero (.text "lélé") := rfl
  have hnew : (Expr.literal (.text "é")).Reads ((Engine.new .zero [] []).scope none)
      Source.zero (.text "é") := rfl
  obtain ⟨hsides, -, hfind⟩ := pieces_agree hpieces htext hnew (by decide) (by decide)
  refine ⟨hpieces, by decide, hsides 3 _ _ rfl rfl, ?_⟩
  obtain ⟨hfound, -⟩ := hfind 3 (.literal (.number 3)) (by decide) (by decide) rfl
  have hpiece (p : Nat) (hp : 1 ≤ p) :=
    evaluates_pieceAt_iff hpieces htext hnew hp (by decide) (by decide)
  refine hfound 4 (by decide) ((hpiece 4 (by decide)).2 rfl) fun r hr hlt h => ?_
  obtain rfl : r = 3 := by omega
  exact absurd ((hpiece 3 (by decide)).1 h) (by rw [StandsAt]; decide)

end Text

end Spreadsheet
