import Spreadsheet.Criterion
import Spreadsheet.Function.Lookup
import Spreadsheet.Function.Text
import Spreadsheet.Proofs.Comparing.Naturals
import Spreadsheet.Proofs.Outcome
import Spreadsheet.Proofs.Wildcards.Splitting

/-!
Where wildcard patterns are used: criteria and lookups match whole texts, and a search finds the
first place from which some piece of a text matches.
-/

namespace Spreadsheet

/-! ### Criteria -/

namespace Criterion

/-- Equality with a text that stays one is a pattern unless the text is empty. -/
theorem equalTo_text {s : String} (hne : s ≠ "") (hs : operandOf s = .text s) :
    equalTo s.toList = pattern (Pattern.parse s.toList) := by
  have hempty : s.toList.isEmpty = false := by
    rw [List.isEmpty_eq_false_iff]
    exact fun h => hne (String.toList_eq_nil_iff.1 h)
  rw [equalTo, String.ofList_toList, hs]
  dsimp only
  rw [hempty]
  rfl

theorem ofValue_equal {v : Value} {s : String} (hv : v.scalar = .text ("=" ++ s)) :
    ofValue v = equalTo s.toList := by
  have htoList : ("=" ++ s).toList = '=' :: s.toList := String.toList_append ..
  rw [ofValue, hv]
  dsimp only
  rw [htoList]
  rfl

/-- A text with a comparison operator at its head is no pattern unless that is an equals sign. -/
theorem ofValue_bare {v : Value} {s : String} (hv : v.scalar = .text s)
    (hs : takeComparison s.toList = none) : ofValue v = equalTo s.toList := by
  rw [ofValue, hv]
  dsimp only
  rw [hs]

theorem holds_pattern_iff {v : Value} {s : String} :
    (pattern (Pattern.parse s.toList)).holds v = true ↔
      ∃ t, v = .text t ∧ Pattern.Matches s.toList t.toList := by
  cases v with
  | text t =>
    rw [holds, Pattern.holds_parse_iff]
    refine ⟨fun h => ⟨t, rfl, h⟩, ?_⟩
    rintro ⟨_, heq, h⟩
    cases heq
    exact h
  | _ =>
    constructor
    · intro h
      cases h
    · rintro ⟨_, heq, -⟩
      cases heq

end Criterion

/-! ### Lookups -/

theorem orError_map_eq_error {x : Option α} {f : α → β} {e : ErrorValue} :
    (orError e x).map f = .error e ↔ x = none := by
  cases x with
  | none => exact ⟨fun _ => rfl, fun _ => rfl⟩
  | some a => exact ⟨nofun, nofun⟩

/-- A lookup of a text takes the values that the criterion with the pattern takes. -/
theorem Lookup.equals_text (s : String) (v : Value) :
    Lookup.equals (.text s) v = (Criterion.pattern (Pattern.parse s.toList)).holds v := by
  cases v <;> rfl

theorem Lookup.equals_text_iff {v : Value} {s : String} :
    Lookup.equals (.text s) v = true ↔ ∃ t, v = .text t ∧ Pattern.Matches s.toList t.toList := by
  rw [Lookup.equals_text, Criterion.holds_pattern_iff]

/-- What is looked up in a row or column, and how. -/
theorem Lookup.position_of_line {args : List Argument} {v w : Value} {values : List Value}
    {type : Float} (hlookup : valueAt args 0 = .ok v) (hcells : valueAt args 1 = .ok w)
    (hline : line? w.toRows = some values) (htype : numberAtOr args 2 1 = .ok type) :
    position args =
      (orError .notAvailable (if type == 0 then values.findIdx? (equals v.scalar)
        else lastBefore v.scalar (if 0 < type then .gt else .lt) values)).map
        fun i => Float.ofNat (i + 1) := by
  rw [position, hlookup, hcells]
  dsimp only [bind, Except.bind]
  rw [hline, htype]
  dsimp only [orError]
  generalize (if (type == 0) = true then values.findIdx? (equals v.scalar)
    else lastBefore v.scalar (if 0 < type then .gt else .lt) values) = found
  cases found <;> rfl

/-- Type 0 finds the first text that matches. -/
theorem Lookup.position_eq {args : List Argument} {v w : Value} {pattern : String}
    {values : List Value} {type : Float} (hlookup : valueAt args 0 = .ok v)
    (hv : v.scalar = .text pattern) (hcells : valueAt args 1 = .ok w)
    (hline : line? w.toRows = some values) (htype : numberAtOr args 2 1 = .ok type)
    (hzero : (type == 0) = true) :
    (∀ i t, values[i]? = some (.text t) → Pattern.Matches pattern.toList t.toList →
      (∀ j < i, ∀ u, values[j]? = some (.text u) → ¬ Pattern.Matches pattern.toList u.toList) →
      position args = .ok (Float.ofNat (i + 1))) ∧
    (position args = .error .notAvailable ↔
      ∀ t, .text t ∈ values → ¬ Pattern.Matches pattern.toList t.toList) := by
  have hposition := position_of_line hlookup hcells hline htype
  rw [if_pos hzero, hv] at hposition
  constructor
  · intro i t ht hmatches hfirst
    have hfind : values.findIdx? (equals (.text pattern)) = some i := by
      obtain ⟨hi, ht⟩ := List.getElem?_eq_some_iff.1 ht
      refine List.findIdx?_eq_some_iff_getElem.2 ⟨hi, ?_, fun j hj hequals => ?_⟩
      · rw [ht]
        exact equals_text_iff.2 ⟨t, rfl, hmatches⟩
      · obtain ⟨u, hu, hu'⟩ := equals_text_iff.1 hequals
        exact hfirst j hj u (List.getElem?_eq_some_iff.2 ⟨Nat.lt_trans hj hi, hu⟩) hu'
    rw [hposition, hfind]
    rfl
  · rw [hposition, orError_map_eq_error, List.findIdx?_eq_none_iff]
    constructor
    · intro h t ht hmatches
      have hfalse := h _ ht
      rw [equals_text_iff.2 ⟨t, rfl, hmatches⟩] at hfalse
      cases hfalse
    · intro h u hu
      refine Bool.eq_false_iff.2 fun hequals => ?_
      obtain ⟨t, rfl, hmatches⟩ := equals_text_iff.1 hequals
      exact h t hu hmatches

/-! ### Searches -/

namespace Text

/-- Some piece of a text matches from a position on. -/
def FoundAt (pattern subject : String) (p : Nat) : Prop :=
  1 ≤ p ∧ p ≤ subject.toList.length + 1 ∧
    ∃ piece, piece <+: subject.toList.drop (p - 1) ∧ Pattern.Matches pattern.toList piece

theorem matchesAt_drop_iff {pattern subject : String} {k n : Nat}
    (hk : k ≤ subject.toList.length) :
    (Pattern.parse pattern.toList).MatchesAt (subject.toList.drop k) n ↔
      FoundAt pattern subject (k + n + 1) := by
  rw [Pattern.MatchesAt, FoundAt, List.drop_drop, List.length_drop]
  simp only [Pattern.splits_parse_iff, Nat.add_sub_cancel]
  constructor
  · rintro ⟨hn, h⟩
    exact ⟨by omega, by omega, h⟩
  · rintro ⟨-, hn, h⟩
    exact ⟨by omega, h⟩

theorem charsBefore_ofNat {s : Nat} (hs : Number.toNat64 (Float.ofNat s) = s) (hlow : 1 ≤ s) :
    charsBefore (Float.ofNat s) = s - 1 := by
  rw [Number.toNat64] at hs
  rw [charsBefore, UInt64.toNat_sub_of_le, hs]
  · rfl
  · rw [UInt64.le_iff_toNat_le, hs]
    exact hlow

theorem startAt_eq {args : List Argument} {s : Nat} {within : List Char}
    (hstart : countAt args i 1 = .ok (Float.ofNat s)) (hs : Number.toNat64 (Float.ofNat s) = s)
    (hlow : 1 ≤ s) (hhigh : s ≤ max within.length 1) : startAt args i within = .ok (s - 1) := by
  have hone : ¬ Float.ofNat s < 1 := not_ofNat_lt Nat.one_pos hlow
  have hlength : ¬ Float.ofNat (max within.length 1) < Float.ofNat s := not_ofNat_lt hlow hhigh
  have hinside : (decide (Float.ofNat s < 1) ||
      decide (Float.ofNat (max within.length 1) < Float.ofNat s)) = false := by
    rw [decide_eq_false hone, decide_eq_false hlength]
    rfl
  unfold startAt
  rw [hstart]
  change (if _ then _ else _) = _
  rw [if_neg (by rw [hinside]; exact nofun), charsBefore_ofNat hs hlow]
  rfl

/-- The first position is found, if there is one. -/
theorem search_eq {args : List Argument} {pattern subject : String} {s : Nat}
    (hpattern : textAt args 0 = .ok pattern) (hsubject : textAt args 1 = .ok subject)
    (hstart : countAt args 2 1 = .ok (Float.ofNat s)) (hs : Number.toNat64 (Float.ofNat s) = s)
    (hlow : 1 ≤ s) (hhigh : s ≤ max subject.toList.length 1) :
    (∀ p, s ≤ p → FoundAt pattern subject p → (∀ q, s ≤ q → q < p → ¬ FoundAt pattern subject q) →
      search args = .ok (Float.ofNat p)) ∧
    (search args = .error .value ↔ ∀ p, s ≤ p → ¬ FoundAt pattern subject p) := by
  have hskipped : min (s - 1) subject.toList.length = s - 1 := by omega
  have hsearch : search args =
      (orError .value ((Pattern.parse pattern.toList).find? (subject.toList.drop (s - 1)))).map
        fun found => Float.ofNat (s - 1 + found + 1) := by
    have hpiece : charsAt args 0 = .ok pattern.toList := by rw [charsAt, hpattern]; rfl
    have hwithin : charsAt args 1 = .ok subject.toList := by rw [charsAt, hsubject]; rfl
    rw [search, position, hpiece, hwithin]
    dsimp only [bind, Except.bind]
    rw [startAt_eq hstart hs hlow hhigh]
    dsimp only
    rw [hskipped]
    cases (Pattern.parse pattern.toList).find? (subject.toList.drop (s - 1)) <;> rfl
  have hposition (n : Nat) : s - 1 + n + 1 = s + n := by omega
  have hmatches (n : Nat) :
      (Pattern.parse pattern.toList).MatchesAt (subject.toList.drop (s - 1)) n ↔
        FoundAt pattern subject (s + n) := by
    rw [matchesAt_drop_iff (by omega), hposition]
  simp only [hposition] at hsearch
  constructor
  · intro p hp hfound hleast
    obtain ⟨n, rfl⟩ := Nat.exists_eq_add_of_le hp
    have hfind : (Pattern.parse pattern.toList).find? (subject.toList.drop (s - 1)) = some n := by
      refine Pattern.find?_eq_some_iff.2 ⟨(hmatches n).2 hfound, fun m hm h => ?_⟩
      exact hleast (s + m) (Nat.le_add_right s m) (Nat.add_lt_add_left hm s) ((hmatches m).1 h)
    rw [hsearch, hfind]
    rfl
  · rw [hsearch, orError_map_eq_error, Pattern.find?_eq_none_iff]
    constructor
    · intro h p hp hfound
      obtain ⟨n, rfl⟩ := Nat.exists_eq_add_of_le hp
      exact h n ((hmatches n).2 hfound)
    · exact fun h n hn => h (s + n) (Nat.le_add_right s n) ((hmatches n).1 hn)

end Text

end Spreadsheet
