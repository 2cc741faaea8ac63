import Mathlib.Tactic.Common
import Spreadsheet.Proofs.Faults.Tracking
import Spreadsheet.Proofs.Grammar.Soundness

/-!
Every level of the grammar tracks: the run over one list is repeated over another one that looks
alike up to a fork, and what a run reports or leaves over is the end of its list.
-/

namespace Spreadsheet.Parser

variable {α β : Type} {fork : Fork} {fits : Prop} {whole ts ts' us us' : List Token}
  {m m' n n' : Nat} {nested nested' next next' : Parser Expr}

theorem after?_cons (s : Symbol) (t : Token) (us : List Token) :
    after? s (t :: us) = if t.symbol? = some s then some us else none := rfl

theorem headSymbol?_cons (t : Token) (us : List Token) : headSymbol? (t :: us) = t.symbol? := rfl

namespace Tracks

theorem unexpected_nil : Tracks (α := α) fork fits whole [] [] (unexpected []) (unexpected []) :=
  .error _ [] []

theorem unexpected (ht : Token.Like t t') :
    Tracks (α := α) fork fits whole (t :: us) (t' :: us') (unexpected (t :: us))
      (unexpected (t' :: us')) := by
  rw [Parser.unexpected, Parser.unexpected, lexeme?, lexeme?, List.head?_cons, List.head?_cons,
    Option.map_some, Option.map_some, ht.lexeme]
  exact .error _ _ _

end Tracks

/-! ### Primaries -/

/-- What was read before a closing parenthesis, once that has been passed over. -/
def closed (a : α) : Parser α := fun ts => do return (a, ← close ts)

theorem closed_tracks (a : α) :
    Tracks fork fits whole ts ts' (closed a ts) (closed a ts') := by
  refine Tracks.inside ?_ whole
  refine .by_cons _ _ (.error _ [] []) fun t t' us us' ht _ => ?_
  rw [closed, closed, close, close, after?_cons, after?_cons, ht.symbol?]
  by_cases hc : t'.symbol? = some .rightParen
  · rw [if_pos hc, if_pos hc]
    exact .tail (.ok a us us') t t'
  · rw [if_neg hc, if_neg hc, lexeme?, lexeme?, List.head?_cons, List.head?_cons,
      Option.map_some, Option.map_some, ht.lexeme]
    exact .error _ _ _

theorem unionParts_nil (nested : Parser Expr) (n : Nat) :
    unionParts nested n [] = .ok ([], []) := by
  cases n <;> rfl

theorem unionParts_tracks (hnested : Tracking fork m m' nested nested') (hn : ts.length ≤ n)
    (hm : ts.length ≤ m) :
    Tracks fork (ts'.length ≤ n' ∧ ts'.length ≤ m') ts ts ts' (unionParts nested n ts)
      (unionParts nested' n' ts') := by
  refine .by_fuel (fun n (_ : Unit) => unionParts nested n) (fun n _ => unionParts nested' n) ?_
    (fun n k _ t t' us us' ht hus ih => ?_) () hn hm
  · intro n n' _
    rw [unionParts_nil, unionParts_nil]
    exact .ok [] [] []
  · rw [unionParts, unionParts, after?_cons, after?_cons, ht.symbol?]
    by_cases hc : t'.symbol? = some .comma
    · rw [if_pos hc, if_pos hc]
      refine .tail (.bind (((hnested us us' (by omega)).inside _).mono (by omega))
        fun part rest rest' hs => ?_) t t'
      dsimp only
      cases part.isReference with
      | false => exact .earlier rfl (List.suffix_refl _) _
      | true =>
        exact .bind (((ih () rest rest' hs.length_le).inside _).mono (by omega))
          fun parts rest rest' _ => .ok _ rest rest'
    · rw [if_neg hc, if_neg hc]
      exact .ok [] _ _

theorem parenthesized_tracks (hnested : Tracking fork m m' nested nested') (hm : ts.length ≤ m) :
    Tracks fork (ts'.length ≤ m') ts ts ts' (parenthesized nested ts)
      (parenthesized nested' ts') := by
  rw [parenthesized, parenthesized]
  refine .bind (hnested ts ts' hm) fun first rest rest' hs => ?_
  have hlen := hs.length_le
  dsimp only
  refine .bind (((unionParts_tracks hnested (Nat.le_refl _) (by omega)).inside _).mono (by omega))
    fun parts rest rest' hs' => ?_
  dsimp only
  split
  · exact closed_tracks first
  · cases first.isReference with
    | false => exact .earlier rfl (hs'.trans hs) _
    | true => exact closed_tracks (Expr.union (first :: parts))

theorem slot_tracks (hnested : Tracking fork m m' nested nested') (hm : ts.length ≤ m) :
    Tracks fork (ts'.length ≤ m') ts ts ts' (slot nested ts) (slot nested' ts') := by
  refine .by_cons _ _ ?_ fun t t' us us' ht hts => ?_
  · exact (hnested [] [] (Nat.zero_le m)).mono fun _ => Nat.zero_le m'
  · subst hts
    rw [slot, slot, headSymbol?_cons, headSymbol?_cons, ht.symbol?]
    split
    · exact .ok _ _ _
    · exact (hnested _ _ hm).mono (by simp only [List.length_cons]; omega)

theorem arguments_nil (h : nested [] = unexpected []) (n : Nat) :
    arguments nested n [] = unexpected [] := by
  cases n with
  | zero => rfl
  | succ n => rw [arguments_succ, slot, if_neg (by decide), h]; rfl

/-- The arguments from one on whose slot has been read. -/
def afterSlot (nested : Parser Expr) (n : Nat) (arg : Expr) : Parser (List Expr) := fun rest =>
  match after? .comma rest, after? .rightParen rest with
  | some rest, _ => arguments nested n rest >>= fun (args, rest) => .ok (arg :: args, rest)
  | none, some rest => .ok ([arg], rest)
  | none, none => unexpected rest

theorem arguments_tracks (hnested : Tracking fork m m' nested nested')
    (hnil : nested [] = unexpected []) (hnil' : nested' [] = unexpected []) (hn : ts.length ≤ n)
    (hm : ts.length ≤ m) :
    Tracks fork (ts'.length ≤ n' ∧ ts'.length ≤ m') ts ts ts' (arguments nested n ts)
      (arguments nested' n' ts') := by
  refine .by_fuel (fun n (_ : Unit) => arguments nested n) (fun n _ => arguments nested' n) ?_
    (fun n k _ t t' us us' ht hus ih => ?_) () hn hm
  · intro n n' _
    rw [arguments_nil hnil, arguments_nil hnil']
    exact .unexpected_nil
  · rw [arguments_succ, arguments_succ]
    have hslot : Tracks fork ((t' :: us').length ≤ m') (t :: us) (t :: us) (t' :: us') _ _ :=
      slot_tracks hnested hus
    refine .bind (hslot.mono (by simp only [List.length_cons]; omega)) fun arg rest rest' hs => ?_
    have hlen := hs.length_le
    refine Tracks.inside ?_ _
    change Tracks fork _ rest rest rest' (afterSlot nested n arg rest)
      (afterSlot nested' k arg rest')
    refine .by_cons _ _ .unexpected_nil fun u u' vs vs' hu hrest => ?_
    subst hrest
    rw [List.length_cons, List.length_cons] at hlen
    unfold afterSlot
    rw [after?_cons, after?_cons, after?_cons, after?_cons, hu.symbol?]
    by_cases hcomma : u'.symbol? = some .comma
    · rw [if_pos hcomma, if_pos hcomma]
      dsimp only
      refine .tail (.bind (((ih () vs vs' (by omega)).inside _).mono ?_)
        fun args rest rest' _ => ?_) u u'
      · simp only [List.length_cons]
        omega
      · exact .ok (arg :: args) rest rest'
    · rw [if_neg hcomma, if_neg hcomma]
      by_cases hclose : u'.symbol? = some .rightParen
      · rw [if_pos hclose, if_pos hclose]
        exact .tail (.ok [arg] vs vs') u u'
      · rw [if_neg hclose, if_neg hclose]
        exact .unexpected hu

theorem call_tracks (name : String) (hnested : Tracking fork m m' nested nested')
    (hnil : nested [] = unexpected []) (hnil' : nested' [] = unexpected []) (hm : ts.length ≤ m) :
    Tracks fork (ts'.length ≤ m') ts ts ts' (call nested name ts) (call nested' name ts') := by
  refine .by_cons _ _ ?_ fun t t' us us' ht hts => ?_
  · exact .unexpected_nil
  · subst hts
    rw [call, call, after?_cons, after?_cons, ht.symbol?]
    dsimp only
    by_cases hclose : t'.symbol? = some .rightParen
    · rw [if_pos hclose, if_pos hclose]
      exact .tail (.ok _ us us') t t'
    · rw [if_neg hclose, if_neg hclose]
      refine .bind ((arguments_tracks hnested hnil hnil' (Nat.le_refl _) hm).mono ?_)
        fun args rest rest' _ => .ok _ rest rest'
      simp only [List.length_cons]
      omega

/-! ### Array constants -/

theorem literalAt_tracks (negative : Bool) :
    Tracks fork fits whole ts ts' (literalAt negative ts) (literalAt negative ts') := by
  refine Tracks.inside ?_ whole
  refine .by_cons _ _ ?_ fun t t' us us' ht hts => ?_
  · exact .error _ [] []
  · have hliteral : literal? negative t = literal? negative t' := by
      rw [literal?, literal?, ht.kind]
    rw [literalAt, literalAt, hliteral]
    cases literal? negative t' with
    | none => exact .error _ _ _
    | some l => exact .tail (.ok l us us') t t'

theorem element_tracks : Tracks fork fits whole ts ts' (element ts) (element ts') := by
  refine Tracks.inside ?_ whole
  refine .by_cons _ _ ?_ fun t t' us us' ht hts => ?_
  · exact .error _ [] []
  · rw [element_eq, element_eq, headSymbol?_cons, headSymbol?_cons, ht.symbol?]
    split
    · exact .tail (literalAt_tracks true) t t'
    · split
      · exact .tail (literalAt_tracks false) t t'
      · exact literalAt_tracks false

/-- The rows of an array constant from an element on that has been read. -/
def afterElement (n : Nat) (l : Literal) : Parser (List (List Literal)) := fun rest =>
  match headSymbol? rest with
  | some .comma => do
    let (rows, rest) ← arrayRows n rest.tail
    return (consElement l rows, rest)
  | some .semicolon => do
    let (rows, rest) ← arrayRows n rest.tail
    return ([l] :: rows, rest)
  | some .rightBrace => return ([[l]], rest.tail)
  | _ => unexpected rest

theorem arrayRows_succ (n : Nat) (ts : List Token) :
    arrayRows (n + 1) ts = element ts >>= fun (l, rest) => afterElement n l rest := rfl

theorem afterElement_tracks (l : Literal)
    (hrows : ∀ us us', us.length < n →
      Tracks fork (us'.length < n') us us us' (arrayRows n us) (arrayRows n' us'))
    (hn : ts.length ≤ n) :
    Tracks fork (ts'.length ≤ n') ts ts ts' (afterElement n l ts) (afterElement n' l ts') := by
  refine .by_cons _ _ ?_ fun t t' us us' ht hts => ?_
  · exact .unexpected_nil
  · subst hts
    have hmore := ((hrows us us' hn).inside (t :: us)).mono
      (show (ts'.length ≤ n' ∧ us'.length + 1 = ts'.length) → us'.length < n' by omega)
    rw [afterElement, afterElement, headSymbol?_cons, headSymbol?_cons, ht.symbol?]
    split
    · exact .tail (.bind hmore fun rows rest rest' _ => .ok (consElement l rows) rest rest') t t'
    · exact .tail (.bind hmore fun rows rest rest' _ => .ok ([l] :: rows) rest rest') t t'
    · exact .tail (.ok [[l]] us us') t t'
    · exact .unexpected ht

theorem arrayRows_tracks (hn : ts.length < n) :
    Tracks fork (ts'.length < n') ts ts ts' (arrayRows n ts) (arrayRows n' ts') := by
  induction n generalizing n' ts ts' with
  | zero => exact absurd hn (Nat.not_lt_zero _)
  | succ n ih =>
    have hsucc (k : Nat) :
        Tracks fork (ts'.length < k + 1) ts ts ts' (arrayRows (n + 1) ts)
          (arrayRows (k + 1) ts') := by
      rw [arrayRows_succ, arrayRows_succ]
      refine .bind element_tracks fun l rest rest' hs => ?_
      have hlen := hs.length_le
      have hafter : Tracks fork (rest'.length ≤ k) rest rest rest' (afterElement n l rest)
          (afterElement k l rest') :=
        afterElement_tracks l (fun us us' hus => ih hus) (by omega)
      exact (hafter.inside ts).mono (by omega)
    cases n' with
    | zero => exact ⟨(hsucc 0).stays, fun hf => absurd hf (Nat.not_lt_zero _)⟩
    | succ k => exact hsucc k

theorem arrayConstant_tracks (t t' : Token) :
    Tracks fork fits (t :: us) (t :: us) (t' :: us') (arrayConstant (t :: us))
      (arrayConstant (t' :: us')) := by
  have hrows : Tracks fork (us'.length < us'.length + 1) us us us' (arrayRows (us.length + 1) us)
      (arrayRows (us'.length + 1) us') := arrayRows_tracks (Nat.lt_succ_self _)
  refine .tail (.bind ((hrows.inside _).mono fun _ => Nat.lt_succ_self _)
    fun rows rest rest' _ => ?_) t t'
  dsimp only
  split
  · exact .ok (Expr.array rows) rest rest'
  · exact .earlier rfl (List.suffix_refl _) _

/-! ### One primary -/

theorem onSheet_tracks (sheet : String) :
    Tracks fork fits whole ts ts' (onSheet sheet ts) (onSheet sheet ts') := by
  refine Tracks.inside ?_ whole
  refine .by_cons _ _ ?_ fun t t' us us' ht hts => ?_
  · exact .error _ [] []
  · rw [onSheet, onSheet, ht.kind]
    cases t'.kind with
    | cell a => exact .tail (.ok _ us us') t t'
    | area r => exact .tail (.ok _ us us') t t'
    | number | text | boolean | error | ident | sheet | symbol => exact .error _ _ _

/-- A call if a parenthesis follows on the name, and else the name. -/
def callOrName (nested : Parser Expr) (name : String) : Parser Expr := fun ts =>
  match after? .leftParen ts with
  | some rest => call nested name rest
  | none => .ok (.name name, ts)

theorem callOrName_tracks (name : String) (hnested : Tracking fork m m' nested nested')
    (hnil : nested [] = unexpected []) (hnil' : nested' [] = unexpected []) (hm : ts.length ≤ m) :
    Tracks fork (ts'.length ≤ m') ts ts ts' (callOrName nested name ts)
      (callOrName nested' name ts') := by
  refine .by_cons _ _ ?_ fun t t' us us' ht hts => ?_
  · exact .ok _ [] []
  · subst hts
    rw [callOrName, callOrName, after?_cons, after?_cons, ht.symbol?]
    by_cases hopen : t'.symbol? = some .leftParen
    · rw [if_pos hopen, if_pos hopen]
      have hcall : Tracks fork (us'.length ≤ m') us us us' (call nested name us)
          (call nested' name us') :=
        call_tracks name hnested hnil hnil' (Nat.le_of_succ_le hm)
      exact .tail ((hcall.inside _).mono (by omega)) t t'
    · rw [if_neg hopen, if_neg hopen]
      exact .ok _ _ _

theorem primary_tracks (hnested : Tracking fork m m' nested nested')
    (hnil : nested [] = unexpected []) (hnil' : nested' [] = unexpected []) :
    Tracking fork (m + 1) (m' + 1) (primary nested) (primary nested') := by
  intro ts ts' hm
  refine .by_cons _ _ ?_ fun t t' us us' ht hts => ?_
  · exact .unexpected_nil
  · subst hts
    have hus : us.length ≤ m := Nat.le_of_succ_le_succ hm
    rw [primary, primary, ht.kind]
    cases t'.kind with
    | number x => exact .tail (.ok _ us us') t t'
    | text s => exact .tail (.ok _ us us') t t'
    | boolean b => exact .tail (.ok _ us us') t t'
    | error e => exact .tail (.ok _ us us') t t'
    | cell a => exact .tail (.ok _ us us') t t'
    | area r => exact .tail (.ok _ us us') t t'
    | sheet sheet => exact .tail (onSheet_tracks sheet) t t'
    | ident name =>
      have hname : Tracks fork (us'.length ≤ m') us us us' (callOrName nested name us)
          (callOrName nested' name us') := callOrName_tracks name hnested hnil hnil' hus
      exact .tail ((hname.inside _).mono (by omega)) t t'
    | symbol s =>
      cases s with
      | leftParen =>
        have hparens : Tracks fork (us'.length ≤ m') us us us' (parenthesized nested us)
            (parenthesized nested' us') := parenthesized_tracks hnested hus
        exact .tail ((hparens.inside _).mono (by omega)) t t'
      | leftBrace => exact arrayConstant_tracks t t'
      | _ => exact .unexpected ht

/-! ### Reference operators -/

theorem rangeChain_nil (next : Parser Expr) (n : Nat) (e : Expr) :
    rangeChain next n e [] = .ok (e, []) := by
  cases n <;> rfl

theorem joinRange_error (h : joinRange left right = .error cause) : cause.atCurrent = false := by
  unfold joinRange at h
  split at h
  · split at h
    · cases h
      rfl
    · cases h
  · split at h
    · cases h
    · cases h
      rfl

theorem rangeChain_tracks (e : Expr) (hnext : Tracking fork m m' next next') (hn : ts.length ≤ n)
    (hm : ts.length ≤ m) :
    Tracks fork (ts'.length ≤ n' ∧ ts'.length ≤ m') ts ts ts' (rangeChain next n e ts)
      (rangeChain next' n' e ts') := by
  refine .by_fuel (rangeChain next) (rangeChain next') ?_
    (fun n k e t t' us us' ht hus ih => ?_) e hn hm
  · intro n n' e
    rw [rangeChain_nil, rangeChain_nil]
    exact .ok e [] []
  · rw [rangeChain, rangeChain, after?_cons, after?_cons, ht.symbol?]
    by_cases hc : t'.symbol? = some .colon
    · rw [if_pos hc, if_pos hc]
      refine .tail (.bind (((hnext us us' (by omega)).inside _).mono (by omega))
        fun right rest rest' hs => ?_) t t'
      dsimp only
      cases hjoin : joinRange e right with
      | error cause => exact .earlier (joinRange_error hjoin) (List.suffix_refl _) _
      | ok joined => exact ((ih joined rest rest' hs.length_le).inside _).mono (by omega)
    · rw [if_neg hc, if_neg hc]
      exact .ok e _ _

theorem rangeLevel_tracks (hnext : Tracking fork m m' next next') :
    Tracking fork m m' (rangeLevel next) (rangeLevel next') :=
  hnext.chain fun left _ _ hm => rangeChain_tracks left hnext (Nat.le_refl _) hm

theorem intersectChain_nil (next : Parser Expr) (n : Nat) (e : Expr) :
    intersectChain next n e [] = .ok (e, []) := by
  cases n with
  | zero => rfl
  | succ n => rw [intersectChain, if_neg (by simp)]

/-- What a parser reads has at least one token. -/
def Consumes (P : Parser α) : Prop := ∀ ⦃ts a rest⦄, P ts = .ok (a, rest) → rest.length < ts.length

theorem Sound.consumes (h : Sound P l) : Consumes P := by
  intro ts e rest hp
  obtain ⟨used, rfl, hd, -⟩ := h hp
  have hused := List.length_pos_iff.2 hd.ne_nil
  rw [List.length_append]
  omega

/-- The operand is read from the token that was looked at, so that the fuel is enough only because
`next` consumes some token. -/
theorem intersectChain_tracks (e : Expr) (hnext : Tracking fork m m' next next')
    (hconsumes : Consumes next) (hn : ts.length ≤ n) (hm : ts.length ≤ m) :
    Tracks fork (ts'.length ≤ n' ∧ ts'.length ≤ m') ts ts ts' (intersectChain next n e ts)
      (intersectChain next' n' e ts') := by
  refine .by_fuel (intersectChain next) (intersectChain next') ?_
    (fun n k e t t' us us' ht hus ih => ?_) e hn hm
  · intro n n' e
    rw [intersectChain_nil, intersectChain_nil]
    exact .ok e [] []
  · rw [intersectChain, intersectChain, List.head?_cons, List.head?_cons, Option.any_some,
      Option.any_some, ht.spaceBefore, ht.startsReference]
    split
    · refine .bind_of_ok ((hnext (t :: us) _ hus).mono (by simp only [List.length_cons]; omega))
        fun right rest rest' hread hs => ?_
      have hlt := hconsumes hread
      rw [List.length_cons] at hlt
      exact ((ih _ rest rest' (by omega)).inside _).mono (by simp only [List.length_cons]; omega)
    · exact .ok e _ _

theorem intersectLevel_tracks (hnext : Tracking fork m m' next next')
    (hconsumes : Consumes next) :
    Tracking fork m m' (intersectLevel next) (intersectLevel next') :=
  hnext.chain fun left _ _ hm => intersectChain_tracks left hnext hconsumes (Nat.le_refl _) hm

/-! ### Operators on values -/

theorem percents_tracks (e : Expr) :
    Tracks fork fits whole ts ts' (.ok (percents e ts)) (.ok (percents e ts')) := by
  refine Tracks.inside ?_ whole
  induction ts generalizing e ts' with
  | nil =>
    exact .by_cons (fun ts => .ok (percents e ts)) (fun ts' => .ok (percents e ts')) (.ok e [] [])
      fun _ _ _ _ _ hts => nomatch hts
  | cons t us ih =>
    refine .by_cons (fun ts => .ok (percents e ts)) (fun ts' => .ok (percents e ts')) (.ok e [] [])
      fun u u' vs vs' hu hts => ?_
    obtain ⟨rfl, rfl⟩ := List.cons.inj hts
    rw [percents, percents, hu.symbol?]
    split
    · exact .tail (((ih (.percent e)).inside _).mono And.left) t u'
    · exact .ok e _ _

theorem percentLevel_tracks (hnext : Tracking fork m m' next next') :
    Tracking fork m m' (percentLevel next) (percentLevel next') :=
  fun ts ts' hm => .map (hnext ts ts' hm) fun e _ _ => percents_tracks e

theorem signLevel_tracks (hnext : Tracking fork m m' next next') :
    Tracking fork m m' (signLevel next) (signLevel next') := by
  intro ts ts' hm
  induction ts generalizing ts' with
  | nil =>
    exact .by_cons _ _ ((hnext [] [] hm).mono fun _ => Nat.zero_le m')
      fun _ _ _ _ _ hts => nomatch hts
  | cons t us ih =>
    refine .by_cons _ _ ((hnext [] [] (Nat.zero_le m)).mono fun _ => Nat.zero_le m')
      fun u u' vs vs' hu hts => ?_
    obtain ⟨rfl, rfl⟩ := List.cons.inj hts
    rw [signLevel, signLevel, hu.symbol?]
    cases u'.symbol?.bind signOp? with
    | none => exact (hnext _ _ hm).mono (by simp only [List.length_cons]; omega)
    | some op =>
      refine .tail (.map (((ih vs' (Nat.le_of_succ_le hm)).inside _).mono (by omega))
        fun e rest rest' => ?_) t u'
      exact .ok (Expr.sign op e) rest rest'

theorem powerChain_nil (h : next [] = unexpected []) (n : Nat) :
    powerChain next n [] = unexpected [] := by
  cases n with
  | zero => exact h
  | succ n => rw [powerChain, h]; rfl

/-- A base with the exponents after the carets that follow. -/
def afterBase (next : Parser Expr) (n : Nat) (base : Expr) : Parser Expr := fun rest =>
  match after? .caret rest with
  | some rest => do
    let (exponent, rest) ← powerChain next n rest
    return (.binary (.value (.arithmetic .power)) base exponent, rest)
  | none => .ok (base, rest)

theorem powerChain_tracks (hnext : Tracking fork m m' next next') (hnil : next [] = unexpected [])
    (hnil' : next' [] = unexpected []) (hn : ts.length ≤ n) (hm : ts.length ≤ m) :
    Tracks fork (ts'.length ≤ n' ∧ ts'.length ≤ m') ts ts ts' (powerChain next n ts)
      (powerChain next' n' ts') := by
  refine .by_fuel (fun n (_ : Unit) => powerChain next n) (fun n _ => powerChain next' n) ?_
    (fun n k _ t t' us us' ht hus ih => ?_) () hn hm
  · intro n n' _
    rw [powerChain_nil hnil, powerChain_nil hnil']
    exact .unexpected_nil
  · rw [powerChain, powerChain]
    refine .bind ((hnext (t :: us) _ hus).mono (by simp only [List.length_cons]; omega))
      fun base rest rest' hs => ?_
    have hlen := hs.length_le
    refine Tracks.inside ?_ _
    change Tracks fork _ rest rest rest' (afterBase next n base rest)
      (afterBase next' k base rest')
    refine .by_cons _ _ (.ok base [] []) fun u u' vs vs' hu hrest => ?_
    subst hrest
    rw [List.length_cons, List.length_cons] at hlen
    rw [afterBase, afterBase, after?_cons, after?_cons, hu.symbol?]
    by_cases hc : u'.symbol? = some .caret
    · rw [if_pos hc, if_pos hc]
      refine .tail (.bind (((ih () vs vs' (by omega)).inside _).mono ?_)
        fun exponent rest rest' _ => ?_) u u'
      · simp only [List.length_cons]
        omega
      · exact .ok (Expr.binary (.value (.arithmetic .power)) base exponent) rest rest'
    · rw [if_neg hc, if_neg hc]
      exact .ok base _ _

theorem powerLevel_tracks (hnext : Tracking fork m m' next next') (hnil : next [] = unexpected [])
    (hnil' : next' [] = unexpected []) :
    Tracking fork m m' (powerLevel next) (powerLevel next') := by
  intro ts ts' hm
  have hchain : Tracks fork (ts'.length ≤ ts'.length ∧ ts'.length ≤ m') ts ts ts'
      (powerChain next ts.length ts) (powerChain next' ts'.length ts') :=
    powerChain_tracks hnext hnil hnil' (Nat.le_refl _) hm
  exact hchain.mono (by omega)

theorem leftChain_nil (op? : Symbol → Option ValueOp) (next : Parser Expr) (n : Nat) (e : Expr) :
    leftChain op? next n e [] = .ok (e, []) := by
  cases n <;> rfl

theorem leftChain_tracks (op? : Symbol → Option ValueOp) (e : Expr)
    (hnext : Tracking fork m m' next next') (hn : ts.length ≤ n) (hm : ts.length ≤ m) :
    Tracks fork (ts'.length ≤ n' ∧ ts'.length ≤ m') ts ts ts' (leftChain op? next n e ts)
      (leftChain op? next' n' e ts') := by
  refine .by_fuel (leftChain op? next) (leftChain op? next') ?_
    (fun n k e t t' us us' ht hus ih => ?_) e hn hm
  · intro n n' e
    rw [leftChain_nil, leftChain_nil]
    exact .ok e [] []
  · rw [leftChain, leftChain, headSymbol?_cons, headSymbol?_cons, ht.symbol?]
    cases t'.symbol?.bind op? with
    | none => exact .ok e _ _
    | some op =>
      refine .tail (.bind (((hnext us us' (by omega)).inside _).mono (by omega))
        fun right rest rest' hs => ?_) t t'
      exact ((ih _ rest rest' hs.length_le).inside _).mono (by omega)

theorem leftLevel_tracks (op? : Symbol → Option ValueOp) (hnext : Tracking fork m m' next next') :
    Tracking fork m m' (leftLevel op? next) (leftLevel op? next') :=
  hnext.chain fun left _ _ hm => leftChain_tracks op? left hnext (Nat.le_refl _) hm

/-! ### All levels -/

theorem levels_tracking (hnested : Tracking fork m m' nested nested')
    (hsound : Sound nested .comparison) (hnil : nested [] = unexpected [])
    (hnil' : nested' [] = unexpected []) :
    Tracking fork (m + 1) (m' + 1) (levels nested) (levels nested') := by
  have hprimary := primary_tracks hnested hnil hnil'
  have hrange := rangeLevel_tracks hprimary
  have hconsumes : Consumes (rangeLevel (primary nested)) :=
    Sound.consumes (rangeLevel_sound (primary_sound hsound))
  have hintersect := intersectLevel_tracks hrange hconsumes
  have hsign := signLevel_tracks (percentLevel_tracks hintersect)
  have hpower := powerLevel_tracks hsign rfl rfl
  exact leftLevel_tracks _ <| leftLevel_tracks _ <| leftLevel_tracks _ <|
    leftLevel_tracks _ hpower

theorem expression_nil (depth : Nat) : expression depth [] = unexpected [] := by
  cases depth <;> rfl

theorem expression_tracking (depth depth' : Nat) :
    Tracking fork depth depth' (expression depth) (expression depth') := by
  induction depth generalizing depth' with
  | zero =>
    intro ts ts' hts
    obtain rfl := List.eq_nil_of_length_eq_zero (Nat.le_zero.1 hts)
    refine .by_head _ expression id ?_ fun _ _ _ _ _ _ hts => nomatch hts
    rw [expression_nil, expression_nil]
    exact .unexpected_nil
  | succ depth ih =>
    intro ts ts' hts
    refine .by_head _ expression id ?_ fun t t' us us' k _ h => ?_
    · rw [expression_nil, expression_nil]
      exact .unexpected_nil
    · subst h
      have hlevels := levels_tracking (ih k) (expression_sound depth) (expression_nil depth)
        (expression_nil k)
      exact (hlevels _ _ hts).mono (by simp only [List.length_cons]; omega)

/-! ### Whole lists -/

/-- An expression that nothing may follow. -/
def atEnd (e : Expr) : Parser Expr
  | [] => .ok (e, [])
  | t :: us => unexpected (t :: us)

theorem formula_eq (ts : List Token) :
    formula ts = (expression ts.length ts >>= fun (e, rest) => atEnd e rest).map Prod.fst := by
  unfold formula
  cases expression ts.length ts with
  | error f => rfl
  | ok p =>
    obtain ⟨e, rest⟩ := p
    cases rest with
    | nil => rfl
    | cons t us => rfl

theorem formula_tracks (ts ts' : List Token) :
    Tracks fork True ts ts ts' (expression ts.length ts >>= fun (e, rest) => atEnd e rest)
      (expression ts'.length ts' >>= fun (e, rest) => atEnd e rest) := by
  have hexpression : Tracks fork (ts'.length ≤ ts'.length) ts ts ts' (expression ts.length ts)
      (expression ts'.length ts') := expression_tracking _ _ ts ts' (Nat.le_refl _)
  refine .bind (hexpression.mono fun _ => Nat.le_refl _) fun e rest rest' _ => ?_
  refine Tracks.inside ?_ ts
  refine .by_cons (atEnd e) (atEnd e) (.ok e [] []) fun t t' us us' ht _ => ?_
  exact .unexpected ht

/-- The fault of a formula lies in one of its tokens or at its end. -/
theorem formula_error_suffix (h : formula ts = .error f) : f.rest <:+ ts := by
  rw [formula_eq] at h
  -- nothing is repeated here, so that any fork will do
  have htracks : Tracks ⟨[], [], .nil⟩ True ts ts ts _ _ := formula_tracks ts ts
  rcases htracks.stays.error f (map_eq_error.1 h) with hs | ⟨hs, -⟩
  · exact hs
  · exact hs

theorem Beside.of_forall₂ (h : List.Forall₂ Token.Like ts ts') : Beside ⟨[], [], .nil⟩ ts ts' := by
  induction h with
  | nil => exact .here
  | cons ht _ ih => exact .cons ht ih

/-- Lists that look alike are the same formula, or no formula for the same cause. -/
theorem formula_congr (h : List.Forall₂ Token.Like ts ts') :
    (formula ts).mapError Fault.cause = (formula ts').mapError Fault.cause := by
  have hrepeats := (formula_tracks ts ts').repeats trivial (Beside.of_forall₂ h)
  rw [formula_eq, formula_eq]
  cases hr : expression ts.length ts >>= fun (e, rest) => atEnd e rest with
  | error f =>
    obtain ⟨rest', hr'⟩ := hrepeats.fault rfl f hr
    rw [hr']
    rfl
  | ok p =>
    obtain ⟨rest', hr', -⟩ := hrepeats.ok p.1 p.2 hr (Nat.zero_le _)
    rw [hr']
    rfl

/-- A fault of the token that the parser had come to is found again, whatever follows the token. -/
theorem formula_error_repeats (hb : Beside fork ts ts')
    (h : formula ts = .error ⟨cause, fork.first⟩) (hc : cause.atCurrent = true) :
    formula ts' = .error ⟨cause, fork.second⟩ := by
  rw [formula_eq] at h ⊢
  rw [((formula_tracks ts ts').repeats trivial hb).error cause (map_eq_error.1 h) hc]
  rfl

end Spreadsheet.Parser
