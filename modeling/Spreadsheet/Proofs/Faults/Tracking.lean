import Mathlib.Data.List.Forall2
import Spreadsheet.Expr.Parser

/-!
Two runs of the parser over lists of tokens that look alike up to some token. What a run reports of
the token that it has come to depends on nothing behind that token, and the tokens that it leaves
over are the last ones of those that it was given. Over lists that look alike to their ends, two
runs report the same faults.
-/

namespace Spreadsheet

/-- Tokens that the grammar takes for the same, wherever they stand. -/
structure Token.Like (t u : Token) : Prop where
  kind : t.kind = u.kind
  lexeme : t.lexeme = u.lexeme
  spaceBefore : t.spaceBefore = u.spaceBefore

theorem Token.Like.symbol? (h : Token.Like t u) : t.symbol? = u.symbol? := by
  rw [Token.symbol?, Token.symbol?, h.kind]

theorem Token.Like.startsReference (h : Token.Like t u) :
    Parser.startsReference t = Parser.startsReference u := by
  rw [Parser.startsReference, Parser.startsReference, h.kind]

/-- Whether the fault lies in the token that the parser has come to. The other causes are reported
of a token that was passed over, or only when the whole of something has been read. -/
def GrammarCause.atCurrent : GrammarCause → Bool
  | .unexpected _ | .expectedClose _ | .noCellAfterSheet | .notLiteral => true
  | .spansSheets | .rangeOperands | .unionOperands | .unequalRows => false

namespace Parser

/-- The tokens from which on two lists need not look alike any more, but for the first of them. -/
structure Fork where
  first : List Token
  second : List Token
  heads : List.Forall₂ Token.Like (first.take 1) (second.take 1)

/-- Two lists that look alike up to the fork. -/
inductive Beside (fork : Fork) : List Token → List Token → Prop
  | here : Beside fork fork.first fork.second
  | cons (ht : Token.Like t t') (h : Beside fork ts ts') : Beside fork (t :: ts) (t' :: ts')

variable {α β : Type} {fork : Fork} {fits : Prop} {whole ts ts' us us' : List Token}
  {r r' : Except Fault (α × List Token)}

theorem Beside.length (h : Beside fork ts ts') :
    ts.length + fork.second.length = ts'.length + fork.first.length := by
  induction h with
  | here => exact Nat.add_comm _ _
  | cons _ _ ih =>
    rw [List.length_cons, List.length_cons]
    omega

theorem Beside.first_length_le (h : Beside fork ts ts') : fork.first.length ≤ ts.length := by
  induction h with
  | here => exact Nat.le_refl _
  | cons _ _ ih => exact Nat.le_succ_of_le ih

theorem Beside.eq_here (h : Beside fork fork.first ts') : ts' = fork.second := by
  generalize hts : fork.first = ts at h
  cases h with
  | here => rfl
  | cons _ h =>
    have hlen := congrArg List.length hts
    have hle := h.first_length_le
    rw [List.length_cons] at hlen
    omega

/-- Both lists have come to their end, or to tokens that look alike. -/
theorem Beside.cases_head (h : Beside fork ts ts') :
    ts = [] ∧ ts' = [] ∨ ∃ t us t' us', ts = t :: us ∧ ts' = t' :: us' ∧ Token.Like t t' := by
  cases h with
  | here =>
    have hheads := fork.heads
    cases hfirst : fork.first with
    | nil =>
      cases hsecond : fork.second with
      | nil => exact .inl ⟨rfl, rfl⟩
      | cons t' us' => rw [hfirst, hsecond] at hheads; cases hheads
    | cons t us =>
      cases hsecond : fork.second with
      | nil => rw [hfirst, hsecond] at hheads; cases hheads
      | cons t' us' =>
        rw [hfirst, hsecond] at hheads
        cases hheads with
        | cons ht _ => exact .inr ⟨t, us, t', us', rfl, rfl, ht⟩
  | cons ht h => exact .inr ⟨_, _, _, _, rfl, rfl, ht⟩

/-- Behind the head the lists look alike as well, unless the fork was passed. -/
theorem Beside.tail (h : Beside fork (t :: us) (t' :: us')) (hle : fork.first.length ≤ us.length) :
    Beside fork us us' := by
  generalize hts : t :: us = ts at h
  generalize hts' : t' :: us' = ts' at h
  cases h with
  | here =>
    have hlen := congrArg List.length hts
    rw [List.length_cons] at hlen
    omega
  | cons _ h =>
    cases hts
    cases hts'
    exact h

/-! ### Outcomes -/

/-- What is left over of `ts`, or begins with the token at fault, is the end of `ts`. Only faults of
tokens that were passed over reach back to the `whole`. -/
structure Stays (whole ts : List Token) (r : Except Fault (α × List Token)) : Prop where
  ok : ∀ a rest, r = .ok (a, rest) → rest <:+ ts
  error : ∀ f, r = .error f → f.rest <:+ ts ∨ f.rest <:+ whole ∧ f.cause.atCurrent = false

/-- The second outcome is the first one, as far as that was reached before the fork was passed. A
fork at the end is never passed. -/
structure Repeats (fork : Fork) (r r' : Except Fault (α × List Token)) : Prop where
  ok : ∀ a rest, r = .ok (a, rest) → fork.first.length ≤ rest.length →
    ∃ rest', r' = .ok (a, rest') ∧ Beside fork rest rest'
  error : ∀ cause, r = .error ⟨cause, fork.first⟩ → cause.atCurrent = true →
    r' = .error ⟨cause, fork.second⟩
  fault : fork.first = [] → ∀ f, r = .error f → ∃ rest', r' = .error ⟨f.cause, rest'⟩

/-- One outcome stays in its list, and another one repeats it if `fits` holds and the lists look
alike up to the fork. -/
structure Tracks (fork : Fork) (fits : Prop) (whole ts ts' : List Token)
    (r r' : Except Fault (α × List Token)) : Prop where
  stays : Stays whole ts r
  repeats : fits → Beside fork ts ts' → Repeats fork r r'

theorem Stays.inside (h : Stays ts ts r) (whole : List Token) : Stays whole ts r :=
  ⟨h.ok, fun f hf => .inl ((h.error f hf).elim id And.left)⟩

theorem Stays.cons (h : Stays whole us r) (t : Token) : Stays whole (t :: us) r :=
  ⟨fun a rest hr => (h.ok a rest hr).trans (List.suffix_cons t us),
    fun f hf => (h.error f hf).imp_left fun hs => hs.trans (List.suffix_cons t us)⟩

/-- Once the fork is passed there is nothing to repeat. -/
theorem Stays.repeats (h : Stays whole ts r) (hlt : ts.length < fork.first.length)
    (r' : Except Fault (α × List Token)) : Repeats fork r r' where
  ok a rest hr hle := by
    have hlen := (h.ok a rest hr).length_le
    omega
  error cause hr hc := by
    rcases h.error _ hr with hs | ⟨-, hs⟩
    · have hlen := hs.length_le
      dsimp only at hlen
      omega
    · rw [hc] at hs
      cases hs
  fault hend := by
    rw [hend] at hlt
    exact absurd hlt (Nat.not_lt_zero _)

namespace Tracks

theorem inside (h : Tracks fork fits ts ts ts' r r') (whole : List Token) :
    Tracks fork fits whole ts ts' r r' :=
  ⟨h.stays.inside whole, h.repeats⟩

theorem mono (h : Tracks fork fits whole ts ts' r r') (hf : fits' → fits) :
    Tracks fork fits' whole ts ts' r r' :=
  ⟨h.stays, fun hf' => h.repeats (hf hf')⟩

theorem ok (a : α) (ts ts' : List Token) :
    Tracks fork fits whole ts ts' (.ok (a, ts)) (.ok (a, ts')) where
  stays := ⟨fun _ _ hr => by cases hr; exact List.suffix_refl _, nofun⟩
  repeats _ hb := ⟨fun _ _ hr _ => by cases hr; exact ⟨ts', rfl, hb⟩, nofun, fun _ => nofun⟩

/-- A fault of the token at the head. -/
theorem error (cause : GrammarCause) (ts ts' : List Token) :
    Tracks (α := α) fork fits whole ts ts' (.error ⟨cause, ts⟩) (.error ⟨cause, ts'⟩) where
  stays := ⟨nofun, fun _ hr => by cases hr; exact .inl (List.suffix_refl _)⟩
  repeats _ hb := by
    refine ⟨nofun, fun _ hr _ => ?_, fun _ _ hr => ?_⟩
    · cases hr
      rw [hb.eq_here]
    · cases hr
      exact ⟨ts', rfl⟩

/-- A fault of a token that was passed over. -/
theorem earlier (hc : cause.atCurrent = false) (hs : us <:+ whole) (us' : List Token) :
    Tracks (α := α) fork fits whole ts ts' (.error ⟨cause, us⟩) (.error ⟨cause, us'⟩) where
  stays := ⟨nofun, fun _ hr => by cases hr; exact .inr ⟨hs, hc⟩⟩
  repeats _ _ := by
    refine ⟨nofun, fun _ hr hc' => ?_, fun _ _ hr => ?_⟩
    · cases hr
      rw [hc] at hc'
      cases hc'
    · cases hr
      exact ⟨us', rfl⟩

theorem tail (h : Tracks fork fits whole us us' r r') (t t' : Token) :
    Tracks fork fits whole (t :: us) (t' :: us') r r' where
  stays := h.stays.cons t
  repeats hf hb :=
    if hle : fork.first.length ≤ us.length then h.repeats hf (hb.tail hle)
    else h.stays.repeats (Nat.lt_of_not_le hle) r'

/-- One run after another. Of the first, both lists are left over shorter by the same number. -/
theorem bind_of_ok {k k' : α × List Token → Except Fault (β × List Token)}
    (h : Tracks fork fits whole ts ts' r r')
    (hk : ∀ a rest rest', r = .ok (a, rest) → rest <:+ ts →
      Tracks fork (fits ∧ rest'.length + ts.length = ts'.length + rest.length) whole rest rest'
        (k (a, rest)) (k' (a, rest'))) :
    Tracks fork fits whole ts ts' (r >>= k) (r' >>= k') where
  stays := by
    cases r with
    | error f =>
      refine ⟨nofun, fun g hg => ?_⟩
      cases hg
      exact h.stays.error f rfl
    | ok p =>
      obtain ⟨a, rest⟩ := p
      have hs := h.stays.ok a rest rfl
      obtain ⟨hstays, -⟩ := hk a rest [] rfl hs
      exact ⟨fun b rest₂ hr => (hstays.ok b rest₂ hr).trans hs,
        fun f hf => (hstays.error f hf).imp_left fun h' => h'.trans hs⟩
  repeats hf hb := by
    have hrepeats := h.repeats hf hb
    cases r with
    | error f =>
      refine ⟨nofun, fun cause hr hc => ?_, fun hend g hg => ?_⟩
      · cases hr
        rw [hrepeats.error cause rfl hc]
        rfl
      · cases hg
        obtain ⟨rest', rfl⟩ := hrepeats.fault hend f rfl
        exact ⟨rest', rfl⟩
    | ok p =>
      obtain ⟨a, rest⟩ := p
      have hs := h.stays.ok a rest rfl
      by_cases hle : fork.first.length ≤ rest.length
      · obtain ⟨rest', rfl, hb'⟩ := hrepeats.ok a rest rfl hle
        have hlen := hb.length
        have hlen' := hb'.length
        exact (hk a rest rest' rfl hs).repeats ⟨hf, by omega⟩ hb'
      · exact (hk a rest [] rfl hs).stays.repeats (Nat.lt_of_not_le hle) _

theorem bind {k k' : α × List Token → Except Fault (β × List Token)}
    (h : Tracks fork fits whole ts ts' r r')
    (hk : ∀ a rest rest', rest <:+ ts →
      Tracks fork (fits ∧ rest'.length ≤ ts'.length) whole rest rest' (k (a, rest))
        (k' (a, rest'))) :
    Tracks fork fits whole ts ts' (r >>= k) (r' >>= k') :=
  h.bind_of_ok fun a rest rest' _ hs => (hk a rest rest' hs).mono fun hf =>
    ⟨hf.1, by
      have hlen := hs.length_le
      omega⟩

theorem map {g : α × List Token → β × List Token} (h : Tracks fork fits whole ts ts' r r')
    (hg : ∀ a rest rest', Tracks fork True whole rest rest' (.ok (g (a, rest)))
      (.ok (g (a, rest')))) :
    Tracks fork fits whole ts ts' (r.map g) (r'.map g) := by
  have hbind (x : Except Fault (α × List Token)) : x.map g = x >>= fun p => .ok (g p) := by
    cases x <;> rfl
  rw [hbind, hbind]
  exact h.bind fun a rest rest' _ => (hg a rest rest').mono fun _ => trivial

/-- Runs that look at the head first. The second one has fuel `n'`, which is of use only if there is
a head to look at. -/
theorem by_head (F : Parser α) (F' : Nat → Parser α) {n' : Nat} {ts' : List Token}
    (hn : fits → ts'.length ≤ n')
    (hnil : Tracks fork fits [] [] [] (F []) (F' n' []))
    (hcons : ∀ t t' us us' k, Token.Like t t' → ts = t :: us →
      Tracks fork (fits ∧ us'.length + 1 = ts'.length ∧ k + 1 = n') (t :: us) (t :: us) (t' :: us')
        (F (t :: us)) (F' (k + 1) (t' :: us'))) :
    Tracks fork fits ts ts ts' (F ts) (F' n' ts') where
  stays := by
    cases ts with
    | nil => exact hnil.stays
    | cons t us => exact (hcons t t us [] 0 ⟨rfl, rfl, rfl⟩ rfl).stays
  repeats hf hb := by
    obtain ⟨rfl, rfl⟩ | ⟨t, us, t', us', rfl, rfl, ht⟩ := hb.cases_head
    · exact hnil.repeats hf hb
    · cases n' with
      | zero => exact absurd (hn hf) (Nat.not_succ_le_zero _)
      | succ k => exact (hcons t t' us us' k ht rfl).repeats ⟨hf, rfl, rfl⟩ hb

theorem by_cons (F F' : Parser α) {ts' : List Token}
    (hnil : Tracks fork fits [] [] [] (F []) (F' []))
    (hcons : ∀ t t' us us', Token.Like t t' → ts = t :: us →
      Tracks fork (fits ∧ us'.length + 1 = ts'.length) (t :: us) (t :: us) (t' :: us')
        (F (t :: us)) (F' (t' :: us'))) :
    Tracks fork fits ts ts ts' (F ts) (F' ts') :=
  by_head F (fun _ => F') (fun _ => Nat.le_refl ts'.length) hnil
    fun t t' us us' _ ht hts => (hcons t t' us us' ht hts).mono fun hf => ⟨hf.1, hf.2.1⟩

/-- Runs with fuel that look at the head first, by induction on the first fuel. Behind the head each
one goes on with less fuel, from a state `s` of its own. -/
theorem by_fuel {σ : Type} {n n' m m' : Nat} (F F' : Nat → σ → Parser α)
    (hnil : ∀ n n' s, Tracks fork True [] [] [] (F n s []) (F' n' s []))
    (hcons : ∀ n n' s t t' us us', Token.Like t t' → us.length < m →
      (∀ s ts ts', ts.length ≤ us.length →
        Tracks fork (ts'.length ≤ n' ∧ ts'.length ≤ m') ts ts ts' (F n s ts) (F' n' s ts')) →
      Tracks fork (us'.length ≤ n' ∧ us'.length < m') (t :: us) (t :: us) (t' :: us')
        (F (n + 1) s (t :: us)) (F' (n' + 1) s (t' :: us')))
    (s : σ) (hn : ts.length ≤ n) (hm : ts.length ≤ m) :
    Tracks fork (ts'.length ≤ n' ∧ ts'.length ≤ m') ts ts ts' (F n s ts) (F' n' s ts') := by
  induction n generalizing n' s ts ts' with
  | zero =>
    obtain rfl := List.eq_nil_of_length_eq_zero (Nat.le_zero.1 hn)
    exact .by_head _ (fun n' => F' n' s) And.left ((hnil 0 n' s).mono fun _ => trivial)
      fun _ _ _ _ _ _ hts => nomatch hts
  | succ n ih =>
    refine .by_head _ (fun n' => F' n' s) And.left ((hnil (n + 1) n' s).mono fun _ => trivial)
      fun t t' us us' k ht hts => ?_
    subst hts
    rw [List.length_cons] at hn hm
    exact (hcons n k s t t' us us' ht hm fun s ts ts' hts =>
      ih s (by omega) (by omega)).mono (by omega)

end Tracks

/-- A parser and another one, for lists of up to so many tokens each. -/
def Tracking (fork : Fork) (n n' : Nat) (P P' : Parser α) : Prop :=
  ∀ ts ts', ts.length ≤ n → Tracks fork (ts'.length ≤ n') ts ts ts' (P ts) (P' ts')

/-- A first operand, and a chain of further ones with as much fuel as there are tokens. -/
theorem Tracking.chain {m m' : Nat} {next next' : Parser α} {C C' : Nat → α → Parser α}
    (hnext : Tracking fork m m' next next')
    (hchain : ∀ a ts ts', ts.length ≤ m →
      Tracks fork (ts'.length ≤ ts'.length ∧ ts'.length ≤ m') ts ts ts' (C ts.length a ts)
        (C' ts'.length a ts')) :
    Tracking fork m m' (fun ts => next ts >>= fun (a, rest) => C rest.length a rest)
      (fun ts => next' ts >>= fun (a, rest) => C' rest.length a rest) := by
  intro ts ts' hm
  refine .bind (hnext ts ts' hm) fun a rest rest' hs => ?_
  have hlen := hs.length_le
  exact ((hchain a rest rest' (by omega)).inside _).mono (by omega)

end Parser

end Spreadsheet
