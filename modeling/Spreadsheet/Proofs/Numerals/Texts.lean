import Spreadsheet.Proofs.Calls.Session
import Spreadsheet.Proofs.Numerals.Signs
import Spreadsheet.Proofs.Spacing.Texts
import Spreadsheet.Proofs.Writing.ReadBack

/-!
Numeric texts. A text that is read as a number is a formula for it when an equals sign is put
before it, and a text that is one number token is read as the number of the token.
-/

namespace Spreadsheet

open Lexer Grammar

/-! ### White space around a text -/

theorem Unicode.exists_trim (cs : List Char) :
    ∃ lead trail, cs = lead ++ (trim cs ++ trail) ∧ Blank lead ∧ Blank trail := by
  let rest := cs.dropWhile isWhiteSpace
  refine ⟨cs.takeWhile isWhiteSpace, (rest.reverse.takeWhile isWhiteSpace).reverse, ?_, ?_, ?_⟩
  · rw [trim, ← List.reverse_append, List.takeWhile_append_dropWhile, List.reverse_reverse,
      List.takeWhile_append_dropWhile]
  · exact fun c hc => List.mem_takeWhile_imp hc
  · exact fun c hc => List.mem_takeWhile_imp (List.mem_reverse.1 hc)

theorem Unicode.trim_append {lead cs trail : List Char} (hlead : Blank lead) (htrail : Blank trail)
    (h : ∀ c ∈ cs, isWhiteSpace c = false) (hne : cs ≠ []) : trim (lead ++ (cs ++ trail)) = cs := by
  obtain ⟨c, v, rfl⟩ := List.exists_cons_of_ne_nil hne
  have hdrop : (lead ++ (c :: v ++ trail)).dropWhile isWhiteSpace = c :: v ++ trail := by
    rw [List.dropWhile_append_of_pos hlead]
    exact List.dropWhile_cons_of_neg (by rw [h c List.mem_cons_self]; exact Bool.false_ne_true)
  have hself := trim_eq_self h
  rw [trim] at hself ⊢
  rw [List.dropWhile_cons_of_neg (by rw [h c List.mem_cons_self]; exact Bool.false_ne_true)]
    at hself
  rw [hdrop, List.reverse_append,
    List.dropWhile_append_of_pos fun d hd => htrail d (List.mem_reverse.1 hd), hself]

namespace Number

/-! ### What is read as a number -/

/-- A numeral with an optional sign, and its number. -/
inductive SignedText : List Char → Float → Prop
  | plain (hw : NumeralText w n) : SignedText w n.toFloat
  | plus (hw : NumeralText w n) : SignedText ('+' :: w) n.toFloat
  | minus (hw : NumeralText w n) : SignedText ('-' :: w) (-n.toFloat)

/-- A numeral with an optional sign and an optional percent sign, and its number. -/
inductive NumericText : List Char → Float → Prop
  | plain (hw : SignedText w x) : NumericText w x
  | percent (hw : SignedText w x) : NumericText (w ++ ['%']) (x / 100)

theorem NumeralText.takeSign_append (hw : NumeralText w n) (rest : List Char) :
    takeSign (w ++ rest) = (false, w ++ rest) := by
  obtain ⟨mantissa, exponent, x, rfl, hne, hm, he⟩ := hw.exists_exponent
  obtain ⟨c, mantissa, rfl⟩ := List.exists_cons_of_ne_nil hne
  have hc := hm c List.mem_cons_self
  apply takeSign_cons_of_ne
  all_goals
    rintro rfl
    exact absurd hc (by decide)

theorem takeSigned_append (hw : SignedText w x) (hrest : Over rest) :
    takeSigned (w ++ rest) = some (x, rest) := by
  cases hw with
  | plain hw =>
    rw [takeSigned, hw.takeSign_append]
    dsimp only
    rw [takeNumeral_append hw hrest]
    rfl
  | plus hw =>
    rw [takeSigned, List.cons_append, takeSign]
    dsimp only
    rw [takeNumeral_append hw hrest]
    rfl
  | minus hw =>
    rw [takeSigned, List.cons_append, takeSign]
    dsimp only
    rw [takeNumeral_append hw hrest]
    rfl

theorem signedText_of_takeSigned (h : takeSigned cs = some (x, rest)) :
    ∃ w, cs = w ++ rest ∧ SignedText w x := by
  rw [takeSigned] at h
  generalize hsign : takeSign cs = taken at h
  obtain ⟨⟨n, r⟩, hn, heq⟩ := Option.map_eq_some_iff.1 h
  obtain ⟨rfl, rfl⟩ := Prod.mk.inj heq
  unfold takeSign at hsign
  split at hsign <;> subst hsign <;> obtain ⟨w, hcs, hw⟩ := numeralText_of_takeNumeral hn
  · exact ⟨'+' :: w, congrArg ('+' :: ·) hcs, .plus hw⟩
  · exact ⟨'-' :: w, congrArg ('-' :: ·) hcs, .minus hw⟩
  · exact ⟨w, hcs, .plain hw⟩

theorem over_nil : Over [] := nofun

theorem readSigned?_eq_some_iff : readSigned? cs = some x ↔ SignedText cs x := by
  constructor
  · intro h
    unfold readSigned? at h
    split at h
    · next htake =>
      obtain ⟨w, rfl, hw⟩ := signedText_of_takeSigned htake
      rw [List.append_nil]
      exact Option.some.inj h ▸ hw
    · cases h
  · intro h
    have htake := takeSigned_append h over_nil
    rw [List.append_nil] at htake
    rw [readSigned?, htake]

theorem over_percent : Over ['%'] := by
  intro c hc
  obtain rfl := Option.some.inj hc
  decide

theorem read?_eq_some_iff {s : String} :
    read? s = some x ↔ NumericText (Unicode.trim s.toList) x := by
  constructor
  · intro h
    unfold read? at h
    split at h
    · next htake =>
      obtain ⟨w, hw, hsigned⟩ := signedText_of_takeSigned htake
      rw [hw, List.append_nil]
      exact .plain (Option.some.inj h ▸ hsigned)
    · next htake =>
      obtain ⟨w, hw, hsigned⟩ := signedText_of_takeSigned htake
      rw [hw, ← Option.some.inj h]
      exact .percent hsigned
    · cases h
  · intro h
    unfold read?
    generalize Unicode.trim s.toList = cs at h
    cases h with
    | plain hw =>
      have htake := takeSigned_append hw over_nil
      rw [List.append_nil] at htake
      rw [htake]
    | percent hw =>
      rw [takeSigned_append hw over_percent]
      rfl

theorem SignedText.isNaN (h : SignedText cs x) : x.isNaN = false := by
  cases h with
  | plain | plus => exact Numeral.isNaN_toFloat _
  | minus => exact isNaN_neg (Numeral.isNaN_toFloat _)

theorem isNaN_hundredth {x : Float} (h : x.isNaN = false) : (x / 100).isNaN = false := by
  have hhundred : (100 : Float).toModel.unpack =
      .finite .positive (100 * 2 ^ 46) (-46) (by decide) := rfl
  exact isNaN_div h hhundred

theorem NumericText.isNaN (h : NumericText cs x) : x.isNaN = false := by
  cases h with
  | plain hw => exact hw.isNaN
  | percent hw => exact isNaN_hundredth hw.isNaN

end Number

/-! ### Numbers as tokens -/

open Number

/-- From any place on, the text is read as tokens of these kinds. -/
def Lexer.LexesAs (cs : List Char) (kinds : List TokenKind) : Prop :=
  ∀ place space, ∃ lexed, Lexes place space cs lexed ∧ lexed.tokens.map Token.kind = kinds

namespace Lexer.LexesAs

theorem blank (h : Blank gap) : LexesAs gap [] := by
  intro place space
  rw [← List.append_nil gap]
  exact ⟨_, Lexes.of_gap h .nil, rfl⟩

theorem of_gap (hgap : Blank gap) (h : LexesAs cs kinds) : LexesAs (gap ++ cs) kinds := by
  intro place space
  obtain ⟨lexed, hl, hkinds⟩ := h (place.after gap) (space || !gap.isEmpty)
  exact ⟨lexed, Lexes.of_gap hgap hl, hkinds⟩

theorem token (hw : Reads w kind rest) (h : LexesAs rest kinds) :
    LexesAs (w ++ rest) (kind :: kinds) := by
  intro place space
  obtain ⟨lexed, hl, hkinds⟩ := h (place.after w) false
  exact ⟨_, .token hw hl, congrArg (kind :: ·) hkinds⟩

theorem symbol (hc : singleSymbol? c = some s) (h : LexesAs rest kinds) :
    LexesAs (c :: rest) (.symbol s :: kinds) :=
  token (.single hc) h

end Lexer.LexesAs

/-! ### Numbers as formulas -/

/-- The text is read as tokens of an expression of this level, which has the number as its value
everywhere. -/
def Stands (level : Level) (cs : List Char) (x : Float) : Prop :=
  ∃ kinds e, LexesAs cs kinds ∧
    (∀ ts : List Token, ts.map Token.kind = kinds → Derives level ts e) ∧
    ∀ scope, evaluate scope e = .done (.number x)

namespace Stands

theorem tighter (hl : level.tighter? = some m) (h : Stands m cs x) : Stands level cs x := by
  obtain ⟨kinds, e, hlex, hm, heval⟩ := h
  exact ⟨kinds, e, hlex, fun ts hts => .tighter hl (hm ts hts), heval⟩

theorem of_gap (hgap : Blank gap) (h : Stands level cs x) : Stands level (gap ++ cs) x := by
  obtain ⟨kinds, e, hlex, hm, heval⟩ := h
  exact ⟨kinds, e, hlex.of_gap hgap, hm, heval⟩

theorem derives_number {t : Token} (ht : t.kind = .number x) :
    Derives .percent [t] (.literal (.number x)) :=
  .tighter rfl (.tighter rfl (.tighter rfl (.number ht)))

theorem numeral (hw : NumeralText w n) (htrail : Blank trail) :
    Stands .percent (w ++ trail) n.toFloat := by
  have hends : ∀ c ∈ trail.head?, continuesIdent c = false ∧ c ≠ ':' := by
    intro c hc
    have hspace := htrail c (List.mem_of_mem_head? hc)
    exact ⟨not_continuesIdent_of_isWhiteSpace hspace, ne_of_isWhiteSpace hspace (by decide)⟩
  refine ⟨[.number n.toFloat], .literal (.number n.toFloat),
    .token (.numeral hw hends) (.blank htrail), fun ts hts => ?_, fun _ => rfl⟩
  obtain ⟨t, rfl, ht⟩ := List.map_eq_singleton_iff.1 hts
  exact derives_number ht

theorem percent (hw : NumeralText w n) (htrail : Blank trail) :
    Stands .percent (w ++ '%' :: trail) (n.toFloat / 100) := by
  have hends : ∀ c ∈ ('%' :: trail).head?, continuesIdent c = false ∧ c ≠ ':' := by
    intro c hc
    obtain rfl := Option.some.inj hc
    decide
  refine ⟨[.number n.toFloat, .symbol .percent], .percent (.literal (.number n.toFloat)),
    .token (.numeral hw hends) (.symbol rfl (.blank htrail)), fun ts hts => ?_, fun _ => rfl⟩
  obtain ⟨t, us, rfl, ht, hus⟩ := List.map_eq_cons_iff.1 hts
  obtain ⟨u, rfl, hu⟩ := List.map_eq_singleton_iff.1 hus
  have hnumber := derives_number ht
  exact .percent (Token.symbol?_eq_some.2 hu) hnumber

theorem plus (h : Stands .sign cs x) : Stands .sign ('+' :: cs) x := by
  obtain ⟨kinds, e, hlex, hm, heval⟩ := h
  refine ⟨.symbol .plus :: kinds, .sign .plus e, hlex.symbol rfl, fun ts hts => ?_,
    fun scope => ?_⟩
  · obtain ⟨t, us, rfl, ht, hus⟩ := List.map_eq_cons_iff.1 hts
    exact .plus (Token.symbol?_eq_some.2 ht) (hm us hus)
  · rw [evaluate, heval]
    rfl

theorem minus (h : Stands .sign cs x) : Stands .sign ('-' :: cs) (-x) := by
  obtain ⟨kinds, e, hlex, hm, heval⟩ := h
  refine ⟨.symbol .minus :: kinds, .sign .negate e, hlex.symbol rfl, fun ts hts => ?_,
    fun scope => ?_⟩
  · obtain ⟨t, us, rfl, ht, hus⟩ := List.map_eq_cons_iff.1 hts
    exact .negate (Token.symbol?_eq_some.2 ht) (hm us hus)
  · rw [evaluate, heval]
    rfl

/-- A percent sign binds closer than a minus, and still divides what has the sign. -/
theorem numericText (h : NumericText w x) (htrail : Blank trail) :
    Stands .sign (w ++ trail) x := by
  cases h with
  | plain hw =>
    cases hw with
    | plain hw => exact .tighter rfl (.numeral hw htrail)
    | plus hw => exact .plus (.tighter rfl (.numeral hw htrail))
    | minus hw => exact .minus (.tighter rfl (.numeral hw htrail))
  | percent hw =>
    rw [List.append_assoc]
    cases hw with
    | plain hw => exact .tighter rfl (.percent hw htrail)
    | plus hw => exact .plus (.tighter rfl (.percent hw htrail))
    | minus hw =>
      rw [neg_div]
      exact .minus (.tighter rfl (.percent hw htrail))

end Stands

/-- A formula whose value needs neither cells nor names. -/
theorem calculate_of_done {e : Expr} {v : Value} (he : parseFormula text = .ok e)
    (hv : ∀ scope, evaluate scope e = .done v) (hread : v.readResult = .done v) (engine : Engine)
    (position : Option Position) :
    engine.calculate text position = (.ok v.scalar.shown, engine) := by
  have hresult (scope : Scope) : formulaResult scope e = .done v.scalar.shown := by
    rw [formulaResult, hv scope]
    change v.readResult >>= _ = _
    rw [hread]
    rfl
  rw [Engine.calculate, Engine.read, he]
  change engine.evaluate e position = _
  rw [Engine.evaluate, hresult]
  rfl

theorem Stands.parseFormula (h : Stands .sign cs x) :
    ∃ e, parseFormula (String.ofList ('=' :: cs)) = .ok e ∧
      ∀ scope, evaluate scope e = .done (.number x) := by
  obtain ⟨kinds, e, hlex, hm, heval⟩ := h
  obtain ⟨lexed, hl, hkinds⟩ := hlex (Place.behind ['=']) false
  have hsign : Opens ['='] cs := .sign blank_nil
  have htokens : tokenize (String.ofList ('=' :: cs)) = .ok lexed :=
    tokenize_eq_ok_iff_opens.2 ⟨['='], cs, String.toList_ofList, hsign, hl⟩
  exact ⟨e, parseFormula_eq_ok_iff.2 ⟨lexed, htokens, .tighter rfl (.tighter rfl (.tighter rfl
    (.tighter rfl (.tighter rfl (hm _ hkinds)))))⟩, heval⟩

/-- What a number shows: an infinite one is an error, and both zeros are the one. -/
theorem shown_number {x : Float} (h : x.isNaN = false) :
    (Value.number x).shown =
      if x.isInf then .error .num else if x == 0 then .number 0 else .number x := by
  rw [Value.shown, h]
  rfl

/-- A token of a number is a numeral. -/
theorem Lexer.Reads.exists_numeralText (h : Reads w (.number x) rest) :
    ∃ n, NumeralText w n ∧ x = n.toFloat := by
  generalize hkind : TokenKind.number x = kind at h
  cases h with
  | number hc hrows hn =>
    cases hkind
    exact ⟨_, Lexer.numeralText_of_takeNumeral (w := _ :: _) hn, rfl⟩
  | word hw hrest hcolumns hk =>
    rcases wordKind_eq_ok hk with ⟨a, rfl, -⟩ | ⟨-, rfl | ⟨b, rfl, -⟩⟩ <;> cases hkind
  | _ => cases hkind

theorem read?_of_token {s : String} (hsign : '=' ∉ (s.toList.dropWhile Unicode.isWhiteSpace).head?)
    (hl : tokenize s = .ok lexed) (ht : lexed.tokens.map Token.kind = [.number x]) :
    Number.read? s = some x := by
  obtain ⟨opening, body, htext, hopens, hlex⟩ := tokenize_eq_ok_iff_opens.1 hl
  cases hopens with
  | @sign lead _ hlead =>
    rw [htext, List.append_assoc, List.dropWhile_append_of_pos hlead] at hsign
    exact absurd rfl hsign
  | plain hlead =>
    cases hlex.gaps with
    | stop => cases ht
    | @next gap w kind rest _ _ _ hgap hw hmore =>
      obtain ⟨hkind, hnil⟩ := List.cons.inj ht
      cases hkind
      cases hmore with
      | next => cases hnil
      | stop htrail =>
        obtain ⟨n, hnumeral, rfl⟩ := hw.exists_numeralText
        have hspace : ∀ c ∈ w, Unicode.isWhiteSpace c = false :=
          hnumeral.forall_mem (fun _ => not_isWhiteSpace_of_isDigit) (forall_mem_of_all (by decide))
        apply Number.read?_eq_some_iff.2
        rw [htext, ← List.append_assoc,
          Unicode.trim_append (hlead.append hgap) htrail hspace hnumeral.ne_nil]
        exact .plain (.plain hnumeral)

/-- A text that is read as a number is a formula for this number when an equals sign stands before
it, whichever engine calculates. A text without an equals sign that is one token, a number, is read
as this number. -/
theorem numeric_text_as_formula :
    (∀ (s : String) (x : Float), Number.read? s = some x →
      ∀ (engine : Engine) (position : Option Position),
        engine.calculate ("=" ++ s) position =
          (.ok (if x.isInf then .error .num else if x == 0 then .number 0 else .number x),
            engine)) ∧
    ∀ (s : String) (lexed : Lexed) (x : Float),
      '=' ∉ (s.toList.dropWhile Unicode.isWhiteSpace).head? → tokenize s = .ok lexed →
        lexed.tokens.map Token.kind = [.number x] → Number.read? s = some x := by
  refine ⟨fun s x hread engine position => ?_, fun s lexed x hsign hl ht =>
    read?_of_token hsign hl ht⟩
  have hnumeric := Number.read?_eq_some_iff.1 hread
  obtain ⟨lead, trail, hs, hlead, htrail⟩ := Unicode.exists_trim s.toList
  have hstands : Stands .sign s.toList x := by
    rw [hs]
    exact .of_gap hlead (.numericText hnumeric htrail)
  obtain ⟨e, he, heval⟩ := hstands.parseFormula
  have htext : "=" ++ s = String.ofList ('=' :: s.toList) := by
    rw [← String.toList_inj, String.toList_append, String.toList_ofList, String.toList_ofList]
    exact List.singleton_append
  rw [htext, calculate_of_done he heval rfl]
  exact congrArg (fun v => (Except.ok v, engine)) (shown_number hnumeric.isNaN)

/-- A percentage in white space, a numeral that is too large for a finite number, and a token. -/
theorem numeric_text_as_formula_percent :
    (Number.read? " -12.5% " = some (-0.125) ∧
      (Engine.new .zero [] []).calculate "= -12.5% " none =
        (.ok (.number (-0.125)), Engine.new .zero [] [])) ∧
    (Number.read? "+1e999" = some (1 / 0) ∧
      (Engine.new .zero [] []).calculate "=+1e999" none =
        (.ok (.error .num), Engine.new .zero [] [])) ∧
    '=' ∉ (" .5E1".toList.dropWhile Unicode.isWhiteSpace).head? ∧
      (∃ lexed, tokenize " .5E1" = .ok lexed ∧ lexed.tokens.map Token.kind = [.number 5]) ∧
      Number.read? " .5E1" = some 5 := by
  have hpercent : Number.read? " -12.5% " = some (-0.125) := by decide +kernel
  have hlarge : Number.read? "+1e999" = some (1 / 0) := by decide +kernel
  have hl : tokenize " .5E1" = .ok ⟨[⟨.number 5, ".5E1", ⟨1, 2⟩, false⟩], ⟨1, 6⟩, false⟩ := rfl
  have hsign : '=' ∉ (" .5E1".toList.dropWhile Unicode.isWhiteSpace).head? := by decide
  have hfinite : (-0.125 : Float).isInf = false ∧ ((-0.125 : Float) == 0) = false := by decide
  have hinfinite : (1 / 0 : Float).isInf = true := by decide
  refine ⟨⟨hpercent, (numeric_text_as_formula.1 _ _ hpercent _ none).trans ?_⟩,
    ⟨hlarge, (numeric_text_as_formula.1 _ _ hlarge _ none).trans ?_⟩, hsign, ⟨_, hl, rfl⟩,
    numeric_text_as_formula.2 _ _ _ hsign hl rfl⟩
  · rw [hfinite.1, hfinite.2]
    rfl
  · rw [hinfinite]
    rfl

end Spreadsheet
