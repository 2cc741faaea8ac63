import Spreadsheet.Proofs.Sharing.Parsing

/-!
The references that a formula lists are cells and ranges of the sheet: unions come apart, and the
parser makes no corner but those that the tokens have.
-/

namespace Spreadsheet

open Lexer

def Range.InSheet (r : Range) : Prop := r.topLeft.InSheet ∧ r.bottomRight.InSheet

/-- A cell or a range that lies in the sheet. -/
def Reference.InSheet : Reference → Prop
  | .cell ref => ref.address.InSheet
  | .range ref => ref.range.InSheet
  | .union _ => False

/-- What the token stands for lies in the sheet. -/
def TokenKind.InSheet : TokenKind → Prop
  | .cell a => a.InSheet
  | .area r => r.InSheet
  | _ => True

theorem one_le_maxRow : 1 ≤ maxRow := by decide

theorem one_le_maxCol : 1 ≤ maxCol := by decide

theorem Range.inSheet_ofCorners {a b : Address} (ha : a.InSheet) (hb : b.InSheet) :
    (ofCorners a b).InSheet := by
  obtain ⟨ha₁, ha₂, ha₃, ha₄⟩ := ha
  obtain ⟨hb₁, hb₂, hb₃, hb₄⟩ := hb
  exact ⟨⟨Nat.le_min.2 ⟨ha₁, hb₁⟩, Nat.le_trans (Nat.min_le_left ..) ha₂,
      Nat.le_min.2 ⟨ha₃, hb₃⟩, Nat.le_trans (Nat.min_le_left ..) ha₄⟩,
    ⟨Nat.le_trans ha₁ (Nat.le_max_left ..), Nat.max_le.2 ⟨ha₂, hb₂⟩,
      Nat.le_trans ha₃ (Nat.le_max_left ..), Nat.max_le.2 ⟨ha₄, hb₄⟩⟩⟩

/-! ### Tokens -/

namespace Lexer

theorem RowsText.inSheet (h : RowsText w area) : area.InSheet := by
  cases h with
  | mk _ _ _ hrow hrow' =>
    apply Range.inSheet_ofCorners
    · exact ⟨Nat.one_le_iff_ne_zero.2 hrow.1, hrow.2, Nat.le_refl 1, one_le_maxCol⟩
    · exact ⟨Nat.one_le_iff_ne_zero.2 hrow'.1, hrow'.2, one_le_maxCol, Nat.le_refl maxCol⟩

theorem ColumnsText.inSheet (h : ColumnsText left right area) : area.InSheet := by
  cases h with
  | mk hfirst hlast =>
    obtain ⟨-, -, -, hcol⟩ := columnNumber_eq_ok hfirst
    obtain ⟨-, -, -, hcol'⟩ := columnNumber_eq_ok hlast
    apply Range.inSheet_ofCorners
    · exact ⟨Nat.le_refl 1, one_le_maxRow, hcol⟩
    · exact ⟨one_le_maxRow, Nat.le_refl maxRow, hcol'⟩

theorem Reads.inSheet_kind (h : Reads w kind rest) : kind.InSheet := by
  cases h with
  | rows _ h =>
    obtain ⟨-, v, -, hv⟩ := takeRows_eq_some_iff.1 h
    exact hv.inSheet
  | columns _ h =>
    obtain ⟨-, v, -, hv⟩ := takeColumns_eq_some_iff.1 h
    exact hv.inSheet
  | word hw hrest hcolumns hk =>
    rcases wordKind_eq_ok hk with ⟨a, rfl, -⟩ | ⟨-, rfl | ⟨b, rfl, -⟩⟩
    · exact (Reads.word hw hrest hcolumns hk).inSheet
    · trivial
    · trivial
  | _ => trivial

theorem Lexes.inSheet_kind {space : Bool} (h : Lexes place space cs lexed) :
    ∀ t ∈ lexed.tokens, t.kind.InSheet := by
  induction h with
  | nil => nofun
  | space _ _ ih => exact ih
  | token hw _ ih => exact List.forall_mem_cons.2 ⟨hw.inSheet_kind, ih⟩

end Lexer

theorem inSheet_kind_of_tokenize (hl : tokenize text = .ok lexed) :
    ∀ t ∈ lexed.tokens, t.kind.InSheet := by
  obtain ⟨lead, cs, -, -, -, ⟨rest, -, h⟩ | ⟨-, h⟩⟩ := tokenize_eq_ok_iff.1 hl
  · exact h.inSheet_kind
  · exact h.inSheet_kind

/-! ### Formulas -/

/-- All references that the formula lists are cells and ranges of the sheet. -/
def Expr.Listing (e : Expr) : Prop := ∀ r ∈ e.references, r.InSheet

theorem Expr.mem_referencesOf {es : List Expr} {r : Reference} :
    r ∈ referencesOf es ↔ ∃ e ∈ es, r ∈ e.references := by
  induction es with
  | nil => simp [referencesOf]
  | cons e es ih => simp [referencesOf, ih]

namespace Grammar

theorem Joined.mem (h : Joined s tss ts) : ∀ us ∈ tss, ∀ t ∈ us, t ∈ ts := by
  induction h with
  | one => simp
  | cons _ _ ih =>
    intro us hus t ht
    rcases List.mem_cons.1 hus with rfl | hus
    · exact List.mem_append_left _ ht
    · exact List.mem_append_right _ (List.mem_cons_of_mem _ (ih us hus t ht))

theorem Derives.listing (h : Derives l ts e) (hts : ∀ t ∈ ts, t.kind.InSheet) : e.Listing := by
  have hleft {ts us : List Token} (h : ∀ t ∈ ts ++ us, t.kind.InSheet) : ∀ t ∈ ts, t.kind.InSheet :=
    fun t ht => h t (List.mem_append_left _ ht)
  have hright {s : Token} {ts us : List Token} (h : ∀ t ∈ ts ++ s :: us, t.kind.InSheet) :
      ∀ t ∈ us, t.kind.InSheet :=
    fun t ht => h t (List.mem_append_right _ (List.mem_cons_of_mem _ ht))
  have hbinary {op : BinaryOp} {e f : Expr} (he : e.Listing) (hf : f.Listing) :
      (Expr.binary op e f).Listing :=
    List.forall_mem_append.2 ⟨he, hf⟩
  have hall {es : List Expr} (h : ∀ e ∈ es, e.Listing) :
      ∀ r ∈ Expr.referencesOf es, r.InSheet := by
    intro r hr
    obtain ⟨e, he, hr⟩ := Expr.mem_referencesOf.1 hr
    exact h e he r hr
  induction h with
  | tighter _ _ ih => exact ih hts
  | operator _ _ _ _ ih ih' | power _ _ _ ih ih' | range _ _ _ _ _ _ ih ih' =>
    exact hbinary (ih (hleft hts)) (ih' (hright hts))
  | intersect _ _ _ _ _ _ ih ih' =>
    exact hbinary (ih (hleft hts)) (ih' fun t ht => hts t (List.mem_append_right _ ht))
  | plus _ _ ih | negate _ _ ih => exact ih (List.forall_mem_cons.1 hts).2
  | percent _ _ ih => exact ih (hleft hts)
  | cells _ _ _ _ ih ih' =>
    have ha := ih (hleft hts) _ (List.mem_singleton_self _)
    have hb := ih' (hright hts) _ (List.mem_singleton_self _)
    exact List.forall_mem_singleton.2 (Range.inSheet_ofCorners ha hb)
  | cell ht | area ht =>
    have hin := hts _ (List.mem_singleton_self _)
    rw [ht] at hin
    exact List.forall_mem_singleton.2 hin
  | sheetCell _ ht | sheetArea _ ht =>
    have hin := hts _ (List.mem_cons_of_mem _ (List.mem_singleton_self _))
    rw [ht] at hin
    exact List.forall_mem_singleton.2 hin
  | callEmpty => exact nofun
  | call _ _ _ _ hj homitted _ ih =>
    apply hall
    intro e he
    obtain ⟨slot, hslot, rfl⟩ := List.mem_map.1 he
    by_cases hnil : slot.1 = []
    · rw [homitted slot hslot hnil]
      exact nofun
    · apply ih slot hslot hnil
      intro t ht
      have hmem := hj.mem _ (List.mem_map_of_mem hslot) t ht
      exact hts t (List.mem_cons_of_mem _ (List.mem_cons_of_mem _ (List.mem_append_left _ hmem)))
  | parens _ _ _ ih => exact ih (hleft (List.forall_mem_cons.1 hts).2)
  | union _ _ _ hj _ _ ih =>
    apply hall
    intro e he
    obtain ⟨part, hpart, rfl⟩ := List.mem_map.1 he
    apply ih part hpart
    intro t ht
    have hmem := hj.mem _ (List.mem_map_of_mem hpart) t ht
    exact hts t (List.mem_cons_of_mem _ (List.mem_append_left _ hmem))
  | _ => exact nofun

end Grammar

theorem parseFormula_listing (h : parseFormula text = .ok e) : e.Listing := by
  obtain ⟨lexed, hl, hd⟩ := parseFormula_eq_ok_iff.1 h
  exact hd.listing (inSheet_kind_of_tokenize hl)

end Spreadsheet
