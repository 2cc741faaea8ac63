import Spreadsheet.Proofs.Grammar.Completeness

/-!
Array constants have rows of one length, wherever they stand in a formula.
-/

namespace Spreadsheet

def SameLength (rows : List (List α)) : Prop :=
  ∀ row ∈ rows, ∀ row' ∈ rows, row.length = row'.length

namespace Expr

/-- The first expression is a part of the second, or all of it. -/
inductive Occurs : Expr → Expr → Prop
  | self (e : Expr) : Occurs e e
  | union (hp : p ∈ parts) (h : Occurs e p) : Occurs e (.union parts)
  | sign (h : Occurs e operand) : Occurs e (.sign op operand)
  | left (h : Occurs e l) : Occurs e (.binary op l r)
  | right (h : Occurs e r) : Occurs e (.binary op l r)
  | percent (h : Occurs e operand) : Occurs e (.percent operand)
  | call (ha : a ∈ args) (h : Occurs e a) : Occurs e (.call function args)

theorem Occurs.trans (h : Occurs d e) (h' : Occurs e f) : Occurs d f := by
  induction h' with
  | self => exact h
  | union hp _ ih => exact .union hp (ih h)
  | sign _ ih => exact .sign (ih h)
  | left _ ih => exact .left (ih h)
  | right _ ih => exact .right (ih h)
  | percent _ ih => exact .percent (ih h)
  | call ha _ ih => exact .call ha (ih h)

/-- All array constants in the expression have rows of one length. -/
def Rectangular (e : Expr) : Prop := ∀ rows, Occurs (.array rows) e → SameLength rows

theorem Rectangular.of_occurs (h : e.Rectangular) (hd : Occurs d e) : d.Rectangular :=
  fun rows hrows => h rows (hrows.trans hd)

theorem rectangular_union (h : ∀ p ∈ parts, Rectangular p) : (union parts).Rectangular := by
  intro rows ho
  cases ho with
  | union hp ho => exact h _ hp rows ho

theorem rectangular_binary (hl : Rectangular l) (hr : Rectangular r) :
    (binary op l r).Rectangular := by
  intro rows ho
  cases ho with
  | left ho => exact hl rows ho
  | right ho => exact hr rows ho

theorem rectangular_sign (h : Rectangular operand) : (sign op operand).Rectangular := by
  intro rows ho
  cases ho with
  | sign ho => exact h rows ho

theorem rectangular_percent (h : Rectangular operand) : (percent operand).Rectangular := by
  intro rows ho
  cases ho with
  | percent ho => exact h rows ho

theorem rectangular_call (h : ∀ a ∈ args, Rectangular a) : (call function args).Rectangular := by
  intro rows ho
  cases ho with
  | call ha ho => exact h _ ha rows ho

end Expr

theorem Grammar.Derives.rectangular (h : Derives l ts e) : e.Rectangular := by
  induction h with
  | tighter _ _ ih => exact ih
  | operator _ _ _ _ ih ih' => exact Expr.rectangular_binary ih ih'
  | power _ _ _ ih ih' => exact Expr.rectangular_binary ih ih'
  | plus _ _ ih => exact Expr.rectangular_sign ih
  | negate _ _ ih => exact Expr.rectangular_sign ih
  | percent _ _ ih => exact Expr.rectangular_percent ih
  | intersect _ _ _ _ _ _ ih ih' => exact Expr.rectangular_binary ih ih'
  | range _ _ _ _ _ _ ih ih' => exact Expr.rectangular_binary ih ih'
  | callEmpty => exact Expr.rectangular_call fun _ ha => absurd ha List.not_mem_nil
  | call _ _ _ _ _ homitted _ ih =>
    apply Expr.rectangular_call
    intro a ha
    obtain ⟨slot, hslot, rfl⟩ := List.mem_map.1 ha
    by_cases hnil : slot.1 = []
    · rw [homitted slot hslot hnil]
      intro rows ho
      cases ho
    · exact ih slot hslot hnil
  | parens _ _ _ ih => exact ih
  | union _ _ _ _ _ _ ih =>
    apply Expr.rectangular_union
    intro p hp
    obtain ⟨part, hpart, rfl⟩ := List.mem_map.1 hp
    exact ih part hpart
  | array _ _ h =>
    intro rows ho
    cases ho
    exact h.2
  | _ =>
    intro rows ho
    cases ho

theorem parseFormula_rectangular (h : parseFormula text = .ok e) : e.Rectangular := by
  obtain ⟨lexed, -, hd⟩ := parseFormula_eq_ok_iff.1 h
  exact hd.rectangular

end Spreadsheet
