import Spreadsheet.Proofs.Faults.Levels
import Spreadsheet.Proofs.Spacing.Gaps

/-!
No level of the grammar asks whether white space stands before the first token that it is given, so
that lists of tokens that look alike but for that are the same formula.
-/

namespace Spreadsheet.Parser

variable {α β : Type} {next nested : Parser Expr}

theorem mapError_bind {x y : Except Fault α} {k k' : α → Except Fault β}
    (h : x.mapError Fault.cause = y.mapError Fault.cause)
    (hk : ∀ a, (k a).mapError Fault.cause = (k' a).mapError Fault.cause) :
    (x >>= k).mapError Fault.cause = (y >>= k').mapError Fault.cause := by
  cases x with
  | error f =>
    cases y with
    | error g => exact congrArg Except.error (Except.error.inj h)
    | ok b => cases h
  | ok a =>
    cases y with
    | error g => cases h
    | ok b =>
      obtain rfl := Except.ok.inj h
      exact hk a

theorem mapError_map {x y : Except Fault α} (h : x.mapError Fault.cause = y.mapError Fault.cause)
    (g : α → β) : (x.map g).mapError Fault.cause = (y.map g).mapError Fault.cause := by
  have hbind (z : Except Fault α) : z.map g = z >>= fun a => .ok (g a) := by
    cases z <;> rfl
  rw [hbind, hbind]
  exact mapError_bind h fun _ => rfl

/-- White space before the first token changes neither what is read nor why nothing is. -/
def IgnoresFirstSpace (P : Parser α) : Prop :=
  ∀ (t : Token) (us : List Token) (space : Bool),
    (P ({ t with spaceBefore := space } :: us)).mapError Fault.cause =
      (P (t :: us)).mapError Fault.cause

namespace IgnoresFirstSpace

theorem arrayConstant : IgnoresFirstSpace arrayConstant := by
  intro t us space
  -- the tokens from the first on are in the fault alone
  apply mapError_bind rfl
  intro read
  dsimp only
  split <;> rfl

theorem primary (nested : Parser Expr) : IgnoresFirstSpace (primary nested) := by
  intro t us space
  obtain ⟨kind, lexeme, place, _⟩ := t
  cases kind with
  | symbol s =>
    cases s with
    | leftBrace => exact arrayConstant _ us space
    | _ => rfl
  | _ => rfl

theorem chain {C : Nat → α → Parser β} {next : Parser α} (h : IgnoresFirstSpace next) :
    IgnoresFirstSpace fun ts => next ts >>= fun (a, rest) => C rest.length a rest :=
  fun t us space => mapError_bind (h t us space) fun _ => rfl

theorem percentLevel (h : IgnoresFirstSpace next) : IgnoresFirstSpace (percentLevel next) :=
  fun t us space => mapError_map (h t us space) _

theorem signLevel (h : IgnoresFirstSpace next) : IgnoresFirstSpace (signLevel next) := by
  intro t us space
  have hsymbol : Token.symbol? { t with spaceBefore := space } = t.symbol? := rfl
  rw [Parser.signLevel, Parser.signLevel, hsymbol]
  cases t.symbol?.bind signOp? with
  | none => exact h t us space
  | some op => rfl

theorem powerLevel (h : IgnoresFirstSpace next) : IgnoresFirstSpace (powerLevel next) :=
  fun t us space => mapError_bind (h t us space) fun _ => rfl

theorem levels (nested : Parser Expr) : IgnoresFirstSpace (levels nested) :=
  chain <| chain <| chain <| chain <| powerLevel <| signLevel <| percentLevel <| chain <| chain <|
    primary nested

theorem expression (depth : Nat) : IgnoresFirstSpace (expression depth) := by
  cases depth with
  | zero => exact fun _ _ _ => rfl
  | succ depth => exact levels (Parser.expression depth)

end IgnoresFirstSpace

/-- Lists of tokens that look alike, but for white space before the first, are the same formula, or
no formula for the same cause. -/
theorem formula_alike (h : Token.Alike spaced ts ts') :
    (formula ts).mapError Fault.cause = (formula ts').mapError Fault.cause := by
  cases h with
  | nil => rfl
  | @cons us us' t t' hkind hlexeme _ hus =>
    have hspace : (formula (t :: us)).mapError Fault.cause =
        (formula ({ t with spaceBefore := t'.spaceBefore } :: us)).mapError Fault.cause :=
      mapError_bind (IgnoresFirstSpace.expression _ t us t'.spaceBefore).symm fun _ => rfl
    rw [hspace]
    exact formula_congr (.cons ⟨hkind, hlexeme, rfl⟩ hus)

end Spreadsheet.Parser
