import Mathlib.Data.List.Forall2

/-!
Outcomes that may be failures, taken apart: what it says that steps in a row succeed.
-/

namespace Spreadsheet

theorem bind_eq_ok {x : Except ε α} {f : α → Except ε β} {b : β} :
    (x >>= f) = .ok b ↔ ∃ a, x = .ok a ∧ f a = .ok b := by
  cases x with
  | error e =>
    constructor
    · intro h; cases h
    · rintro ⟨a, h, -⟩; cases h
  | ok a =>
    constructor
    · exact fun h => ⟨a, rfl, h⟩
    · rintro ⟨_, h, h'⟩; cases h; exact h'

theorem map_eq_ok {x : Except ε α} {f : α → β} {b : β} :
    x.map f = .ok b ↔ ∃ a, x = .ok a ∧ f a = b := by
  cases x with
  | error e =>
    constructor
    · intro h; cases h
    · rintro ⟨a, h, -⟩; cases h
  | ok a =>
    constructor
    · exact fun h => ⟨a, rfl, Except.ok.inj h⟩
    · rintro ⟨_, h, h'⟩; cases h; exact congrArg Except.ok h'

theorem map_eq_error {x : Except ε α} {f : α → β} {e : ε} :
    x.map f = .error e ↔ x = .error e := by
  cases x with
  | error e' => exact ⟨fun h => congrArg Except.error (Except.error.inj h),
      fun h => congrArg Except.error (Except.error.inj h)⟩
  | ok a => exact ⟨nofun, nofun⟩

theorem mapError_eq_error {x : Except ε α} {f : ε → δ} {d : δ} :
    x.mapError f = .error d ↔ ∃ e, d = f e ∧ x = .error e := by
  cases x with
  | error e =>
    constructor
    · intro h; cases h; exact ⟨e, rfl, rfl⟩
    · rintro ⟨_, rfl, h⟩; cases h; rfl
  | ok a =>
    constructor
    · intro h; cases h
    · rintro ⟨_, -, h⟩; cases h

theorem mapError_eq_ok {x : Except ε α} {f : ε → δ} {a : α} :
    x.mapError f = .ok a ↔ x = .ok a := by
  cases x with
  | error e => exact ⟨nofun, nofun⟩
  | ok b => exact ⟨fun h => congrArg Except.ok (Except.ok.inj h),
      fun h => congrArg Except.ok (Except.ok.inj h)⟩

/-- A check with a failure, and then what is made of the value that was checked. -/
theorem map_check {c : Prop} [Decidable c] (f : α → β) (e : ε) (a : α) :
    f <$> (if c then do throw e; pure a else pure a : Except ε α) =
      if c then do throw e; pure (f a) else pure (f a) := by
  split <;> rfl

theorem toOption_bind (x : Except ε α) (f : α → Except ε β) :
    (x >>= f).toOption = x.toOption.bind fun a => (f a).toOption := by
  cases x <;> rfl

theorem toOption_eq_some {x : Except ε α} : x.toOption = some a ↔ x = .ok a := by
  cases x with
  | error e => exact ⟨nofun, nofun⟩
  | ok b => exact ⟨fun h => congrArg Except.ok (Option.some.inj h), fun h => by rw [h]; rfl⟩

/-- The outcome is a failure or meets a condition. -/
def Yields (p : α → Prop) (x : Except ε α) : Prop := ∀ a, x = .ok a → p a

@[simp]
theorem yields_ok {p : α → Prop} {a : α} : Yields p (.ok a : Except ε α) ↔ p a :=
  ⟨fun h => h a rfl, fun h _ he => Except.ok.inj he ▸ h⟩

@[simp]
theorem yields_error {p : α → Prop} {e : ε} : Yields p (.error e : Except ε α) := by
  intro a h
  cases h

@[simp]
theorem yields_pure {p : α → Prop} {a : α} : Yields p (pure a : Except ε α) ↔ p a := yields_ok

@[simp]
theorem yields_throw {p : α → Prop} {e : ε} : Yields p (throw e : Except ε α) := yields_error

@[simp]
theorem yields_true (x : Except ε α) : Yields (fun _ => True) x := fun _ _ => trivial

@[simp]
theorem yields_bind {p : β → Prop} {x : Except ε α} {f : α → Except ε β} :
    Yields p (x >>= f) ↔ Yields (fun a => Yields p (f a)) x := by
  cases x with
  | error e => exact ⟨fun _ => yields_error, fun _ => yields_error⟩
  | ok a => exact (yields_ok (p := fun a => Yields p (f a))).symm

@[simp]
theorem yields_map {p : β → Prop} {x : Except ε α} {f : α → β} :
    Yields p (f <$> x) ↔ Yields (fun a => p (f a)) x := by
  cases x with
  | error e => exact ⟨fun _ => yields_error, fun _ => yields_error⟩
  | ok a => exact yields_ok.trans (yields_ok (p := fun a => p (f a))).symm

@[simp]
theorem yields_ite {p : α → Prop} {c : Prop} [Decidable c] {x y : Except ε α} :
    Yields p (if c then x else y) ↔ (c → Yields p x) ∧ (¬ c → Yields p y) := by
  split <;> simp [*]

theorem Yields.of_forall {p : α → Prop} {x : Except ε α} (h : ∀ a, p a) : Yields p x :=
  fun a _ => h a

theorem Yields.imp {p q : α → Prop} {x : Except ε α} (h : Yields p x) (hq : ∀ a, p a → q a) :
    Yields q x :=
  fun a ha => hq a (h a ha)

theorem forall₂_of_mapM_eq_ok {f : α → Except ε β} {l : List α} {l' : List β}
    (h : l.mapM f = .ok l') : List.Forall₂ (fun a b => f a = .ok b) l l' := by
  induction l generalizing l' with
  | nil =>
    cases h
    exact .nil
  | cons a l ih =>
    rw [List.mapM_cons] at h
    obtain ⟨b, hb, h⟩ := bind_eq_ok.1 h
    obtain ⟨bs, hbs, h⟩ := bind_eq_ok.1 h
    cases h
    exact .cons hb (ih hbs)

theorem forall_of_mapM_eq_ok {p : β → Prop} {f : α → Except ε β} {l : List α} {l' : List β}
    (h : l.mapM f = .ok l') (hf : ∀ a b, f a = .ok b → p b) : ∀ b ∈ l', p b := by
  have hl := forall₂_of_mapM_eq_ok h
  intro b hb
  obtain ⟨i, hi, rfl⟩ := List.mem_iff_getElem.1 hb
  exact hf _ _ (hl.get (hl.length_eq ▸ hi) hi)

theorem mapM_eq_some_filterMap {f : α → Option β} {l : List α} (h : ∀ a ∈ l, (f a).isSome) :
    l.mapM f = some (l.filterMap f) := by
  induction l with
  | nil => rfl
  | cons a l ih =>
    obtain ⟨b, hb⟩ := Option.isSome_iff_exists.1 (h a (List.mem_cons_self ..))
    rw [List.mapM_cons, hb, ih fun c hc => h c (List.mem_cons_of_mem _ hc),
      List.filterMap_cons_some hb]
    rfl

end Spreadsheet
