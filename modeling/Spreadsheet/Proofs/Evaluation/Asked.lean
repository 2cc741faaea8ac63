import Spreadsheet.Query

/-!
What a query asks its source for, and how to bound it: the requests of a sequence of queries are
those of each, made for the results that the ones before can have.
-/

namespace Spreadsheet

namespace Query

/-- The cells and ranges that a run asks for, in order. The first failure ends it. -/
def asked (source : Source) : Query α → List Reference
  | done _ => []
  | cell ref next =>
    .cell ref ::
      match source.cell ref with
      | .ok v => (next v).asked source
      | .error _ => []
  | range ref next =>
    .range ref ::
      match source.range ref with
      | .ok rows => (next (padRows rows)).asked source
      | .error _ => []
  | unknown _ next => next.asked source

/-- A run asks only for what is allowed, and ends in a result of some kind if nothing fails. -/
def Within (source : Source) (allowed : Reference → Prop) (kind : α → Prop) : Query α → Prop
  | done a => kind a
  | cell ref next =>
    allowed (.cell ref) ∧
      ∀ v, source.cell ref = .ok v → (next v).Within source allowed kind
  | range ref next =>
    allowed (.range ref) ∧
      ∀ rows, source.range ref = .ok rows → (next (padRows rows)).Within source allowed kind
  | unknown _ next => next.Within source allowed kind

variable {source : Source} {allowed : Reference → Prop}

theorem Within.asked {kind : α → Prop} {q : Query α} (h : q.Within source allowed kind) :
    ∀ r ∈ q.asked source, allowed r := by
  induction q with
  | done a => exact fun r hr => absurd hr List.not_mem_nil
  | cell ref next ih =>
    intro r hr
    rw [Query.asked] at hr
    rcases List.mem_cons.1 hr with rfl | hr
    · exact h.1
    · cases hs : source.cell ref with
      | ok v =>
        rw [hs] at hr
        exact ih v (h.2 v hs) r hr
      | error message =>
        rw [hs] at hr
        exact absurd hr List.not_mem_nil
  | range ref next ih =>
    intro r hr
    rw [Query.asked] at hr
    rcases List.mem_cons.1 hr with rfl | hr
    · exact h.1
    · cases hs : source.range ref with
      | ok rows =>
        rw [hs] at hr
        exact ih _ (h.2 rows hs) r hr
      | error message =>
        rw [hs] at hr
        exact absurd hr List.not_mem_nil
  | unknown function next ih => exact ih h

theorem Within.imp {kind kind' : α → Prop} {q : Query α} (h : q.Within source allowed kind)
    (hk : ∀ a, kind a → kind' a) : q.Within source allowed kind' := by
  induction q with
  | done a => exact hk a h
  | cell ref next ih => exact ⟨h.1, fun v hv => ih v (h.2 v hv)⟩
  | range ref next ih => exact ⟨h.1, fun rows hr => ih _ (h.2 rows hr)⟩
  | unknown function next ih => exact ih h

theorem Within.bind {kind : α → Prop} {kind' : β → Prop} {q : Query α} {f : α → Query β}
    (h : q.Within source allowed kind) (hf : ∀ a, kind a → (f a).Within source allowed kind') :
    (q >>= f).Within source allowed kind' := by
  induction q with
  | done a => exact hf a h
  | cell ref next ih => exact ⟨h.1, fun v hv => ih v (h.2 v hv)⟩
  | range ref next ih => exact ⟨h.1, fun rows hr => ih _ (h.2 rows hr)⟩
  | unknown function next ih => exact ih h

theorem Within.map {kind : α → Prop} {kind' : β → Prop} {q : Query α} {f : α → β}
    (h : q.Within source allowed kind) (hf : ∀ a, kind a → kind' (f a)) :
    (f <$> q).Within source allowed kind' :=
  h.bind hf

/-- Where all requests are allowed, only the result of the run counts. -/
theorem within_true_iff {kind : α → Prop} {q : Query α} :
    q.Within source (fun _ => True) kind ↔ ∀ a, (q.run source).1 = .ok a → kind a := by
  induction q with
  | done a => exact ⟨fun h b hb => Except.ok.inj hb ▸ h, fun h => h a rfl⟩
  | cell ref next ih =>
    rw [Within, run]
    cases source.cell ref with
    | ok v =>
      refine ⟨fun h => (ih v).1 (h.2 v rfl), fun h => ⟨trivial, fun w hw => ?_⟩⟩
      obtain rfl := Except.ok.inj hw
      exact (ih v).2 h
    | error message => exact ⟨fun _ _ => nofun, fun _ => ⟨trivial, nofun⟩⟩
  | range ref next ih =>
    rw [Within, run]
    cases source.range ref with
    | ok rows =>
      refine ⟨fun h => (ih _).1 (h.2 rows rfl), fun h => ⟨trivial, fun rows' hrows => ?_⟩⟩
      obtain rfl := Except.ok.inj hrows
      exact (ih _).2 h
    | error message => exact ⟨fun _ _ => nofun, fun _ => ⟨trivial, nofun⟩⟩
  | unknown function next ih => exact ih

theorem within_true (q : Query α) : q.Within source (fun _ => True) fun _ => True :=
  within_true_iff.2 fun _ _ => trivial

end Query

end Spreadsheet
