import Mathlib.Data.Finset.Dedup
import Mathlib.Data.List.Nodup
import Spreadsheet.Multimap

/-!
Multimaps as the pairs that they hold. Every operation is told by what it does to the pairs, and
keeps keys and lists free of repeats and lists from being empty.
-/

namespace Spreadsheet

namespace Multimap

variable {α β : Type}

/-- No key stands twice, and every key has a list that is not empty and repeats nothing. -/
structure WellFormed (m : Multimap α β) : Prop where
  keys : (m.map Prod.fst).Nodup
  ne_nil : ∀ entry ∈ m, entry.2 ≠ []
  nodup : ∀ entry ∈ m, entry.2.Nodup

/-- All keys with each of their values. -/
def pairs (m : Multimap α β) : List (α × β) := m.flatMap fun (k, vs) => vs.map (k, ·)

theorem mem_pairs {m : Multimap α β} {k : α} {v : β} :
    (k, v) ∈ m.pairs ↔ ∃ vs, (k, vs) ∈ m ∧ v ∈ vs := by
  unfold pairs
  rw [List.mem_flatMap]
  constructor
  · rintro ⟨⟨l, vs⟩, hmem, hv⟩
    obtain ⟨w, hw, he⟩ := List.mem_map.1 hv
    cases he
    exact ⟨vs, hmem, hw⟩
  · rintro ⟨vs, hmem, hv⟩
    exact ⟨(k, vs), hmem, List.mem_map_of_mem hv⟩

theorem mem_pairs_cons {m : Multimap α β} {k l : α} {v : β} {vs : List β} :
    (k, v) ∈ pairs ((l, vs) :: m) ↔ (k = l ∧ v ∈ vs) ∨ (k, v) ∈ m.pairs := by
  rw [pairs, List.flatMap_cons, List.mem_append]
  refine or_congr ?_ Iff.rfl
  rw [List.mem_map]
  constructor
  · rintro ⟨w, hw, he⟩
    cases he
    exact ⟨rfl, hw⟩
  · rintro ⟨rfl, hv⟩
    exact ⟨v, hv, rfl⟩

theorem length_pairs (m : Multimap α β) : m.pairs.length = m.size := by
  induction m with
  | nil => rfl
  | cons entry m ih =>
    obtain ⟨k, vs⟩ := entry
    rw [pairs, List.flatMap_cons, List.length_append, List.length_map]
    exact congrArg (vs.length + ·) ih

theorem WellFormed.nil : WellFormed ([] : Multimap α β) :=
  ⟨List.nodup_nil, fun _ h => absurd h List.not_mem_nil, fun _ h => absurd h List.not_mem_nil⟩

theorem WellFormed.head_not_mem {m : Multimap α β} (h : WellFormed ((k, vs) :: m)) :
    k ∉ m.map Prod.fst :=
  (List.nodup_cons.1 h.keys).1

theorem WellFormed.tail {m : Multimap α β} (h : WellFormed (entry :: m)) : m.WellFormed :=
  ⟨(List.nodup_cons.1 h.keys).2, fun e he => h.ne_nil e (List.mem_cons_of_mem _ he),
    fun e he => h.nodup e (List.mem_cons_of_mem _ he)⟩

theorem WellFormed.cons {m : Multimap α β} (h : m.WellFormed) (hk : k ∉ m.map Prod.fst)
    (hne : vs ≠ []) (hvs : vs.Nodup) : WellFormed ((k, vs) :: m) := by
  refine ⟨List.nodup_cons.2 ⟨hk, h.keys⟩, fun e he => ?_, fun e he => ?_⟩
  · rcases List.mem_cons.1 he with rfl | he
    · exact hne
    · exact h.ne_nil e he
  · rcases List.mem_cons.1 he with rfl | he
    · exact hvs
    · exact h.nodup e he

theorem WellFormed.nodup_pairs {m : Multimap α β} (h : m.WellFormed) : m.pairs.Nodup := by
  induction m with
  | nil => exact List.nodup_nil
  | cons entry m ih =>
    obtain ⟨k, vs⟩ := entry
    have hvs : (vs.map (k, ·)).Nodup :=
      (h.nodup _ (List.mem_cons_self ..)).map fun _ _ he => congrArg Prod.snd he
    refine hvs.append (ih h.tail) ?_
    rintro ⟨l, v⟩ hl hm
    obtain ⟨w, -, he⟩ := List.mem_map.1 hl
    cases he
    obtain ⟨ws, hws, -⟩ := mem_pairs.1 hm
    exact h.head_not_mem (List.mem_map_of_mem hws)

theorem WellFormed.pairs_eq_nil_iff {m : Multimap α β} (h : m.WellFormed) :
    m.pairs = [] ↔ m = [] := by
  refine ⟨fun hnil => ?_, fun hm => by rw [hm]; rfl⟩
  cases m with
  | nil => rfl
  | cons entry m =>
    rw [pairs, List.flatMap_cons, List.append_eq_nil_iff, List.map_eq_nil_iff] at hnil
    exact absurd hnil.1 (h.ne_nil entry (List.mem_cons_self ..))

variable [DecidableEq α]

theorem get_cons (entry : α × List β) (m : Multimap α β) (k : α) :
    get (entry :: m) k = if k = entry.1 then entry.2 else get m k := by
  obtain ⟨l, vs⟩ := entry
  by_cases hk : k = l
  · simp [get, hk]
  · have hbeq : (k == l) = false := beq_false_of_ne hk
    simp [get, List.lookup_cons, hk, hbeq]

theorem WellFormed.mem_get {m : Multimap α β} (h : m.WellFormed) {k : α} {v : β} :
    v ∈ m.get k ↔ (k, v) ∈ m.pairs := by
  induction m with
  | nil => exact ⟨fun hv => absurd hv List.not_mem_nil, fun hv => absurd hv List.not_mem_nil⟩
  | cons entry m ih =>
    obtain ⟨l, vs⟩ := entry
    rw [get_cons, mem_pairs_cons]
    by_cases hk : k = l
    · subst hk
      have hout : (k, v) ∉ pairs m := fun hm => by
        obtain ⟨ws, hws, -⟩ := mem_pairs.1 hm
        exact h.head_not_mem (List.mem_map_of_mem hws)
      simp [hout]
    · rw [if_neg hk, ih h.tail]
      simp [hk]

theorem WellFormed.nodup_get {m : Multimap α β} (h : m.WellFormed) (k : α) :
    (m.get k).Nodup := by
  unfold get
  cases hl : m.lookup k with
  | none => exact List.nodup_nil
  | some vs =>
    obtain ⟨l₁, l₂, rfl, -⟩ := List.lookup_eq_some_iff.1 hl
    exact h.nodup (k, vs) (by simp)

/-! ### Removal of a key -/

theorem mem_pairs_eraseKey {m : Multimap α β} {k l : α} {w : β} :
    (l, w) ∈ (m.eraseKey k).pairs ↔ (l, w) ∈ m.pairs ∧ l ≠ k := by
  simp only [mem_pairs, eraseKey, List.mem_filter, bne_iff_ne]
  tauto

theorem WellFormed.eraseKey {m : Multimap α β} (h : m.WellFormed) (k : α) :
    (m.eraseKey k).WellFormed :=
  ⟨h.keys.sublist (List.filter_sublist.map _), fun e he => h.ne_nil e (List.mem_of_mem_filter he),
    fun e he => h.nodup e (List.mem_of_mem_filter he)⟩

variable [DecidableEq β]

/-! ### Insertion -/

theorem insert_cons (l : α) (vs : List β) (m : Multimap α β) (k : α) (v : β) :
    insert ((l, vs) :: m) k v =
      if l = k then (l, if v ∈ vs then vs else vs ++ [v]) :: m
      else (l, vs) :: insert m k v := rfl

theorem mem_pairs_insert {m : Multimap α β} {k l : α} {v w : β} :
    (l, w) ∈ (m.insert k v).pairs ↔ (l, w) = (k, v) ∨ (l, w) ∈ m.pairs := by
  induction m with
  | nil => simp [insert, pairs]
  | cons entry m ih =>
    obtain ⟨k', vs⟩ := entry
    rw [insert_cons]
    by_cases hk : k' = k
    · subst hk
      by_cases hv : v ∈ vs
      · rw [if_pos rfl, if_pos hv, mem_pairs_cons]
        refine ⟨.inr, ?_⟩
        rintro (he | h)
        · cases he
          exact .inl ⟨rfl, hv⟩
        · exact h
      · rw [if_pos rfl, if_neg hv, mem_pairs_cons, mem_pairs_cons, List.mem_append,
          List.mem_singleton, Prod.mk.injEq]
        tauto
    · rw [if_neg hk, mem_pairs_cons, mem_pairs_cons, ih]
      exact or_left_comm

theorem mem_keys_insert {m : Multimap α β} {k l : α} {v : β} :
    l ∈ (m.insert k v).map Prod.fst ↔ l = k ∨ l ∈ m.map Prod.fst := by
  induction m with
  | nil => simp [insert]
  | cons entry m ih =>
    obtain ⟨k', vs⟩ := entry
    rw [insert_cons]
    by_cases hk : k' = k
    · simp [hk]
    · rw [if_neg hk, List.map_cons, List.map_cons, List.mem_cons, List.mem_cons, ih]
      exact or_left_comm

theorem WellFormed.insert {m : Multimap α β} (h : m.WellFormed) (k : α) (v : β) :
    (m.insert k v).WellFormed := by
  induction m with
  | nil => exact h.cons List.not_mem_nil (List.cons_ne_nil _ _) (List.nodup_singleton v)
  | cons entry m ih =>
    obtain ⟨k', vs⟩ := entry
    have hvs : vs.Nodup := h.nodup _ (List.mem_cons_self ..)
    have hne : vs ≠ [] := h.ne_nil _ (List.mem_cons_self ..)
    rw [insert_cons]
    by_cases hk : k' = k
    · rw [if_pos hk]
      by_cases hv : v ∈ vs
      · rw [if_pos hv]
        exact h
      · rw [if_neg hv]
        refine h.tail.cons h.head_not_mem (by simp) (hvs.append (List.nodup_singleton v) ?_)
        simpa using hv
    · rw [if_neg hk]
      refine (ih h.tail).cons ?_ hne hvs
      rw [mem_keys_insert]
      rintro (he | hmem)
      · exact hk he
      · exact h.head_not_mem hmem

/-! ### Removal of values -/

theorem erase_cons (l : α) (vs : List β) (m : Multimap α β) (k : α) (v : β) :
    erase ((l, vs) :: m) k v =
      if l = k then
        if vs.erase v = [] then erase m k v else (l, vs.erase v) :: erase m k v
      else (l, vs) :: erase m k v := by
  unfold erase
  rw [List.filterMap_cons]
  by_cases hl : l = k
  · simp only [hl, ↓reduceIte]
    cases vs.erase v with
    | nil => rfl
    | cons w ws => rfl
  · simp only [hl, ↓reduceIte]

theorem mem_pairs_erase {m : Multimap α β} (h : m.WellFormed) {k l : α} {v w : β} :
    (l, w) ∈ (m.erase k v).pairs ↔ (l, w) ∈ m.pairs ∧ (l, w) ≠ (k, v) := by
  induction m with
  | nil => exact ⟨fun hm => absurd hm List.not_mem_nil, fun hm => absurd hm.1 List.not_mem_nil⟩
  | cons entry m ih =>
    obtain ⟨k', vs⟩ := entry
    have hmem : w ∈ vs.erase v ↔ w ≠ v ∧ w ∈ vs := (h.nodup _ (List.mem_cons_self ..)).mem_erase_iff
    rw [erase_cons, mem_pairs_cons]
    by_cases hk : k' = k
    · subst hk
      rw [if_pos rfl]
      by_cases hnil : vs.erase v = []
      · rw [if_pos hnil, ih h.tail]
        rw [hnil] at hmem
        have hout : ¬ (w ≠ v ∧ w ∈ vs) := fun hw => absurd (hmem.2 hw) List.not_mem_nil
        simp only [ne_eq, Prod.mk.injEq]
        tauto
      · rw [if_neg hnil, mem_pairs_cons, ih h.tail, hmem]
        simp only [ne_eq, Prod.mk.injEq]
        tauto
    · have hl : l = k' → (l, w) ≠ (k, v) := fun hl he => hk (hl ▸ congrArg Prod.fst he)
      rw [if_neg hk, mem_pairs_cons, ih h.tail]
      tauto

theorem keys_erase_sublist (m : Multimap α β) (k : α) (v : β) :
    ((m.erase k v).map Prod.fst).Sublist (m.map Prod.fst) := by
  induction m with
  | nil => exact .slnil
  | cons entry m ih =>
    obtain ⟨k', vs⟩ := entry
    rw [erase_cons]
    split
    · split
      · exact ih.cons _
      · exact ih.cons_cons _
    · exact ih.cons_cons _

theorem WellFormed.erase {m : Multimap α β} (h : m.WellFormed) (k : α) (v : β) :
    (m.erase k v).WellFormed := by
  induction m with
  | nil => exact .nil
  | cons entry m ih =>
    obtain ⟨k', vs⟩ := entry
    have hout : k' ∉ (Multimap.erase m k v).map Prod.fst := fun hmem =>
      h.head_not_mem ((keys_erase_sublist m k v).subset hmem)
    have hvs : vs.Nodup := h.nodup _ (List.mem_cons_self ..)
    rw [erase_cons]
    split
    · split
      · exact ih h.tail
      · exact (ih h.tail).cons hout ‹_› (hvs.erase v)
    · exact (ih h.tail).cons hout (h.ne_nil _ (List.mem_cons_self ..)) hvs

/-- Takes several pairs away. -/
def eraseAll (m : Multimap α β) (ps : List (α × β)) : Multimap α β :=
  ps.foldl (fun m p => m.erase p.1 p.2) m

theorem WellFormed.eraseAll {m : Multimap α β} (h : m.WellFormed) (ps : List (α × β)) :
    (m.eraseAll ps).WellFormed := by
  induction ps generalizing m with
  | nil => exact h
  | cons p ps ih => exact ih (h.erase p.1 p.2)

theorem mem_pairs_eraseAll {m : Multimap α β} (h : m.WellFormed) {ps : List (α × β)} {p : α × β} :
    p ∈ (m.eraseAll ps).pairs ↔ p ∈ m.pairs ∧ p ∉ ps := by
  induction ps generalizing m with
  | nil => simp [eraseAll]
  | cons q ps ih =>
    show p ∈ ((m.erase q.1 q.2).eraseAll ps).pairs ↔ _
    rw [ih (h.erase q.1 q.2), mem_pairs_erase h, List.mem_cons, not_or, and_assoc]

end Multimap

end Spreadsheet
