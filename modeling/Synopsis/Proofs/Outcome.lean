import Mathlib.Data.List.Forall2

/-!
# Results that may be faults

When steps in turn have a result, and where their fault comes from.
-/

namespace Synopsis

variable {ε α β : Type} {x : Except ε α} {f : α → Except ε β}

theorem bind_eq_ok {b : β} : x >>= f = .ok b ↔ ∃ a, x = .ok a ∧ f a = .ok b := by
  cases x with
  | error fault => exact ⟨nofun, nofun⟩
  | ok a =>
    constructor
    · exact fun h => ⟨a, rfl, h⟩
    · rintro ⟨_, ⟨⟩, h⟩
      exact h

theorem bind_eq_error {fault : ε} :
    x >>= f = .error fault ↔ x = .error fault ∨ ∃ a, x = .ok a ∧ f a = .error fault := by
  cases x with
  | error other =>
    constructor
    · exact fun h => Or.inl (by cases h; rfl)
    · rintro (⟨⟨⟩⟩ | ⟨_, ⟨⟩, _⟩)
      rfl
  | ok a =>
    constructor
    · exact fun h => Or.inr ⟨a, rfl, h⟩
    · rintro (⟨⟨⟩⟩ | ⟨_, ⟨⟩, h⟩)
      exact h

theorem toOption_eq_some_iff {a : α} : x.toOption = some a ↔ x = .ok a := by
  cases x <;> simp [Except.toOption]

/-- Steps have a result when the first one has, and with it those after it. -/
theorem exists_bind_ok : (∃ b, x >>= f = .ok b) ↔ ∃ a, x = .ok a ∧ ∃ b, f a = .ok b := by
  simp only [bind_eq_ok]
  constructor
  · rintro ⟨b, a, first, rest⟩
    exact ⟨a, first, b, rest⟩
  · rintro ⟨a, first, b, rest⟩
    exact ⟨b, a, first, rest⟩

theorem exists_pure_ok {a : α} : (∃ result, (pure a : Except ε α) = .ok result) ↔ True :=
  iff_of_true ⟨a, rfl⟩ trivial

theorem exists_map_ok {g : α → β} : (∃ b, x.map g = .ok b) ↔ ∃ a, x = .ok a := by
  cases x with
  | error fault => exact ⟨nofun, nofun⟩
  | ok a => exact iff_of_true ⟨g a, rfl⟩ ⟨a, rfl⟩

/-- All items have a result together when each of them has one. -/
theorem exists_mapM_ok {items : List α} :
    (∃ results, items.mapM f = .ok results) ↔ ∀ item ∈ items, ∃ result, f item = .ok result := by
  induction items with
  | nil => exact ⟨fun _ => by simp, fun _ => ⟨[], rfl⟩⟩
  | cons item items ih =>
    simp only [List.mapM_cons, exists_bind_ok, List.forall_mem_cons, ← ih]
    constructor
    · rintro ⟨first, hfirst, rest, hrest, -⟩
      exact ⟨⟨first, hfirst⟩, rest, hrest⟩
    · rintro ⟨⟨first, hfirst⟩, rest, hrest⟩
      exact ⟨first, hfirst, rest, hrest, first :: rest, rfl⟩

theorem mapM_map_ok {γ : Type} {items : List γ} {name : γ → α} {results : γ → β}
    (each : ∀ item ∈ items, f (name item) = .ok (results item)) :
    (items.map name).mapM f = .ok (items.map results) := by
  induction items with
  | nil => rfl
  | cons item items ih =>
    obtain ⟨first, rest⟩ := List.forall_mem_cons.mp each
    rw [List.map_cons, List.mapM_cons, first, ih rest]
    rfl

theorem forall₂_of_mapM_ok {items : List α} {results : List β}
    (h : items.mapM f = .ok results) :
    List.Forall₂ (fun item result => f item = .ok result) items results := by
  induction items generalizing results with
  | nil =>
    cases h
    exact .nil
  | cons item items ih =>
    rw [List.mapM_cons] at h
    obtain ⟨first, told, h⟩ := bind_eq_ok.mp h
    obtain ⟨rest, others, h⟩ := bind_eq_ok.mp h
    cases h
    exact .cons told (ih others)

theorem eq_filterMap_of_mapM_ok {items : List α} {results : List β}
    (h : items.mapM f = .ok results) :
    results = items.filterMap fun item => (f item).toOption := by
  have each := forall₂_of_mapM_ok h
  clear h
  induction each with
  | nil => rfl
  | cons told _ ih =>
    rw [List.filterMap_cons, told, ih]
    rfl

/-- Items in another order have the same results, in that order. -/
theorem mapM_ok_of_perm {items other : List α} {results : List β} (same : other.Perm items)
    (h : items.mapM f = .ok results) :
    ∃ others, other.mapM f = .ok others ∧ others.Perm results := by
  have each : ∀ item ∈ other, ∃ result, f item = .ok result := fun item inside =>
    exists_mapM_ok.mp ⟨results, h⟩ item (same.mem_iff.mp inside)
  obtain ⟨others, told⟩ := exists_mapM_ok.mpr each
  refine ⟨others, told, ?_⟩
  rw [eq_filterMap_of_mapM_ok told, eq_filterMap_of_mapM_ok h]
  exact same.filterMap _

theorem mapM_eq_error {items : List α} {fault : ε} (h : items.mapM f = .error fault) :
    ∃ item ∈ items, f item = .error fault := by
  induction items with
  | nil => cases h
  | cons item items ih =>
    rw [List.mapM_cons, bind_eq_error] at h
    rcases h with h | ⟨_, _, h⟩
    · exact ⟨item, List.mem_cons_self, h⟩
    · rcases bind_eq_error.mp h with h | ⟨_, _, h⟩
      · obtain ⟨other, hother, h⟩ := ih h
        exact ⟨other, List.mem_cons_of_mem item hother, h⟩
      · cases h

end Synopsis
