import Synopsis.Table

/-!
# Sorting and leading parts

What is sorted has the same items, and is in order when the order is total. Items of equal rank stay
in the order in which they were given. Items that are renamed in a way that keeps their order may be
sorted before or after. A leading part holds no other items than the list; its length depends on the
limit and on the length of the list, and a negative limit bounds nothing by itself.
-/

namespace Synopsis

variable {α : Type} {le : α → α → Bool}

theorem insertBy_perm (item : α) (items : List α) :
    (insertBy le item items).Perm (item :: items) := by
  induction items with
  | nil => exact .refl _
  | cons other rest ih =>
    rw [insertBy]
    split
    · exact .refl _
    · exact (ih.cons other).trans (.swap item other rest)

theorem sortBy_perm (items : List α) : (sortBy le items).Perm items := by
  induction items with
  | nil => exact .refl _
  | cons item items ih => exact (insertBy_perm item _).trans (ih.cons item)

theorem pairwise_insertBy (trans : ∀ a b c, le a b = true → le b c = true → le a c = true)
    (total : ∀ a b, le a b = true ∨ le b a = true) {items : List α} (item : α)
    (h : items.Pairwise fun a b => le a b = true) :
    (insertBy le item items).Pairwise fun a b => le a b = true := by
  induction items with
  | nil => exact List.pairwise_singleton _ item
  | cons other rest ih =>
    obtain ⟨hother, hrest⟩ := List.pairwise_cons.mp h
    rw [insertBy]
    split
    · rename_i before
      refine List.pairwise_cons.mpr ⟨?_, h⟩
      intro next hnext
      rcases List.mem_cons.mp hnext with rfl | hnext
      · exact before
      · exact trans item other next before (hother next hnext)
    · rename_i after
      refine List.pairwise_cons.mpr ⟨?_, ih hrest⟩
      intro next hnext
      rcases List.mem_cons.mp ((insertBy_perm item rest).mem_iff.mp hnext) with rfl | hnext
      · exact (total other next).resolve_right after
      · exact hother next hnext

theorem pairwise_sortBy (trans : ∀ a b c, le a b = true → le b c = true → le a c = true)
    (total : ∀ a b, le a b = true ∨ le b a = true) (items : List α) :
    (sortBy le items).Pairwise fun a b => le a b = true := by
  induction items with
  | nil => exact List.Pairwise.nil
  | cons item items ih => exact pairwise_insertBy trans total item ih

section Stable

variable {R : α → α → Prop}

/-- An item that comes before all others is put behind only those that it may not stand before. -/
theorem stable_insertBy {item : α} {items : List α} (first : ∀ next ∈ items, R item next)
    (h : items.Pairwise fun a b => le b a = true → R a b) :
    (insertBy le item items).Pairwise fun a b => le b a = true → R a b := by
  induction items with
  | nil => exact List.pairwise_singleton _ item
  | cons other rest ih =>
    obtain ⟨hother, hrest⟩ := List.pairwise_cons.mp h
    rw [insertBy]
    split
    · exact List.pairwise_cons.mpr ⟨fun next hnext _ => first next hnext, h⟩
    · rename_i after
      refine List.pairwise_cons.mpr ⟨?_, ih (fun next hnext => first next ?_) hrest⟩
      · intro next hnext
        rcases List.mem_cons.mp ((insertBy_perm item rest).mem_iff.mp hnext) with rfl | hnext
        · exact fun before => absurd before after
        · exact hother next hnext
      · exact List.mem_cons_of_mem other hnext

/-- What holds of any two items in their order still holds of those that may stand either way. -/
theorem stable_sortBy {items : List α} (h : items.Pairwise R) :
    (sortBy le items).Pairwise fun a b => le b a = true → R a b := by
  induction items with
  | nil => exact List.Pairwise.nil
  | cons item items ih =>
    obtain ⟨first, rest⟩ := List.pairwise_cons.mp h
    exact stable_insertBy (fun next hnext => first next ((sortBy_perm items).mem_iff.mp hnext))
      (ih rest)

end Stable

section Renaming

variable {β : Type} {other : β → β → Bool} {f : α → β} (keeps : ∀ a b, other (f a) (f b) = le a b)
include keeps

theorem insertBy_map (item : α) (items : List α) :
    insertBy other (f item) (items.map f) = (insertBy le item items).map f := by
  induction items with
  | nil => rfl
  | cons next rest ih =>
    rw [List.map_cons, insertBy, insertBy, keeps, ih]
    split <;> rfl

theorem sortBy_map (items : List α) : sortBy other (items.map f) = (sortBy le items).map f := by
  induction items with
  | nil => rfl
  | cons item items ih =>
    have step : sortBy other ((item :: items).map f) =
        insertBy other (f item) (sortBy other (items.map f)) := rfl
    rw [step, ih, insertBy_map keeps]
    rfl

end Renaming

/-! ## Leading parts -/

theorem length_leading_le (limit : Int) (xs : List α) : (leading limit xs).length ≤ xs.length := by
  unfold leading
  split
  · exact List.length_take_le' _ _
  · exact List.length_take_le' _ _

theorem leading_subset (limit : Int) (xs : List α) : leading limit xs ⊆ xs := by
  unfold leading
  split
  · exact List.take_subset _ _
  · exact List.take_subset _ _

/-- How many of so many items a limit leaves. -/
def allowed (limit : Int) (count : Nat) : Nat :=
  if 0 ≤ limit then min limit.toNat count else count - limit.natAbs

theorem length_leading (limit : Int) (xs : List α) :
    (leading limit xs).length = allowed limit xs.length := by
  unfold leading allowed
  split
  · rw [List.length_take]
  · rw [List.length_take, Nat.min_eq_left (Nat.sub_le _ _)]

theorem allowed_le {limit : Int} (nonnegative : 0 ≤ limit) (count : Nat) :
    (allowed limit count : Int) ≤ limit := by
  rw [allowed, if_pos nonnegative]
  omega

end Synopsis
