import Mathlib.Data.List.Nodup
import Mathlib.Data.List.Perm.Subperm
import Synopsis.Proofs.Sort
import Synopsis.Table

/-!
# The most common names

Of a table of counts, the entries with the largest counts are kept, as many as a limit allows, and
of two entries with one count the earlier one is kept first. There is only one such list. The names
of the table are taken to differ, so that an entry has one place; negative limits are not spoken of.
-/

namespace Synopsis

variable {counts kept other : Table Int} {limit : ℕ}

/-- An entry with the larger count, or with the same count and the earlier place. -/
def Outranks (counts : Table Int) (a b : String × Int) : Prop :=
  b.2 < a.2 ∨ b.2 = a.2 ∧ counts.idxOf a < counts.idxOf b

/-- As many entries as the limit allows, in the order of their rank, with none left
away that outranks one of them. -/
structure IsMostCommon (counts : Table Int) (limit : ℕ) (kept : Table Int) : Prop where
  length : kept.length = min limit counts.length
  distinct : kept.names.Nodup
  listed : kept ⊆ counts
  ranked : kept.Pairwise (Outranks counts)
  omitted : ∀ a ∈ kept, ∀ b ∈ counts, b ∉ kept → Outranks counts a b

theorem nodup_of_names (distinct : kept.names.Nodup) : kept.Nodup :=
  List.Nodup.of_map Prod.fst distinct

/-! ## Ranks -/

theorem Outranks.asymm {a b : String × Int} (h : Outranks counts a b) : ¬ Outranks counts b a := by
  unfold Outranks at *
  omega

theorem idxOf_increasing (distinct : counts.names.Nodup) :
    counts.Pairwise fun a b => counts.idxOf a < counts.idxOf b := by
  have once := nodup_of_names distinct
  rw [List.pairwise_iff_getElem]
  intro i j hi hj earlier
  rwa [once.idxOf_getElem, once.idxOf_getElem]

theorem sortBy_ranked (distinct : counts.names.Nodup) :
    (sortBy (fun a b => decide (b.2 ≤ a.2)) counts).Pairwise (Outranks counts) := by
  have ordered : (sortBy (fun a b => decide (b.2 ≤ a.2)) counts).Pairwise
      fun a b => decide (b.2 ≤ a.2) = true :=
    pairwise_sortBy (by simp only [decide_eq_true_eq]; omega)
      (by simp only [decide_eq_true_eq]; omega) counts
  have stable : (sortBy (fun a b => decide (b.2 ≤ a.2)) counts).Pairwise
      fun a b => decide (a.2 ≤ b.2) = true → counts.idxOf a < counts.idxOf b :=
    stable_sortBy (idxOf_increasing distinct)
  refine (ordered.and stable).imp ?_
  rintro a b ⟨most, tie⟩
  rw [decide_eq_true_eq] at most tie
  rcases Int.lt_or_eq_of_le most with more | same
  · exact Or.inl more
  · exact Or.inr ⟨same, tie (Int.le_of_eq same.symm)⟩

/-! ## What is kept -/

theorem isMostCommon_mostCommon (distinct : counts.names.Nodup) :
    IsMostCommon counts limit (mostCommon counts limit) := by
  have ranked := sortBy_ranked distinct
  have same : (sortBy (fun a b => decide (b.2 ≤ a.2)) counts).Perm counts := sortBy_perm counts
  have cut : mostCommon counts limit =
      (sortBy (fun a b => decide (b.2 ≤ a.2)) counts).take limit := by
    rw [mostCommon, leading, if_pos (Int.natCast_nonneg limit), Int.toNat_natCast]
  rw [cut]
  generalize sortBy (fun a b : String × Int => decide (b.2 ≤ a.2)) counts = sorted at ranked same
  have listed : sorted.take limit ⊆ sorted := List.take_subset limit sorted
  refine {
    length := by rw [List.length_take, same.length_eq]
    distinct := ?_
    listed := fun a h => same.mem_iff.mp (listed h)
    ranked := ranked.sublist (List.take_sublist limit sorted)
    omitted := ?_ }
  · have names : (Table.names sorted).Nodup := (same.map Prod.fst).nodup_iff.mpr distinct
    exact names.sublist ((List.take_sublist limit sorted).map Prod.fst)
  · intro a ha b hb left
    rw [← List.take_append_drop limit sorted, List.pairwise_append] at ranked
    rw [← same.mem_iff, ← List.take_append_drop limit sorted, List.mem_append] at hb
    exact ranked.2.2 a ha b (hb.resolve_left left)

/-- Neither of two such lists leaves away what the other one keeps, since each of the two entries
would outrank the other one. -/
theorem IsMostCommon.subset (h : IsMostCommon counts limit kept)
    (h' : IsMostCommon counts limit other) : kept ⊆ other := by
  intro a ha
  by_contra left
  have fewer : ¬ ∀ b ∈ other, b ∈ kept := by
    intro sub
    have once : (a :: other).Nodup := List.nodup_cons.mpr ⟨left, nodup_of_names h'.distinct⟩
    have most := (List.subperm_of_subset once (List.cons_subset.mpr ⟨ha, sub⟩)).length_le
    rw [List.length_cons, h.length, h'.length] at most
    omega
  push Not at fewer
  obtain ⟨b, hb, missing⟩ := fewer
  exact (h.omitted a ha b (h'.listed hb) missing).asymm (h'.omitted b hb a (h.listed ha) left)

theorem IsMostCommon.unique (h : IsMostCommon counts limit kept)
    (h' : IsMostCommon counts limit other) : kept = other := by
  have same : kept.Perm other :=
    (List.perm_ext_iff_of_nodup (nodup_of_names h.distinct) (nodup_of_names h'.distinct)).mpr
      fun a => ⟨fun ha => h.subset h' ha, fun ha => h'.subset h ha⟩
  exact same.eq_of_pairwise (fun a b _ _ before after => absurd after before.asymm)
    h.ranked h'.ranked

/-- The entries that are shown of a table of counts are its most common ones. -/
theorem mostCommon_eq_iff (distinct : counts.names.Nodup) :
    mostCommon counts limit = kept ↔ IsMostCommon counts limit kept := by
  constructor
  · rintro rfl
    exact isMostCommon_mostCommon distinct
  · exact (isMostCommon_mostCommon distinct).unique

/-- The limit cuts between two extensions of equal count. -/
theorem mostCommon_eq_extensions :
    Table.names [(".py", 2), (".js", 5), (".md", (2 : Int)), (".ts", 5), (".c", 1)] =
        [".py", ".js", ".md", ".ts", ".c"] ∧
      IsMostCommon [(".py", 2), (".js", 5), (".md", 2), (".ts", 5), (".c", 1)] 3
        [(".js", 5), (".ts", 5), (".py", 2)] :=
  ⟨rfl, (mostCommon_eq_iff (by decide)).mp (by decide)⟩

end Synopsis
