import Synopsis.Project
import Synopsis.Proofs.Disk.Put

/-!
# Counting names

A table of counts, one name counted after another: each name has the number of its occurrences, and
the counts together are as many as the names. The order of the names does not matter for either.
-/

namespace Synopsis

namespace Table

/-- The counts of a table together. -/
def total : Table Int → Int
  | [] => 0
  | (_, count) :: rest => count + total rest

theorem total_put (name : String) (value : Int) (table : Table Int) :
    total (put name value table) = total table + value - (get? name table).getD 0 := by
  induction table with
  | nil => simp [total, put, get?]
  | cons first rest ih =>
    obtain ⟨key, old⟩ := first
    by_cases same : key = name
    · simp only [total, put, get?, if_pos same, Option.getD_some]
      omega
    · simp only [total, put, get?, if_neg same, ih]
      omega

/-- A name that is counted once more is one more. -/
theorem total_tally (name : String) (table : Table Int) :
    total (tally name table) = total table + 1 := by
  rw [tally, total_put]
  omega

theorem mem_names_put {α : Type} {name other : String} {value : α} {table : Table α} :
    other ∈ names (put name value table) ↔ other = name ∨ other ∈ names table := by
  induction table with
  | nil => simp [put, names]
  | cons first rest ih =>
    obtain ⟨key, old⟩ := first
    simp only [names] at ih
    by_cases same : key = name
    · simp [put, names, same]
    · simp only [put, names, if_neg same, List.map_cons, List.mem_cons, ih]
      exact or_left_comm

theorem nodup_names_put {α : Type} {name : String} {value : α} {table : Table α}
    (distinct : (names table).Nodup) : (names (put name value table)).Nodup := by
  induction table with
  | nil => simp [put, names]
  | cons first rest ih =>
    obtain ⟨key, old⟩ := first
    obtain ⟨apart, distinct⟩ := List.nodup_cons.mp distinct
    by_cases same : key = name
    · subst same
      rw [put, if_pos rfl]
      exact List.nodup_cons.mpr ⟨apart, distinct⟩
    · rw [put, if_neg same]
      refine List.nodup_cons.mpr ⟨fun inside => ?_, ih distinct⟩
      rcases mem_names_put.mp inside with rfl | inside
      · exact same rfl
      · exact apart inside

end Table

namespace Project

open Table

section Fold

variable (names : List String) (table : Table Int)

/-- Counting names on top of a table, one after another. -/
theorem total_foldl_tally :
    total (names.foldl (fun table name => tally name table) table) =
      total table + names.length := by
  induction names generalizing table with
  | nil => simp
  | cons name names ih =>
    rw [List.foldl_cons, ih, total_tally, List.length_cons]
    omega

theorem get?_foldl_tally (name : String) :
    get? name (names.foldl (fun table name => tally name table) table) =
      if name ∈ names then some ((get? name table).getD 0 + names.count name)
      else get? name table := by
  induction names generalizing table with
  | nil => simp
  | cons first names ih =>
    rw [List.foldl_cons, ih]
    by_cases here : name = first
    · subst here
      rw [tally, get?_put_self, if_pos List.mem_cons_self, List.count_cons_self]
      by_cases later : name ∈ names
      · rw [if_pos later, Option.getD_some]
        congr 1
        omega
      · rw [if_neg later, List.count_eq_zero_of_not_mem later]
        rfl
    · rw [tally, get?_put_of_ne here, List.count_cons_of_ne (Ne.symm here)]
      simp only [List.mem_cons, here, false_or]

theorem mem_names_foldl_tally (name : String) :
    name ∈ Table.names (names.foldl (fun table name => tally name table) table) ↔
      name ∈ names ∨ name ∈ Table.names table := by
  induction names generalizing table with
  | nil => simp
  | cons first names ih =>
    rw [List.foldl_cons, ih, tally, mem_names_put, List.mem_cons, or_left_comm, or_assoc]

theorem nodup_names_foldl_tally (distinct : (Table.names table).Nodup) :
    (Table.names (names.foldl (fun table name => tally name table) table)).Nodup := by
  induction names generalizing table with
  | nil => exact distinct
  | cons first names ih => exact ih _ (nodup_names_put distinct)

end Fold

variable {names other : List String}

/-- The counts together are as many as the names. -/
theorem total_tallies (names : List String) : total (tallies names) = names.length := by
  rw [tallies, total_foldl_tally]
  simp [total]

/-- A name that occurs has the number of its occurrences, another one has no count. -/
theorem get?_tallies (names : List String) (name : String) :
    get? name (tallies names) = if name ∈ names then some (names.count name : Int) else none := by
  rw [tallies, get?_foldl_tally]
  simp [get?]

theorem mem_names_tallies {name : String} : name ∈ Table.names (tallies names) ↔ name ∈ names := by
  rw [tallies, mem_names_foldl_tally]
  simp [Table.names]

/-- A name is listed once. -/
theorem nodup_names_tallies (names : List String) : (Table.names (tallies names)).Nodup :=
  nodup_names_foldl_tally names [] List.nodup_nil

/-- The counts do not depend on the order of the names. -/
theorem get?_tallies_of_perm (same : other.Perm names) (name : String) :
    get? name (tallies other) = get? name (tallies names) := by
  rw [get?_tallies, get?_tallies, same.count_eq]
  simp only [same.mem_iff]

end Project

end Synopsis
