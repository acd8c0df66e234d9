import Mathlib.Data.List.Induction
import Synopsis.Proofs.Tally

/-!
# Tables put over tables

A table that is put over another one adds its new names at the end and replaces the values of the
others at their places. Tables of pairs are made that way, so that pairs which follow other pairs
give the table of the first put over by the table of the second. The names of a table are taken to
differ where the order in which they are put could show.
-/

namespace Synopsis

namespace Table

variable {α : Type} {name other : String} {value old : α} {table more : Table α}

theorem ofPairs_eq (pairs : List (String × α)) : ofPairs pairs = merge [] pairs := rfl

theorem merge_cons (table : Table α) (name : String) (value : α) (more : Table α) :
    merge table ((name, value) :: more) = merge (put name value table) more := rfl

theorem merge_append (table : Table α) (first second : List (String × α)) :
    merge table (first ++ second) = merge (merge table first) second :=
  List.foldl_append

/-! ## Names and values -/

theorem names_cons (name : String) (value : α) (table : Table α) :
    names ((name, value) :: table) = name :: names table := rfl

theorem names_put_of_mem (present : name ∈ names table) :
    names (put name value table) = names table := by
  induction table with
  | nil => cases present
  | cons first rest ih =>
    obtain ⟨key, old⟩ := first
    by_cases same : key = name
    · rw [put, if_pos same, names_cons, names_cons, same]
    · have later : name ∈ names rest := (List.mem_cons.mp present).resolve_left (Ne.symm same)
      rw [put, if_neg same, names_cons, names_cons, ih later]

theorem put_of_notMem (absent : name ∉ names table) :
    put name value table = table ++ [(name, value)] := by
  induction table with
  | nil => rfl
  | cons first rest ih =>
    obtain ⟨key, old⟩ := first
    have other : ¬ key = name := fun same => absent (same ▸ List.mem_cons_self)
    rw [put, if_neg other, ih fun later => absent (List.mem_cons_of_mem _ later), List.cons_append]

theorem get?_of_notMem (absent : name ∉ names table) : get? name table = none := by
  induction table with
  | nil => rfl
  | cons first rest ih =>
    obtain ⟨key, old⟩ := first
    have other : ¬ key = name := fun same => absent (same ▸ List.mem_cons_self)
    rw [get?, if_neg other, ih fun later => absent (List.mem_cons_of_mem _ later)]

theorem nodup_names_merge (distinct : (names table).Nodup) (more : Table α) :
    (names (merge table more)).Nodup := by
  induction more generalizing table with
  | nil => exact distinct
  | cons first rest ih => exact ih (nodup_names_put distinct)

theorem nodup_names_nil : (names ([] : Table α)).Nodup := List.nodup_nil

theorem nodup_names_ofPairs (pairs : List (String × α)) : (names (ofPairs pairs)).Nodup :=
  nodup_names_merge nodup_names_nil pairs

theorem mem_put {entry : String × α} (h : entry ∈ put name value table) :
    entry = (name, value) ∨ entry ∈ table := by
  induction table with
  | nil => exact Or.inl (List.mem_singleton.mp h)
  | cons first rest ih =>
    obtain ⟨key, old⟩ := first
    rw [put] at h
    split at h
    · exact (List.mem_cons.mp h).imp_right (List.mem_cons_of_mem _)
    · rcases List.mem_cons.mp h with rfl | h
      · exact Or.inr List.mem_cons_self
      · exact (ih h).imp_right (List.mem_cons_of_mem _)

/-- Nothing is in a table of pairs but pairs. -/
theorem mem_of_mem_merge {entry : String × α} (h : entry ∈ merge table more) :
    entry ∈ table ∨ entry ∈ more := by
  induction more generalizing table with
  | nil => exact Or.inl h
  | cons first rest ih =>
    rcases ih h with h | h
    · exact (mem_put h).symm.imp_right fun same => List.mem_cons.mpr (Or.inl same)
    · exact Or.inr (List.mem_cons_of_mem _ h)

theorem mem_of_mem_ofPairs {pairs : List (String × α)} {entry : String × α}
    (h : entry ∈ ofPairs pairs) : entry ∈ pairs :=
  (mem_of_mem_merge h).resolve_left List.not_mem_nil

/-- Names that all differ are put at the end, one after another. -/
theorem merge_of_nodup (distinct : (names (table ++ more)).Nodup) :
    merge table more = table ++ more := by
  induction more generalizing table with
  | nil => exact (List.append_nil table).symm
  | cons first rest ih =>
    obtain ⟨key, value⟩ := first
    have fresh : key ∉ names table := by
      intro present
      rw [names, List.map_append, List.nodup_append] at distinct
      exact distinct.2.2 key present key List.mem_cons_self rfl
    have onward : table ++ (key, value) :: rest = table ++ [(key, value)] ++ rest := by simp
    rw [onward] at distinct ⊢
    rw [merge_cons, put_of_notMem fresh, ih distinct]

theorem ofPairs_of_nodup {pairs : List (String × α)} (distinct : (names pairs).Nodup) :
    ofPairs pairs = pairs :=
  merge_of_nodup distinct

/-- New names come after the old ones. -/
theorem names_merge (table : Table α) (distinct : (names more).Nodup) :
    names (merge table more) = names table ++ (names more).filter (· ∉ names table) := by
  induction more generalizing table with
  | nil => exact (List.append_nil _).symm
  | cons first rest ih =>
    obtain ⟨key, value⟩ := first
    obtain ⟨apart, distinct⟩ := List.nodup_cons.mp distinct
    rw [merge_cons, ih _ distinct, names_cons]
    by_cases present : key ∈ names table
    · rw [names_put_of_mem present, List.filter_cons_of_neg (by simpa using present)]
    · have fresh : (names rest).filter (· ∉ names (put key value table)) =
          (names rest).filter (· ∉ names table) := by
        refine List.filter_congr fun other h => decide_eq_decide.mpr (not_congr ?_)
        have different : other ≠ key := fun same => apart (same ▸ h)
        rw [mem_names_put, or_iff_right different]
      rw [fresh, put_of_notMem present, List.filter_cons_of_pos (by simpa using present)]
      simp [names]

/-- The value of a name is the one that is put over, if there is one. -/
theorem get?_merge (name : String) (table : Table α) (distinct : (names more).Nodup) :
    get? name (merge table more) = (get? name more).or (get? name table) := by
  induction more generalizing table with
  | nil => rfl
  | cons first rest ih =>
    obtain ⟨key, value⟩ := first
    obtain ⟨apart, distinct⟩ := List.nodup_cons.mp distinct
    rw [merge_cons, ih _ distinct, get?]
    by_cases same : key = name
    · subst same
      rw [if_pos rfl, get?_of_notMem apart, get?_put_self]
      rfl
    · rw [if_neg same, get?_put_of_ne (Ne.symm same)]

/-! ## One after another -/

theorem put_put_self : put name value (put name old table) = put name value table := by
  induction table with
  | nil => simp [put]
  | cons first rest ih =>
    obtain ⟨key, held⟩ := first
    by_cases same : key = name
    · simp [put, same]
    · simp [put, same, ih]

/-- A name that is there keeps its place, whatever is put besides. -/
theorem put_put_comm (different : name ≠ other) (present : name ∈ names table) (held : α) :
    put name value (put other held table) = put other held (put name value table) := by
  induction table with
  | nil => cases present
  | cons first rest ih =>
    obtain ⟨key, old⟩ := first
    by_cases same : key = name
    · subst same
      simp [put, different]
    · by_cases here : key = other
      · subst here
        simp [put, same]
      · have later : name ∈ names rest := (List.mem_cons.mp present).resolve_left (Ne.symm same)
        simp [put, same, here, ih later]

theorem put_merge (present : name ∈ names table) (apart : name ∉ names more) :
    put name value (merge table more) = merge (put name value table) more := by
  induction more generalizing table with
  | nil => rfl
  | cons first rest ih =>
    obtain ⟨key, held⟩ := first
    rw [names_cons, List.mem_cons, not_or] at apart
    obtain ⟨different, apart⟩ := apart
    rw [merge_cons, merge_cons, ih (mem_names_put.mpr (Or.inr present)) apart,
      put_put_comm different present]

theorem merge_put (table : Table α) (distinct : (names more).Nodup) :
    merge table (put name value more) = put name value (merge table more) := by
  induction more generalizing table with
  | nil => rfl
  | cons first rest ih =>
    obtain ⟨key, held⟩ := first
    obtain ⟨apart, distinct⟩ := List.nodup_cons.mp distinct
    by_cases same : key = name
    · subst same
      have present : key ∈ names (put key held table) := mem_names_put.mpr (Or.inl rfl)
      rw [put, if_pos rfl, merge_cons, merge_cons, put_merge present apart, put_put_self]
    · rw [put, if_neg same, merge_cons, merge_cons, ih _ distinct]

theorem merge_merge (table : Table α) (distinct : (names more).Nodup) (last : Table α) :
    merge table (merge more last) = merge (merge table more) last := by
  induction last generalizing more with
  | nil => rfl
  | cons first rest ih =>
    obtain ⟨key, held⟩ := first
    rw [merge_cons, merge_cons, ih (nodup_names_put distinct), merge_put table distinct]

/-- Pairs that follow others are put over what those give. -/
theorem ofPairs_append (first second : List (String × α)) :
    ofPairs (first ++ second) = (ofPairs first).merge (ofPairs second) := by
  rw [ofPairs_eq second, merge_merge _ nodup_names_nil]
  exact merge_append [] first second

theorem merge_ofPairs (table : Table α) (pairs : List (String × α)) :
    merge table (ofPairs pairs) = merge table pairs := by
  rw [ofPairs_eq, merge_merge table nodup_names_nil]
  rfl

theorem foldl_merge (table : Table α) (tables : List (Table α)) :
    tables.foldl merge table = merge table tables.flatten := by
  induction tables generalizing table with
  | nil => rfl
  | cons first rest ih => rw [List.foldl_cons, ih, List.flatten_cons, merge_append]

/-- The table that pairs give one after another: each name is where it first came and has the value
that came last. -/
structure Joins (pairs : List (String × α)) (table : Table α) : Prop where
  names : table.names = (pairs.map Prod.fst).eraseDups
  value : ∀ name, table.get? name = pairs.reverse.lookup name

theorem joins_ofPairs (pairs : List (String × α)) : Joins pairs (ofPairs pairs) := by
  induction pairs using List.reverseRecOn with
  | nil => exact ⟨rfl, fun _ => rfl⟩
  | append_singleton pairs last ih =>
    obtain ⟨name, value⟩ := last
    have step : ofPairs (pairs ++ [(name, value)]) = put name value (ofPairs pairs) :=
      List.foldl_append
    rw [step]
    constructor
    · have known : name ∈ names (ofPairs pairs) ↔ name ∈ pairs.map Prod.fst := by
        rw [ih.names, List.mem_eraseDups]
      rw [List.map_append, List.map_singleton, List.eraseDups_append, ← ih.names]
      by_cases present : name ∈ names (ofPairs pairs)
      · rw [names_put_of_mem present, List.removeAll, List.filter_cons_of_neg, List.filter_nil]
        · simp
        · simpa using known.mp present
      · rw [put_of_notMem present, List.removeAll, List.filter_cons_of_pos, List.filter_nil]
        · simp [names, List.eraseDups_cons]
        · simpa using mt known.mpr present
    · intro other
      rw [List.reverse_append, List.reverse_singleton, List.singleton_append, List.lookup_cons]
      by_cases same : other = name
      · subst same
        rw [get?_put_self, beq_self_eq_true]
      · rw [get?_put_of_ne same, ih.value, beq_false_of_ne same]

end Table

end Synopsis
