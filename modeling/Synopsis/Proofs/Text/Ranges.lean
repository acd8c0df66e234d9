import Synopsis.Text.Ranges

/-!
# Looking up code points

In a table of ranges in increasing order the search finds a range exactly for the code points that
one of them holds.
-/

namespace Synopsis.Text.Ranges

variable {table : Ranges} {code fuel low high i j : Nat} {range other : Nat × Nat}

/-- Ranges that are not empty, each of which ends before the later ones begin. -/
structure Increasing (table : Ranges) : Prop where
  nonempty : ∀ range ∈ table.toList, range.1 ≤ range.2
  apart : table.toList.Pairwise fun earlier later => earlier.2 < later.1

theorem mem_of_getElem? (here : table[i]? = some range) : range ∈ table.toList :=
  Array.mem_toList_iff.mpr (Array.mem_of_getElem? here)

theorem Increasing.lt (increasing : Increasing table) (here : table[i]? = some range)
    (there : table[j]? = some other) (before : i < j) : range.2 < other.1 := by
  obtain ⟨hi, rfl⟩ := Array.getElem?_eq_some_iff.mp here
  obtain ⟨hj, rfl⟩ := Array.getElem?_eq_some_iff.mp there
  exact List.pairwise_iff_getElem.mp increasing.apart i j (by simpa using hi)
    (by simpa using hj) before

theorem search_succ (wide : low < high) (middle : table[(low + high) / 2]? = some other) :
    search table code (fuel + 1) low high =
      if code < other.1 then search table code fuel low ((low + high) / 2)
      else if other.2 < code then search table code fuel ((low + high) / 2 + 1) high
      else some other := by
  simp only [search, if_pos wide, middle]

/-- What is found is a range of the table that holds the code point. -/
theorem mem_of_search_eq_some (found : search table code fuel low high = some range) :
    range ∈ table.toList ∧ range.1 ≤ code ∧ code ≤ range.2 := by
  induction fuel generalizing low high with
  | zero => cases found
  | succ fuel ih =>
    by_cases wide : low < high
    · cases middle : table[(low + high) / 2]? with
      | none => simp only [search, if_pos wide, middle, reduceCtorEq] at found
      | some other =>
        rw [search_succ wide middle] at found
        split at found
        · exact ih found
        · split at found
          · exact ih found
          · cases found
            exact ⟨mem_of_getElem? middle, by omega, by omega⟩
    · simp only [search, if_neg wide, reduceCtorEq] at found

/-- The range that holds the code point is never cut off. -/
theorem isSome_search (increasing : Increasing table) (here : table[i]? = some range)
    (holds : range.1 ≤ code ∧ code ≤ range.2) (above : low ≤ i) (below : i < high)
    (inside : high ≤ table.size) (enough : high - low < fuel) :
    (search table code fuel low high).isSome := by
  induction fuel generalizing low high with
  | zero => omega
  | succ fuel ih =>
    have within : (low + high) / 2 < table.size := by omega
    obtain ⟨other, middle⟩ : ∃ other, table[(low + high) / 2]? = some other :=
      ⟨_, Array.getElem?_eq_getElem within⟩
    rw [search_succ (by omega) middle]
    rcases Nat.lt_trichotomy i ((low + high) / 2) with left | same | right
    · have before := increasing.lt here middle left
      rw [if_pos (by omega)]
      exact ih above left (by omega) (by omega)
    · rw [same, middle] at here
      cases here
      rw [if_neg (by omega), if_neg (by omega)]
      rfl
    · have before := increasing.lt middle here right
      have nonempty := increasing.nonempty other (mem_of_getElem? middle)
      rw [if_neg (by omega), if_pos (by omega)]
      exact ih right below inside (by omega)

/-! ## Checking a table -/

/-- Whether ranges are in increasing order and begin at a bound. -/
def risesFrom (bound : Nat) : List (Nat × Nat) → Bool
  | [] => true
  | (first, last) :: rest => Nat.ble bound first && Nat.ble first last && risesFrom (last + 1) rest

theorem of_risesFrom {bound : Nat} {ranges : List (Nat × Nat)}
    (rises : risesFrom bound ranges = true) :
    (∀ range ∈ ranges, bound ≤ range.1 ∧ range.1 ≤ range.2) ∧
      ranges.Pairwise fun earlier later => earlier.2 < later.1 := by
  induction ranges generalizing bound with
  | nil => exact ⟨by simp, List.Pairwise.nil⟩
  | cons range rest ih =>
    simp only [risesFrom, Bool.and_eq_true, Nat.ble_eq] at rises
    obtain ⟨⟨here, nonempty⟩, rises⟩ := rises
    obtain ⟨later, apart⟩ := ih rises
    refine ⟨?_, List.pairwise_cons.mpr ⟨fun other listed => (later other listed).1, apart⟩⟩
    rintro other (_ | ⟨_, listed⟩)
    · exact ⟨here, nonempty⟩
    · have := later other listed
      omega

theorem increasing_of_risesFrom (rises : risesFrom 0 table.toList = true) : Increasing table where
  nonempty range listed := ((of_risesFrom rises).1 range listed).2
  apart := (of_risesFrom rises).2

/-- Whether one range of a table holds all code points from the first to the last one. -/
def spans (table : Ranges) (first last : Nat) : Bool :=
  table.toList.any fun (low, high) => Nat.ble low first && Nat.ble last high

/-! ## What a table contains -/

/-- A table in increasing order contains the code points that its ranges hold. -/
theorem contains_iff (increasing : Increasing table) :
    table.contains code = true ↔ ∃ range ∈ table.toList, range.1 ≤ code ∧ code ≤ range.2 := by
  rw [contains, find?]
  constructor
  · intro found
    obtain ⟨range, found⟩ := Option.isSome_iff_exists.mp found
    exact ⟨range, mem_of_search_eq_some found⟩
  · rintro ⟨range, listed, holds⟩
    obtain ⟨i, here⟩ := List.mem_iff_getElem?.mp listed
    rw [Array.getElem?_toList] at here
    have within : i < table.size := (Array.getElem?_eq_some_iff.mp here).1
    exact isSome_search increasing here holds (Nat.zero_le i) within (Nat.le_refl _) (by omega)

theorem contains_of_spans {first last : Nat} (increasing : Increasing table)
    (spanned : table.spans first last = true) (inside : first ≤ code ∧ code ≤ last) :
    table.contains code = true := by
  obtain ⟨range, listed, around⟩ := List.any_eq_true.mp spanned
  rw [Bool.and_eq_true, Nat.ble_eq, Nat.ble_eq] at around
  exact (contains_iff increasing).mpr ⟨range, listed, by omega, by omega⟩

end Synopsis.Text.Ranges
