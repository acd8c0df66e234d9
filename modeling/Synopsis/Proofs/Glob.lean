import Synopsis.IgnoreRule

/-!
# What globs stand for

A glob stands for a text when the text falls into one piece for each item, in order: any piece at
all for a star, and a single character that it accepts for every other item. The matcher, which
looks at one character after the other, says yes to exactly these texts. How the characters between
brackets are read is left open: an item enters here only by what it accepts.

An item may accept a slash like any other character. The last part tells which globs keep to texts
that no slash divides in two. Among the globs whose items could all do without a slash, these are
the only ones.
-/

namespace Synopsis.Glob

variable {item : Glob} {items more : List Glob} {cs : List Char}

/-! ## The texts of a glob -/

/-- The pieces that one item stands for. -/
def Takes (item : Glob) (piece : List Char) : Prop :=
  item = .star ∨ ∃ c, piece = [c] ∧ item.accepts c = true

/-- The texts that items stand for, piece by piece. -/
def Stands : List Glob → List Char → Prop
  | [], cs => cs = []
  | item :: items, cs => ∃ piece rest, cs = piece ++ rest ∧ item.Takes piece ∧ Stands items rest

theorem stands_nil_iff : Stands [] cs ↔ cs = [] := Iff.rfl

theorem stands_append :
    Stands (items ++ more) cs ↔
      ∃ front back, cs = front ++ back ∧ Stands items front ∧ Stands more back := by
  induction items generalizing cs with
  | nil =>
    constructor
    · intro h
      exact ⟨[], cs, rfl, rfl, h⟩
    · rintro ⟨front, back, rfl, rfl, h⟩
      exact h
  | cons item items ih =>
    constructor
    · rintro ⟨piece, rest, rfl, taken, h⟩
      obtain ⟨front, back, rfl, first, second⟩ := ih.mp h
      exact ⟨piece ++ front, back, (List.append_assoc ..).symm,
        ⟨piece, front, rfl, taken, first⟩, second⟩
    · rintro ⟨front, back, rfl, ⟨piece, rest, rfl, taken, first⟩, second⟩
      exact ⟨piece, rest ++ back, List.append_assoc .., taken,
        ih.mpr ⟨rest, back, rfl, first, second⟩⟩

theorem stands_single_iff (single : item ≠ .star) :
    Stands (item :: items) cs ↔
      ∃ c rest, cs = c :: rest ∧ item.accepts c = true ∧ Stands items rest := by
  constructor
  · rintro ⟨piece, rest, rfl, star | ⟨c, rfl, accepted⟩, h⟩
    · exact absurd star single
    · exact ⟨c, rest, rfl, accepted, h⟩
  · rintro ⟨c, rest, rfl, accepted, h⟩
    exact ⟨[c], rest, rfl, Or.inr ⟨c, rfl, accepted⟩, h⟩

/-- A star takes nothing, or one character and then what a star takes. -/
theorem stands_star_iff :
    Stands (.star :: items) cs ↔
      Stands items cs ∨ ∃ c rest, cs = c :: rest ∧ Stands (.star :: items) rest := by
  constructor
  · rintro ⟨piece, rest, rfl, -, h⟩
    cases piece with
    | nil => exact Or.inl h
    | cons c piece => exact Or.inr ⟨c, piece ++ rest, rfl, piece, rest, rfl, Or.inl rfl, h⟩
  · rintro (h | ⟨c, rest, rfl, piece, back, rfl, -, h⟩)
    · exact ⟨[], cs, rfl, Or.inl rfl, h⟩
    · exact ⟨c :: piece, back, rfl, Or.inl rfl, h⟩

/-- The matcher finds all texts of a glob and no others. -/
theorem accept_iff (items : List Glob) (cs : List Char) :
    accept items cs = true ↔ Stands items cs := by
  fun_induction accept items cs with
  | case1 cs => rw [List.isEmpty_iff, stands_nil_iff]
  | case2 items ih =>
    rw [ih, stands_star_iff]
    simp
  | case3 items c cs skip take =>
    have star : Stands (.star :: items) (c :: cs) ↔ _ := stands_star_iff
    rw [Bool.or_eq_true, skip, take, star]
    simp [and_assoc]
  | case4 item items single =>
    rw [stands_single_iff single]
    simp
  | case5 item items c cs single ih =>
    rw [Bool.and_eq_true, ih, stands_single_iff single]
    simp [and_assoc]

/-! ## Slashes -/

/-- The items with one before and one after them. -/
def inner (items : List Glob) : List Glob := items.tail.dropLast

/-- A glob without stars whose items accept no slash, other than the first and the last. -/
def Narrow (items : List Glob) : Prop :=
  .star ∉ items ∧ ∀ item ∈ inner items, item.accepts '/' = false

instance (items : List Glob) : Decidable (Narrow items) := inferInstanceAs (Decidable (_ ∧ _))

/-- A glob whose items, stars apart, all accept some character that is no slash. -/
def Unforced (items : List Glob) : Prop :=
  ∀ item ∈ items, item = .star ∨ ∃ c, c ≠ '/' ∧ item.accepts c = true

theorem inner_cons_concat (first : Glob) (middle : List Glob) (last : Glob) :
    inner (first :: (middle ++ [last])) = middle := by
  rw [inner, List.tail_cons, List.dropLast_concat]

theorem mem_inner_iff :
    item ∈ inner items ↔
      ∃ before after, items = before ++ item :: after ∧ before ≠ [] ∧ after ≠ [] := by
  constructor
  · intro h
    cases items with
    | nil => cases h
    | cons first rest =>
      rcases List.eq_nil_or_concat rest with rfl | ⟨middle, last, rfl⟩
      · cases h
      · rw [List.concat_eq_append, inner_cons_concat] at h
        obtain ⟨front, back, rfl⟩ := List.append_of_mem h
        exact ⟨first :: front, back ++ [last], by simp, List.cons_ne_nil _ _, by simp⟩
  · rintro ⟨before, after, rfl, front, back⟩
    obtain ⟨first, before, rfl⟩ := List.exists_cons_of_ne_nil front
    obtain ⟨after, last, rfl⟩ := (List.eq_nil_or_concat after).resolve_left back
    have parts : first :: before ++ item :: after.concat last =
        first :: ((before ++ item :: after) ++ [last]) := by simp
    rw [parts, inner_cons_concat]
    exact List.mem_append_right before List.mem_cons_self

/-- Without stars, the first item takes the first character. -/
theorem exists_cons_of_stands {c : Char} (starless : .star ∉ items) (h : Stands items (c :: cs)) :
    ∃ item rest, items = item :: rest ∧ item.accepts c = true ∧ Stands rest cs := by
  cases items with
  | nil => cases h
  | cons item rest =>
    have single : item ≠ .star := fun same => starless (same ▸ List.mem_cons_self)
    obtain ⟨d, left, parts, accepted, h⟩ := (stands_single_iff single).mp h
    cases parts
    exact ⟨item, rest, rfl, accepted, h⟩

/-- Without stars, the items of a glob answer to the characters of a text. -/
theorem exists_at_of_stands {before after : List Char} {c : Char} (starless : .star ∉ items)
    (h : Stands items (before ++ c :: after)) :
    ∃ front item back, items = front ++ item :: back ∧ item.accepts c = true ∧
      Stands front before ∧ Stands back after := by
  induction before generalizing items with
  | nil =>
    obtain ⟨item, rest, rfl, accepted, h⟩ := exists_cons_of_stands starless h
    exact ⟨[], item, rest, rfl, accepted, rfl, h⟩
  | cons d before ih =>
    obtain ⟨first, rest, rfl, taken, h⟩ := exists_cons_of_stands starless h
    obtain ⟨front, item, back, rfl, accepted, hfront, hback⟩ :=
      ih (fun mem => starless (List.mem_cons_of_mem first mem)) h
    exact ⟨first :: front, item, back, rfl, accepted,
      ⟨[d], before, rfl, Or.inr ⟨d, rfl, taken⟩, hfront⟩, hback⟩

/-- A narrow glob stands for no text that a slash divides in two. -/
theorem Narrow.not_stands (narrow : Narrow items) {before after : List Char} (first : before ≠ [])
    (second : after ≠ []) : ¬ Stands items (before ++ '/' :: after) := by
  intro h
  obtain ⟨front, item, back, rfl, accepted, hfront, hback⟩ := exists_at_of_stands narrow.1 h
  have inside : item ∈ inner (front ++ item :: back) := by
    refine mem_inner_iff.mpr ⟨front, back, rfl, ?_, ?_⟩
    · rintro rfl
      exact first hfront
    · rintro rfl
      exact second hback
  rw [narrow.2 item inside] at accepted
  cases accepted

/-- An unforced glob stands for a text without slashes, and without stars for one that is not empty
if it has items at all. -/
theorem Unforced.exists_stands (free : Unforced items) :
    ∃ cs, Stands items cs ∧ '/' ∉ cs ∧ (.star ∉ items → items ≠ [] → cs ≠ []) := by
  induction items with
  | nil => exact ⟨[], rfl, List.not_mem_nil, fun _ h => absurd rfl h⟩
  | cons item items ih =>
    obtain ⟨cs, h, plain, -⟩ := ih fun other mem => free other (List.mem_cons_of_mem item mem)
    rcases free item List.mem_cons_self with rfl | ⟨c, other, accepted⟩
    · refine ⟨cs, ⟨[], cs, rfl, Or.inl rfl, h⟩, plain, ?_⟩
      intro starless
      exact absurd List.mem_cons_self starless
    · refine ⟨c :: cs, ⟨[c], cs, rfl, Or.inr ⟨c, rfl, accepted⟩, h⟩, ?_,
        fun _ _ => List.cons_ne_nil c cs⟩
      intro mem
      rcases List.mem_cons.mp mem with same | mem
      · exact other same.symm
      · exact plain mem

/-- What stands before and after an item of an unforced glob. -/
theorem Unforced.exists_around {front back : List Glob} (free : Unforced (front ++ item :: back)) :
    ∃ before after, Stands front before ∧ Stands back after ∧ ('/' ∉ before ∧ '/' ∉ after) ∧
      (.star ∉ front ++ item :: back → (front ≠ [] → before ≠ []) ∧ (back ≠ [] → after ≠ [])) := by
  have freeFront : Unforced front := fun other mem => free other (List.mem_append_left _ mem)
  have freeBack : Unforced back := fun other mem =>
    free other (List.mem_append_right _ (List.mem_cons_of_mem item mem))
  obtain ⟨before, hbefore, plain, first⟩ := freeFront.exists_stands
  obtain ⟨after, hafter, plain', second⟩ := freeBack.exists_stands
  refine ⟨before, after, hbefore, hafter, ⟨plain, plain'⟩, ?_⟩
  intro starless
  constructor
  · exact first fun star => starless (List.mem_append_left _ star)
  · exact second fun star => starless (List.mem_append_right _ (List.mem_cons_of_mem item star))

/-- An unforced glob that is not narrow stands for two names with a slash between them. -/
theorem Unforced.exists_divided (free : Unforced items) (wide : ¬ Narrow items) :
    ∃ before after, Stands items (before ++ '/' :: after) ∧ (before ≠ [] ∧ after ≠ []) ∧
      '/' ∉ before ∧ '/' ∉ after := by
  by_cases starred : .star ∈ items
  · -- The star takes the slash, and a letter at each side of it in case nothing else stands there.
    obtain ⟨front, back, rfl⟩ := List.append_of_mem starred
    obtain ⟨xs, ys, hxs, hys, ⟨plain, plain'⟩, -⟩ := free.exists_around
    refine ⟨xs ++ ['a'], 'b' :: ys, ?_, by simp, by simp [plain], by simp [plain']⟩
    refine stands_append.mpr ⟨xs, ['a', '/', 'b'] ++ ys, by simp, hxs, ?_⟩
    exact ⟨['a', '/', 'b'], ys, rfl, Or.inl rfl, hys⟩
  · have inside : ¬ ∀ item ∈ inner items, item.accepts '/' = false := fun all => wide ⟨starred, all⟩
    obtain ⟨item, mem, accepted⟩ : ∃ item ∈ inner items, item.accepts '/' = true := by
      simpa using inside
    obtain ⟨front, back, rfl, first, second⟩ := mem_inner_iff.mp mem
    obtain ⟨xs, ys, hxs, hys, plain, nonempty⟩ := free.exists_around
    refine ⟨xs, ys, ?_, ⟨(nonempty starred).1 first, (nonempty starred).2 second⟩, plain⟩
    exact stands_append.mpr
      ⟨xs, '/' :: ys, rfl, hxs, ['/'], ys, rfl, Or.inr ⟨'/', rfl, accepted⟩, hys⟩

end Synopsis.Glob
