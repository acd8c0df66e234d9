import Mathlib.Data.List.DropRight
import Synopsis.Disk.Entry
import Synopsis.Path

/-!
# Places written as texts

Cutting a text at a character undoes joining pieces that do not hold it. So a place that is written
as a text is read back name by name, and different places are written differently. The root is left
out of both statements, since it has no names; what its text is read as stands by itself.
-/

namespace Synopsis

namespace Text

theorem splitOn_eq (sep : Char) (cs : List Char) : splitOn sep cs = cs.splitOn sep := by
  induction cs with
  | nil => rfl
  | cons c rest ih =>
    rw [List.splitOn_cons_eq_if_modifyHead, splitOn, ih]
    split
    · rfl
    · cases hpieces : rest.splitOn sep with
      | nil => exact False.elim (List.splitOn_ne_nil sep rest hpieces)
      | cons piece pieces => rfl

theorem splitOn_ne_nil (sep : Char) (cs : List Char) : splitOn sep cs ≠ [] := by
  rw [splitOn_eq]
  exact List.splitOn_ne_nil sep cs

theorem mem_of_mem_splitOn {sep : Char} {cs piece : List Char} (h : piece ∈ splitOn sep cs) :
    (∀ c ∈ piece, c ∈ cs) ∧ sep ∉ piece := by
  induction cs generalizing piece with
  | nil =>
    obtain rfl := List.mem_singleton.mp h
    exact ⟨fun c h => h, List.not_mem_nil⟩
  | cons c cs ih =>
    have later {piece : List Char} (h : piece ∈ splitOn sep cs) :
        (∀ d ∈ piece, d ∈ c :: cs) ∧ sep ∉ piece :=
      ⟨fun d hd => List.mem_cons_of_mem c ((ih h).1 d hd), (ih h).2⟩
    rw [splitOn] at h
    split at h
    · rcases List.mem_cons.mp h with rfl | h
      · exact ⟨fun c h => (List.not_mem_nil h).elim, List.not_mem_nil⟩
      · exact later h
    · rename_i other
      cases pieces : splitOn sep cs with
      | nil => exact absurd pieces (splitOn_ne_nil sep cs)
      | cons first pieces =>
        rw [pieces] at h
        rcases List.mem_cons.mp h with rfl | h
        · have inside := later (pieces ▸ List.mem_cons_self : first ∈ splitOn sep cs)
          refine ⟨List.forall_mem_cons.mpr ⟨List.mem_cons_self, inside.1⟩, fun h => ?_⟩
          rcases List.mem_cons.mp h with rfl | h
          · exact other (beq_self_eq_true _)
          · exact inside.2 h
        · exact later (pieces ▸ List.mem_cons_of_mem first h)

theorem splitOn_of_notMem {sep : Char} {cs : List Char} (plain : sep ∉ cs) :
    splitOn sep cs = [cs] := by
  rw [splitOn_eq]
  exact List.splitOn_eq_singleton plain

theorem length_splitOn (sep : Char) (cs : List Char) :
    (splitOn sep cs).length = cs.count sep + 1 := by
  induction cs with
  | nil => rfl
  | cons c cs ih =>
    rw [splitOn_eq, List.splitOn_cons_eq_if_modifyHead, List.count_cons, ← splitOn_eq]
    split
    · rw [List.length_cons, ih]
    · rw [List.length_modifyHead, ih, Nat.add_zero]

theorem splitOn_between (sep : Char) (first second : List Char) :
    splitOn sep (first ++ sep :: second) = splitOn sep first ++ splitOn sep second := by
  rw [splitOn_eq, splitOn_eq, splitOn_eq, List.splitOn_append_cons_self]

theorem getLast?_splitOn (sep : Char) (cs : List Char) :
    (splitOn sep cs).getLast? = some (cs.rtakeWhile (· ≠ sep)) := by
  have whole : cs.rdropWhile (· ≠ sep) ++ cs.rtakeWhile (· ≠ sep) = cs :=
    List.rdropWhile_append_rtakeWhile
  have plain : sep ∉ cs.rtakeWhile (· ≠ sep) := fun inside => by
    simpa using List.mem_rtakeWhile_imp inside
  rcases eq_or_ne (cs.rdropWhile (· ≠ sep)) [] with none | some
  · rw [none, List.nil_append] at whole
    rw [whole] at plain ⊢
    rw [splitOn_of_notMem plain, List.getLast?_singleton]
  · have last : (cs.rdropWhile (· ≠ sep)).getLast some = sep := by
      simpa using List.rdropWhile_last_not (· ≠ sep) cs some
    rw [← List.dropLast_append_getLast some, last, List.append_assoc] at whole
    conv_lhs => rw [← whole]
    rw [List.singleton_append, splitOn_between, splitOn_of_notMem plain, List.getLast?_concat]

/-- Cutting undoes joining. -/
theorem splitOn_join {pieces : List String} (nonempty : pieces ≠ [])
    (plain : ∀ piece ∈ pieces, '/' ∉ piece.toList) :
    (splitOn '/' (join "/" pieces).toList).map String.ofList = pieces := by
  have hcut : splitOn '/' (join "/" pieces).toList = pieces.map String.toList := by
    rw [splitOn_eq, join, String.toList_intercalate]
    refine List.splitOn_intercalate '/' ?_ (by simpa using nonempty)
    simpa using plain
  simp [hcut, Function.comp_def]

theorem mem_join_sep {c : Char} {sep : String} {pieces : List String}
    (h : c ∈ (join sep pieces).toList) : c ∈ sep.toList ∨ ∃ piece ∈ pieces, c ∈ piece.toList := by
  rw [join, String.toList_intercalate] at h
  induction pieces with
  | nil => cases h
  | cons piece rest ih =>
    cases rest with
    | nil => exact Or.inr ⟨piece, by simp, by simpa using h⟩
    | cons next rest =>
      simp only [List.map_cons, List.intercalate_cons_cons, List.mem_append] at h
      rcases h with (h | h) | h
      · exact Or.inr ⟨piece, by simp, h⟩
      · exact Or.inl h
      · rcases ih h with h | ⟨other, hother, hc⟩
        · exact Or.inl h
        · exact Or.inr ⟨other, List.mem_cons_of_mem _ hother, hc⟩

theorem mem_join {c : Char} {pieces : List String} (h : c ∈ (join "/" pieces).toList) :
    c = '/' ∨ ∃ piece ∈ pieces, c ∈ piece.toList :=
  (mem_join_sep h).imp_left List.mem_singleton.mp

end Text

namespace Location

theorem toList_text (place : Location) :
    (Location.text place).toList = '/' :: (Text.join "/" place).toList := by
  simp [Location.text]

theorem isAbsolute_text (place : Location) : Path.isAbsolute (Location.text place) = true := by
  simp [Path.isAbsolute, toList_text]

theorem text_ne_empty (place : Location) : Location.text place ≠ "" := by
  intro empty
  have chars := toList_text place
  rw [empty] at chars
  cases chars

theorem segments_root : Path.segments (Location.text []) = ["", ""] := by decide

/-- The text of a place is read as the empty name before the first slash and the names of the
place. -/
theorem segments_text {place : Location} (nonempty : place ≠ [])
    (plain : ∀ name ∈ place, '/' ∉ name.toList) :
    Path.segments (Location.text place) = "" :: place := by
  have hcut := Text.splitOn_join nonempty plain
  simp [Path.segments, toList_text, Text.splitOn, hcut]

/-- Places with names that hold no slash have different texts. -/
theorem text_injective {place other : Location} (hplace : place ≠ []) (hother : other ≠ [])
    (plain : ∀ name ∈ place, '/' ∉ name.toList) (plain' : ∀ name ∈ other, '/' ∉ name.toList)
    (same : Location.text place = Location.text other) : place = other := by
  have h := congrArg Path.segments same
  rw [segments_text hplace plain, segments_text hother plain'] at h
  exact (List.cons.inj h).2

theorem null_notMem_text {place : Location} (plain : ∀ name ∈ place, '\x00' ∉ name.toList) :
    '\x00' ∉ (Location.text place).toList := by
  rw [toList_text]
  intro h
  rcases List.mem_cons.mp h with h | h
  · exact absurd h (by decide)
  · rcases Text.mem_join h with h | ⟨name, hname, hnull⟩
    · exact absurd h (by decide)
    · exact plain name hname hnull

end Location

end Synopsis
