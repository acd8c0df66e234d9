import Mathlib.Data.String.Basic
import Synopsis.Proofs.Disk.Tree
import Synopsis.Proofs.Disk.Spelling

/-!
# Paths of places

The text of a place is a path in every good form at once: pure, normal and absolute. What is read
from the end of it, such as a name or an extension, is read from the last name of the place, and the
way to it from a place above is spelled by the names in between. All of this is about places whose
names a folder can hold.
-/

namespace Synopsis

namespace Text

/-- Texts that start alike are in the order of what follows. -/
theorem append_lt_append_iff (front cs ds : List Char) : front ++ cs < front ++ ds ↔ cs < ds := by
  induction front with
  | nil => rfl
  | cons c front ih => rw [List.cons_append, List.cons_append, List.cons_lt_cons_self, ih]

end Text

namespace Location

/-- What the texts of the places below a place start with. -/
def stem (place : Location) : String := if place = [] then "" else Location.text place

/-- The path of what a way leads to from a place. -/
def pathTo (place : Location) (way : String) : String := stem place ++ "/" ++ way

theorem text_append (place : Location) {way : Location} (nonempty : way ≠ []) :
    Location.text (place ++ way) = pathTo place (Text.join "/" way) := by
  unfold pathTo stem Location.text Text.join
  split
  · rename_i root
    rw [root, List.nil_append, String.empty_append]
  · rename_i inner
    rw [String.intercalate_append_of_ne_nil inner nonempty]
    simp only [String.append_assoc]

/-- Paths from one place are in the order of the ways. -/
theorem pathTo_lt_pathTo_iff (place : Location) (way other : String) :
    pathTo place way < pathTo place other ↔ way < other := by
  unfold pathTo
  simp only [String.lt_iff_toList_lt, String.toList_append]
  exact Text.append_lt_append_iff _ _ _

theorem pathTo_le_pathTo_iff (place : Location) (way other : String) :
    pathTo place way ≤ pathTo place other ↔ way ≤ other := by
  rw [← String.not_lt, ← String.not_lt, pathTo_lt_pathTo_iff]

end Location

namespace Path

variable {place way : Location}

/-! ## Segments -/

theorem segments_join (nonempty : way ≠ []) (names : ∀ name ∈ way, IsName name) :
    segments (Text.join "/" way) = way :=
  Text.splitOn_join nonempty fun name h => (names name h).no_slash

/-- The names among the segments of the text of a place are those of the place. -/
theorem filter_segments_text {p : String → Bool} (names : ∀ name ∈ place, IsName name)
    (blank : p "" = false) (own : ∀ name, IsName name → p name = true) :
    (segments (Location.text place)).filter p = place := by
  by_cases root : place = []
  · rw [root, Location.segments_root]
    simp [blank]
  · rw [Location.segments_text root fun name h => (names name h).no_slash, List.filter_cons,
      if_neg (by simp [blank])]
    exact List.filter_eq_self.mpr fun name h => own name (names name h)

theorem isNamed {name : String} (h : IsName name) : (name != "" && name != ".") = true := by
  simp [h.ne_empty, h.ne_here]

theorem parts_text (names : ∀ name ∈ place, IsName name) : parts (Location.text place) = place :=
  filter_segments_text names (by decide) fun _ => isNamed

theorem parts_join (nonempty : way ≠ []) (names : ∀ name ∈ way, IsName name) :
    parts (Text.join "/" way) = way := by
  rw [parts, segments_join nonempty names]
  exact List.filter_eq_self.mpr fun name h => isNamed (names name h)

/-! ## Anchors -/

/-- A path whose segments are not empty does not start with a slash. -/
theorem head?_join_of_plain {pieces : List String} (nonempty : ∀ piece ∈ pieces, piece ≠ "")
    (plain : ∀ piece ∈ pieces, '/' ∉ piece.toList) :
    (Text.join "/" pieces).toList.head? ≠ some '/' := by
  intro slash
  obtain ⟨rest, hrest⟩ := List.head?_eq_some_iff.mp slash
  have some : pieces ≠ [] := by
    rintro rfl
    cases hrest
  have cut := Text.splitOn_join some plain
  rw [hrest, Text.splitOn, if_pos (by decide), List.map_cons] at cut
  exact nonempty "" (cut ▸ List.mem_cons_self) rfl

/-- No name starts with a slash. -/
theorem head?_join (names : ∀ name ∈ way, IsName name) :
    (Text.join "/" way).toList.head? ≠ some '/' :=
  head?_join_of_plain (fun name h => (names name h).ne_empty) fun name h => (names name h).no_slash

theorem anchor_text (names : ∀ name ∈ place, IsName name) : anchor (Location.text place) = "/" := by
  have single := head?_join names
  unfold anchor
  rw [Location.toList_text]
  cases chars : (Text.join "/" place).toList with
  | nil => rfl
  | cons c rest =>
    have other : c ≠ '/' := fun slash => single (by rw [chars, slash]; rfl)
    simp [other]

/-! ## Good forms -/

theorem pure_text (names : ∀ name ∈ place, IsName name) :
    pure (Location.text place) = Location.text place := by
  unfold pure
  rw [anchor_text names, parts_text names]
  exact if_neg (by simp)

theorem pure_join (nonempty : way ≠ []) (names : ∀ name ∈ way, IsName name) :
    pure (Text.join "/" way) = Text.join "/" way := by
  have relative : anchor (Text.join "/" way) = "" := by
    have single := head?_join names
    unfold anchor
    cases chars : (Text.join "/" way).toList with
    | nil => rfl
    | cons c rest =>
      have other : c ≠ '/' := fun slash => single (by rw [chars, slash]; rfl)
      simp [other]
  have own : Text.join "/" way ≠ "" := by
    intro empty
    have cut := segments_join nonempty names
    rw [empty] at cut
    exact (names "" (cut ▸ List.mem_cons_self)).ne_empty rfl
  unfold pure
  rw [relative, parts_join nonempty names, String.empty_append]
  exact if_neg (by simpa using own)

/-- Without dots there is nothing to resolve. -/
theorem collapse_names {rooted : Bool} {done : List String} (names : ∀ name ∈ way, IsName name) :
    collapse rooted done way = done.reverse ++ way := by
  induction way generalizing done with
  | nil => simp [collapse]
  | cons name rest ih =>
    obtain ⟨own, restNames⟩ := List.forall_mem_cons.mp names
    rw [collapse.eq_def]
    simp [own.ne_empty, own.ne_here, own.ne_above, ih restNames]

theorem normal_text (names : ∀ name ∈ place, IsName name) :
    normal (Location.text place) = Location.text place := by
  have rest : collapse true [] (segments (Location.text place)) = place := by
    by_cases root : place = []
    · rw [root]
      decide
    · rw [Location.segments_text root fun name h => (names name h).no_slash, collapse.eq_def]
      exact collapse_names names
  unfold normal
  rw [anchor_text names, Location.isAbsolute_text, rest]
  exact if_neg (by simp)

theorem absolute_text (working : String) (names : ∀ name ∈ place, IsName name) :
    absolute working (Location.text place) = Location.text place := by
  rw [absolute, below, if_pos (Location.isAbsolute_text place), normal_text names]

/-! ## From a place above -/

theorem dropCommon_append (front rest : List String) :
    dropCommon front (front ++ rest) = ([], rest) := by
  induction front with
  | nil => cases rest <;> rfl
  | cons name front ih => rw [List.cons_append, dropCommon, if_pos (by simp), ih]

/-- The way between two places, one above the other, is spelled by the names in between. -/
theorem relative?_text (working : String) (nonempty : way ≠ [])
    (names : ∀ name ∈ place ++ way, IsName name) :
    relative? working (Location.text (place ++ way)) (Location.text place) =
      some (Text.join "/" way) := by
  have above : ∀ name ∈ place, IsName name := fun name h => names name (List.mem_append_left _ h)
  have named {names : Location} (h : ∀ name ∈ names, IsName name) :
      (segments (Location.text names)).filter (· != "") = names :=
    filter_segments_text h (by decide) fun name own => by simp [own.ne_empty]
  rw [relative?, if_neg (by simpa using Location.text_ne_empty _), absolute_text working above,
    absolute_text working names, wayTo]
  simp only [named above, named names, dropCommon_append]
  simp [nonempty]

/-! ## The end -/

variable (nonempty : way ≠ []) (names : ∀ name ∈ place ++ way, IsName name)
include nonempty names

theorem fileName_text_append :
    fileName (Location.text (place ++ way)) = fileName (Text.join "/" way) := by
  have inner : ∀ name ∈ way, IsName name := fun name h => names name (List.mem_append_right _ h)
  rw [fileName, fileName, parts_text names, parts_join nonempty inner,
    List.getLast?_append_of_ne_nil _ nonempty]

theorem suffix_text_append :
    suffix (Location.text (place ++ way)) = suffix (Text.join "/" way) := by
  rw [suffix, suffix, fileName_text_append nonempty names]

theorem extension_text_append :
    extension (Location.text (place ++ way)) = extension (Text.join "/" way) := by
  have inner : ∀ name ∈ way, IsName name := fun name h => names name (List.mem_append_right _ h)
  have last : baseName (Location.text (place ++ way)) = baseName (Text.join "/" way) := by
    rw [baseName, baseName, segments_join nonempty inner,
      Location.segments_text (by simp [nonempty]) fun name h => (names name h).no_slash,
      ← List.cons_append, List.getLast?_append_of_ne_nil _ nonempty]
  rw [extension, extension, last]

end Path

end Synopsis
