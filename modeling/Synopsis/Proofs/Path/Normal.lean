import Mathlib.Logic.Relation
import Synopsis.Proofs.Disk.Walk
import Synopsis.Proofs.Project.Directories

/-!
# Normal forms of paths

Two paths are spelled alike when one becomes the other by leaving out, or putting in, empty
segments, single dots, and segments with the double dot that follows them. The normal form of a path
is spelled like it, and paths that are spelled alike have one normal form; so taking it twice
changes nothing. The slashes at the start are not part of the spelling: one slash and two are
different roots. All of this is about texts: whether a link makes a double dot lead elsewhere is not
asked.
-/

namespace Synopsis

namespace Path

open Disk (LeadsOn)

/-! ## Spellings -/

/-- A spelling and a shorter one of the same path. Nothing is above the root. -/
inductive Shortened (rooted : Bool) : List String → List String → Prop
  | empty (front back : List String) : Shortened rooted (front ++ "" :: back) (front ++ back)
  | here (front back : List String) : Shortened rooted (front ++ "." :: back) (front ++ back)
  | detour {name : String} (front back : List String) :
      LeadsOn name → Shortened rooted (front ++ name :: ".." :: back) (front ++ back)
  | root (back : List String) : rooted = true → Shortened rooted (".." :: back) back

/-- Segments that are led from one to the other by shortening and its converse. -/
abbrev Alike (rooted : Bool) : List String → List String → Prop :=
  Relation.EqvGen (Shortened rooted)

/-- Two paths from one root whose segments are alike. -/
def SpelledAlike (path other : String) : Prop :=
  anchor path = anchor other ∧ Alike (isAbsolute path) (segments path) (segments other)

/-! ## Resolving double dots -/

/-- Segments that are read, the last one first, and in which nothing is left to resolve: double dots
stand only below each other, and not at the root. -/
inductive Resolved (rooted : Bool) : List String → Prop
  | nil : Resolved rooted []
  | name {name : String} {done : List String} :
      LeadsOn name → Resolved rooted done → Resolved rooted (name :: done)
  | above {done : List String} : rooted = false → (∀ segment ∈ done, segment = "..") →
      Resolved rooted done → Resolved rooted (".." :: done)

variable {rooted : Bool} {done rest : List String} {name : String}

theorem Resolved.ne_empty (resolved : Resolved rooted done) {segment : String}
    (h : segment ∈ done) : segment ≠ "" := by
  induction resolved with
  | nil => cases h
  | name own _ ih =>
    rcases List.mem_cons.mp h with rfl | h
    · exact own.1
    · exact ih h
  | above _ _ _ ih =>
    rcases List.mem_cons.mp h with rfl | h
    · decide
    · exact ih h

theorem collapse_empty : collapse rooted done ("" :: rest) = collapse rooted done rest := by
  simp [collapse]

theorem collapse_here : collapse rooted done ("." :: rest) = collapse rooted done rest := by
  simp [collapse]

theorem collapse_name (own : LeadsOn name) :
    collapse rooted done (name :: rest) = collapse rooted (name :: done) rest := by
  obtain ⟨nonempty, here, above⟩ := own
  rw [collapse.eq_def]
  simp [nonempty, here, above]

theorem collapse_detour (own : LeadsOn name) :
    collapse rooted (name :: done) (".." :: rest) = collapse rooted done rest := by
  rw [collapse.eq_def]
  simp [own.2.2]

theorem collapse_root (root : rooted = true) :
    collapse rooted [] (".." :: rest) = collapse rooted [] rest := by
  simp [collapse, root]

theorem collapse_above (relative : rooted = false) (ups : ∀ segment ∈ done, segment = "..") :
    collapse rooted done (".." :: rest) = collapse rooted (".." :: done) rest := by
  cases done with
  | nil => simp [collapse, relative]
  | cons segment done =>
    obtain rfl := ups segment List.mem_cons_self
    simp [collapse]

/-- From what is read already, a front is read into a state from which every rest is read on. The
state is resolved, and spelled like what was there. -/
structure Reads (rooted : Bool) (done front state : List String) : Prop where
  resolved : Resolved rooted state
  collapse_eq : ∀ rest, collapse rooted done (front ++ rest) = collapse rooted state rest
  alike : ∀ rest, Alike rooted (done.reverse ++ (front ++ rest)) (state.reverse ++ rest)
  subset : state ⊆ done ++ front

theorem reads_nil (resolved : Resolved rooted done) : Reads rooted done [] done where
  resolved := resolved
  collapse_eq _ := rfl
  alike _ := .refl _
  subset := by simp

theorem Reads.trans {next state front back : List String} (first : Reads rooted done front next)
    (second : Reads rooted next back state) : Reads rooted done (front ++ back) state where
  resolved := second.resolved
  collapse_eq rest := by rw [List.append_assoc, first.collapse_eq, second.collapse_eq]
  alike rest := by
    rw [List.append_assoc]
    exact .trans _ _ _ (first.alike (back ++ rest)) (second.alike rest)
  subset := by
    rw [← List.append_assoc]
    refine List.Subset.trans second.subset (List.append_subset.mpr ⟨fun segment h => ?_, ?_⟩)
    · exact List.mem_append_left back (first.subset h)
    · exact List.subset_append_right _ _

theorem reads_name (own : LeadsOn name) (resolved : Resolved rooted done) :
    Reads rooted done [name] (name :: done) where
  resolved := .name own resolved
  collapse_eq _ := collapse_name own
  alike rest := by
    rw [List.reverse_cons, List.append_assoc]
    exact .refl _
  subset := by simp

/-- A double dot leads up if there is something to go up from. At the root it leads nowhere. -/
theorem exists_reads_above (resolved : Resolved rooted done) :
    ∃ next, Reads rooted done [".."] next := by
  have kept (relative : rooted = false) (ups : ∀ segment ∈ done, segment = "..") :
      Reads rooted done [".."] (".." :: done) :=
    { resolved := .above relative ups resolved
      collapse_eq := fun _ => collapse_above relative ups
      alike := fun rest => by
        rw [List.reverse_cons, List.append_assoc]
        exact .refl _
      subset := by simp }
  cases resolved with
  | nil =>
    cases rooted with
    | false => exact ⟨_, kept rfl (List.forall_mem_nil _)⟩
    | true =>
      exact ⟨[], .nil, fun _ => collapse_root rfl, fun rest => .rel _ _ (.root rest rfl), by simp⟩
  | above relative ups _ => exact ⟨_, kept relative (List.forall_mem_cons.mpr ⟨rfl, ups⟩)⟩
  | @name last below own isBelow =>
    refine ⟨below, isBelow, fun _ => collapse_detour own, fun rest => ?_, by simp⟩
    rw [List.reverse_cons, List.append_assoc]
    exact .rel _ _ (.detour _ _ own)

theorem exists_reads_singleton (resolved : Resolved rooted done) (segment : String) :
    ∃ next, Reads rooted done [segment] next := by
  by_cases empty : segment = ""
  · subst empty
    exact ⟨done, resolved, fun _ => collapse_empty, fun rest => .rel _ _ (.empty _ rest), by simp⟩
  by_cases here : segment = "."
  · subst here
    exact ⟨done, resolved, fun _ => collapse_here, fun rest => .rel _ _ (.here _ rest), by simp⟩
  by_cases above : segment = ".."
  · subst above
    exact exists_reads_above resolved
  · exact ⟨_, reads_name ⟨empty, here, above⟩ resolved⟩

theorem exists_reads (resolved : Resolved rooted done) (front : List String) :
    ∃ state, Reads rooted done front state := by
  induction front generalizing done with
  | nil => exact ⟨done, reads_nil resolved⟩
  | cons segment front ih =>
    obtain ⟨next, first⟩ := exists_reads_singleton resolved segment
    obtain ⟨state, second⟩ := ih first.resolved
    exact ⟨state, first.trans second⟩

/-- Segments are read into resolved ones that are spelled like them. -/
theorem exists_resolved (rooted : Bool) (names : List String) :
    ∃ state, Resolved rooted state ∧ state ⊆ names ∧ collapse rooted [] names = state.reverse ∧
      Alike rooted names state.reverse := by
  obtain ⟨state, reads⟩ := exists_reads (Resolved.nil : Resolved rooted []) names
  have told := reads.collapse_eq []
  have alike := reads.alike []
  simp only [List.append_nil, List.reverse_nil, List.nil_append] at told alike
  exact ⟨state, reads.resolved, reads.subset, by rw [told, collapse], alike⟩

/-- Resolved segments are read as they are. -/
theorem collapse_reverse_append (resolved : Resolved rooted done) (rest : List String) :
    collapse rooted [] (done.reverse ++ rest) = collapse rooted done rest := by
  induction resolved generalizing rest with
  | nil => rfl
  | name own _ ih =>
    rw [List.reverse_cons, List.append_assoc, List.singleton_append, ih, collapse_name own]
  | above relative ups _ ih =>
    rw [List.reverse_cons, List.append_assoc, List.singleton_append, ih,
      collapse_above relative ups]

theorem Resolved.collapse_reverse (resolved : Resolved rooted done) :
    collapse rooted [] done.reverse = done.reverse := by
  rw [← List.append_nil done.reverse, collapse_reverse_append resolved, collapse, List.append_nil]

theorem collapse_shortened {longer shorter : List String} (step : Shortened rooted longer shorter) :
    collapse rooted [] longer = collapse rooted [] shorter := by
  cases step with
  | empty front back =>
    obtain ⟨state, reads⟩ := exists_reads .nil front
    rw [reads.collapse_eq, reads.collapse_eq, collapse_empty]
  | here front back =>
    obtain ⟨state, reads⟩ := exists_reads .nil front
    rw [reads.collapse_eq, reads.collapse_eq, collapse_here]
  | detour front back own =>
    obtain ⟨state, reads⟩ := exists_reads .nil front
    rw [reads.collapse_eq, reads.collapse_eq, collapse_name own, collapse_detour own]
  | root back root => exact collapse_root root

theorem collapse_alike {longer shorter : List String} (alike : Alike rooted longer shorter) :
    collapse rooted [] longer = collapse rooted [] shorter := by
  induction alike with
  | rel _ _ step => exact collapse_shortened step
  | refl _ => rfl
  | symm _ _ _ ih => exact ih.symm
  | trans _ _ _ _ _ first second => exact first.trans second

/-! ## Reading back what is written -/

/-- The segments of a path after its double dots are resolved. -/
def resolvedSegments (path : String) : List String :=
  collapse (isAbsolute path) [] (segments path)

theorem exists_resolved_path (path : String) :
    ∃ state, Resolved (isAbsolute path) state ∧ state ⊆ segments path ∧
      resolvedSegments path = state.reverse ∧
      Alike (isAbsolute path) (segments path) state.reverse :=
  exists_resolved (isAbsolute path) (segments path)

/-- A path from its start and its segments; without both it is a single dot. -/
def written (start : String) (names : List String) : String :=
  if start ++ Text.join "/" names = "" then "." else start ++ Text.join "/" names

theorem normal_eq (path : String) :
    normal path = written (anchor path) (resolvedSegments path) := by
  simp only [normal, written, resolvedSegments, beq_iff_eq]
  rfl

/-- The three ways to start a path. -/
theorem anchor_cases (path : String) :
    anchor path = "" ∧ isAbsolute path = false ∨ anchor path = "/" ∧ isAbsolute path = true ∨
      anchor path = "//" ∧ isAbsolute path = true := by
  unfold anchor isAbsolute
  split <;> simp_all [List.head?_eq_some_iff]

theorem segments_slash (path : String) : segments ("/" ++ path) = "" :: segments path := by
  simp [segments, Text.splitOn]

theorem isAbsolute_eq (path : String) : isAbsolute path = (anchor path != "") := by
  rcases anchor_cases path with ⟨start, root⟩ | ⟨start, root⟩ | ⟨start, root⟩ <;>
    rw [start, root] <;> rfl

/-- A way to start a path. -/
def IsAnchor (start : String) : Prop := start = "" ∨ start = "/" ∨ start = "//"

theorem isAnchor_anchor (path : String) : IsAnchor (anchor path) :=
  (anchor_cases path).imp And.left (Or.imp And.left And.left)

theorem mem_of_mem_segments {path segment : String} (h : segment ∈ segments path) :
    (∀ c ∈ segment.toList, c ∈ path.toList) ∧ '/' ∉ segment.toList := by
  obtain ⟨piece, inside, rfl⟩ := List.mem_map.mp h
  rw [String.toList_ofList]
  exact Text.mem_of_mem_splitOn inside

section Written

variable {start : String} (kind : IsAnchor start)
include kind

theorem anchor_append {text : String} (own : text.toList.head? ≠ some '/') :
    anchor (start ++ text) = start := by
  unfold anchor
  rcases kind with rfl | rfl | rfl <;> cases chars : text.toList <;> simp_all

/-- The slashes at the start of a path make empty segments alone. -/
theorem collapse_segments_append (rooted : Bool) (text : String) :
    collapse rooted [] (segments (start ++ text)) = collapse rooted [] (segments text) := by
  rcases kind with rfl | rfl | rfl
  · rw [String.empty_append]
  · rw [segments_slash, collapse_empty]
  · have slashes : "//" ++ text = "/" ++ ("/" ++ text) := by
      rw [← String.append_assoc]
      rfl
    rw [slashes, segments_slash, segments_slash, collapse_empty, collapse_empty]

/-- What is written in normal form is read back. -/
theorem read_written {state : List String} (isResolved : Resolved (start != "") state)
    (plain : ∀ segment ∈ state, '/' ∉ segment.toList) :
    anchor (written start state.reverse) = start ∧
      resolvedSegments (written start state.reverse) = state.reverse := by
  have nonempty : ∀ segment ∈ state.reverse, segment ≠ "" := fun segment h =>
    isResolved.ne_empty (List.mem_reverse.mp h)
  have plain : ∀ segment ∈ state.reverse, '/' ∉ segment.toList := fun segment h =>
    plain segment (List.mem_reverse.mp h)
  have reads : collapse (start != "") [] (segments (Text.join "/" state.reverse)) =
      state.reverse := by
    by_cases none : state.reverse = []
    · rw [none]
      simp [Text.join, segments, Text.splitOn, collapse]
    · rw [segments, Text.splitOn_join none plain, isResolved.collapse_reverse]
  by_cases empty : start ++ Text.join "/" state.reverse = ""
  · obtain ⟨rfl, blank⟩ := String.append_eq_empty_iff.mp empty
    rw [blank] at reads
    rw [written, if_pos empty, ← reads]
    exact ⟨by decide, by decide⟩
  · have own : (Text.join "/" state.reverse).toList.head? ≠ some '/' :=
      head?_join_of_plain nonempty plain
    have root := anchor_append kind own
    rw [written, if_neg empty, resolvedSegments, isAbsolute_eq, root, collapse_segments_append kind,
      reads]
    exact ⟨rfl, rfl⟩

end Written

/-! ## Normal forms -/

/-- The normal form has the start and the segments of the path. -/
theorem read_normal (path : String) :
    anchor (normal path) = anchor path ∧ resolvedSegments (normal path) =
      resolvedSegments path := by
  obtain ⟨state, isResolved, subset, told, -⟩ := exists_resolved_path path
  rw [isAbsolute_eq] at isResolved
  rw [normal_eq, told]
  exact read_written (isAnchor_anchor path) isResolved fun segment h =>
    (mem_of_mem_segments (subset h)).2

theorem normal_normal (path : String) : normal (normal path) = normal path := by
  obtain ⟨start, rest⟩ := read_normal path
  rw [normal_eq (normal path), start, rest, ← normal_eq]

/-- Paths have one normal form exactly if they are spelled alike. -/
theorem normal_eq_normal_iff {path other : String} :
    normal path = normal other ↔ SpelledAlike path other := by
  constructor
  · intro same
    have start : anchor path = anchor other := by
      rw [← (read_normal path).1, same, (read_normal other).1]
    have rest : resolvedSegments path = resolvedSegments other := by
      rw [← (read_normal path).2, same, (read_normal other).2]
    obtain ⟨state, -, -, told, alike⟩ := exists_resolved_path path
    obtain ⟨state', -, -, told', alike'⟩ := exists_resolved_path other
    rw [told, told'] at rest
    rw [isAbsolute_eq, ← start, ← isAbsolute_eq, ← rest] at alike'
    exact ⟨start, .trans _ _ _ alike (.symm _ _ alike')⟩
  · rintro ⟨start, alike⟩
    have rest : resolvedSegments path = resolvedSegments other := by
      rw [resolvedSegments, resolvedSegments, collapse_alike alike, isAbsolute_eq, start,
        ← isAbsolute_eq]
    rw [normal_eq, normal_eq, start, rest]

/-- The characters of a normal form are those of the path, slashes and dots. -/
theorem mem_normal {path : String} {c : Char} (h : c ∈ (normal path).toList) :
    c = '/' ∨ c = '.' ∨ c ∈ path.toList := by
  obtain ⟨state, -, subset, told, -⟩ := exists_resolved_path path
  rw [normal_eq, told, written] at h
  split at h
  · exact Or.inr (Or.inl (List.mem_singleton.mp h))
  · rw [String.toList_append] at h
    rcases List.mem_append.mp h with h | h
    · have slash : ∀ c ∈ (anchor path).toList, c = '/' := by
        rcases isAnchor_anchor path with start | start | start <;> simp [start]
      exact Or.inl (slash c h)
    · rcases Text.mem_join h with slash | ⟨segment, inside, h⟩
      · exact Or.inl slash
      · exact Or.inr (Or.inr ((mem_of_mem_segments (subset (List.mem_reverse.mp inside))).1 c h))

example : normal "//a/./../../b//c/" = "//b/c" := by decide +kernel

end Path

end Synopsis
