import Synopsis.Proofs.Disk.Spelling
import Synopsis.Python.Outline

/-!
# Outlines line by line

The outline of a text looks at each of its lines by itself, without the carriage returns at its end,
and a line adds what it says under its own number. So the outline of two texts, one below the other,
is that of the first followed by that of the second, moved down by the lines of the first; and it
does not matter how many carriage returns stand before a newline. What a line says is left open:
nothing here looks into it.
-/

namespace Synopsis

/-! ## Pieces of a text -/

namespace Text

/-- What is added at the end of a text, and is in one piece, belongs to the last piece. -/
theorem exists_splitOn_append (sep : Char) (cs : List Char) :
    ∃ pieces last, ∀ more, sep ∉ more → splitOn sep (cs ++ more) = pieces ++ [last ++ more] := by
  induction cs with
  | nil => exact ⟨[], [], fun more plain => splitOn_of_notMem plain⟩
  | cons c cs ih =>
    obtain ⟨pieces, last, h⟩ := ih
    by_cases same : c = sep
    · refine ⟨[] :: pieces, last, fun more plain => ?_⟩
      rw [List.cons_append, splitOn, if_pos (beq_iff_eq.mpr same), h more plain, List.cons_append]
    · cases pieces with
      | nil =>
        refine ⟨[], c :: last, fun more plain => ?_⟩
        rw [List.cons_append, splitOn, if_neg (mt beq_iff_eq.mp same), h more plain]
        rfl
      | cons piece pieces =>
        refine ⟨(c :: piece) :: pieces, last, fun more plain => ?_⟩
        rw [List.cons_append, splitOn, if_neg (mt beq_iff_eq.mp same), h more plain]
        rfl

theorem dropTrailing_append_replicate (c : Char) (cs : List Char) (n : Nat) :
    dropTrailing c (cs ++ List.replicate n c) = dropTrailing c cs := by
  have run : (List.replicate n c).dropWhile (· == c) = [] := by
    rw [List.dropWhile_replicate, if_pos (beq_self_eq_true c)]
  rw [dropTrailing, dropTrailing, List.reverse_append, List.reverse_replicate,
    List.dropWhile_append, run, List.isEmpty_nil, if_pos rfl]

end Text

/-! ## Facts of texts below each other -/

namespace Facts

/-- Two collections of facts as one, list by list. -/
def append (first second : Facts) : Facts where
  imports := first.imports ++ second.imports
  exports := first.exports ++ second.exports
  functions := first.functions ++ second.functions
  classes := first.classes ++ second.classes
  «variables» := first.variables ++ second.variables
  comments := first.comments ++ second.comments

/-- The facts with every line number greater by so many lines. -/
def moved (lines : Nat) (facts : Facts) : Facts where
  imports := facts.imports.map fun r => { r with line := r.line + lines }
  exports := facts.exports.map fun r => { r with line := r.line + lines }
  functions := facts.functions.map fun r => { r with line := r.line + lines }
  classes := facts.classes.map fun r => { r with line := r.line + lines }
  «variables» := facts.variables.map fun r => { r with line := r.line + lines }
  comments := facts.comments

theorem append_empty (facts : Facts) : facts.append {} = facts := by
  simp [append]

theorem append_assoc (first second third : Facts) :
    (first.append second).append third = first.append (second.append third) := by
  simp [append]

theorem moved_append (lines : Nat) (first second : Facts) :
    (first.append second).moved lines = (first.moved lines).append (second.moved lines) := by
  simp [append, moved]

end Facts

namespace Python

open Synopsis.Text

/-! ## Lines -/

/-- A line adds what it would say on its own. -/
theorem record_eq (number : Nat) (facts : Facts) (said : Option Statement) :
    record number facts said = facts.append (record number {} said) := by
  rcases said with _ | ⟨source | ⟨indented, name, params⟩ | ⟨name, superclass⟩ | name⟩ <;>
    simp [record, Facts.append]

theorem record_moved (number lines : Nat) (said : Option Statement) :
    record (number + lines) {} said = (record number {} said).moved lines := by
  rcases said with _ | ⟨source | ⟨indented, name, params⟩ | ⟨name, superclass⟩ | name⟩ <;> rfl

theorem factsFrom_eq (number : Nat) (facts : Facts) (lines : List (List Char)) :
    factsFrom number facts lines = facts.append (factsFrom number {} lines) := by
  induction lines generalizing number facts with
  | nil => exact facts.append_empty.symm
  | cons line lines ih =>
    rw [factsFrom, factsFrom, ih, ih (number + 1) (record number {} _), record_eq,
      Facts.append_assoc]

theorem factsFrom_moved (number down : Nat) (lines : List (List Char)) :
    factsFrom (number + down) {} lines = (factsFrom number {} lines).moved down := by
  induction lines generalizing number with
  | nil => rfl
  | cons line lines ih =>
    rw [factsFrom, factsFrom, factsFrom_eq, factsFrom_eq (number + 1), Facts.moved_append,
      record_moved, Nat.add_right_comm, ih]

theorem factsFrom_append (number : Nat) (facts : Facts) (first second : List (List Char)) :
    factsFrom number facts (first ++ second) =
      factsFrom (number + first.length) (factsFrom number facts first) second := by
  induction first generalizing number facts with
  | nil => rfl
  | cons line first ih =>
    rw [List.cons_append, factsFrom, ih, factsFrom, List.length_cons, Nat.add_assoc, Nat.add_comm 1]

/-- Lines below others say the same as by themselves, lower down. -/
theorem factsFrom_below (first second : List (List Char)) :
    factsFrom 1 {} (first ++ second) =
      (factsFrom 1 {} first).append ((factsFrom 1 {} second).moved first.length) := by
  rw [factsFrom_append, factsFrom_eq, factsFrom_moved]

/-! ## Texts -/

/-- Carriage returns at the end of a text say nothing. -/
theorem factsFrom_returns (text : List Char) (returns : Nat) :
    factsFrom 1 {} (splitOn '\n' (text ++ List.replicate returns '\r')) =
      factsFrom 1 {} (splitOn '\n' text) := by
  obtain ⟨lines, last, cuts⟩ := Text.exists_splitOn_append '\n' text
  have plain : '\n' ∉ List.replicate returns '\r' := by
    simp [List.mem_replicate]
  have bare := cuts [] List.not_mem_nil
  rw [List.append_nil, List.append_nil] at bare
  rw [cuts _ plain, bare, factsFrom_append, factsFrom_append, factsFrom, factsFrom,
    Text.dropTrailing_append_replicate]
  rfl

theorem facts_below (first second : String) (returns : Nat) :
    facts (first ++ String.ofList (List.replicate returns '\r' ++ ['\n']) ++ second) =
      (facts first).append ((facts second).moved (first.toList.count '\n' + 1)) := by
  have chars : (first ++ String.ofList (List.replicate returns '\r' ++ ['\n']) ++ second).toList =
      (first.toList ++ List.replicate returns '\r') ++ '\n' :: second.toList := by
    simp
  have lines : (splitOn '\n' (first.toList ++ List.replicate returns '\r')).length =
      first.toList.count '\n' + 1 := by
    simp [Text.length_splitOn, List.count_replicate]
  rw [facts, chars, Text.splitOn_between, factsFrom_below, factsFrom_returns, lines]
  rfl

theorem facts_join_returns (lines : List String) :
    facts (join "\r\n" lines) = facts (join "\n" lines) := by
  have returned : "\r\n" = String.ofList (List.replicate 1 '\r' ++ ['\n']) := rfl
  have bare : "\n" = String.ofList (List.replicate 0 '\r' ++ ['\n']) := rfl
  induction lines with
  | nil => rfl
  | cons line lines ih =>
    cases lines with
    | nil => rw [join, join, String.intercalate_singleton, String.intercalate_singleton]
    | cons next rest =>
      have parts (sep : String) :
          join sep (line :: next :: rest) = line ++ sep ++ join sep (next :: rest) :=
        String.intercalate_cons_cons
      calc facts (join "\r\n" (line :: next :: rest))
          = (facts line).append
              ((facts (join "\r\n" (next :: rest))).moved (line.toList.count '\n' + 1)) := by
            rw [parts, returned, facts_below, ← returned]
        _ = (facts line).append
              ((facts (join "\n" (next :: rest))).moved (line.toList.count '\n' + 1)) := by
            rw [ih]
        _ = facts (join "\n" (line :: next :: rest)) := by
            rw [parts, bare, facts_below, ← bare]

/-- The outline of two texts with a newline between them, and any carriage returns before it, is
that of the first text followed by that of the second with its lines counted on. So lines that are
ended in one way or in the other have one outline. -/
theorem facts_joined :
    (∀ (first second : String) (returns : Nat),
      facts (first ++ String.ofList (List.replicate returns '\r' ++ ['\n']) ++ second) =
        (facts first).append ((facts second).moved (first.toList.count '\n' + 1))) ∧
      ∀ lines : List String, facts (join "\r\n" lines) = facts (join "\n" lines) :=
  ⟨facts_below, facts_join_returns⟩

example : facts "import sys\r\n\r\r\nLIMIT = 1\n" =
    { imports := [⟨"sys", 1, []⟩], «variables» := [⟨"LIMIT", 3, some "constant"⟩] } := by
  decide +kernel

end Python

end Synopsis
