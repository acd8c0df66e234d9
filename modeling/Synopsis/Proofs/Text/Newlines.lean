import Synopsis.Proofs.Disk.Spelling
import Synopsis.Proofs.Text.Utf8
import Synopsis.Text.Lines

/-!
# Lines that newlines and carriage returns end

Readers of marked up texts end a line at a newline, at a carriage return and at both together. A
newline between two texts therefore cuts them apart: a carriage return before it belongs to it, and
what stands after it is read as if nothing stood before. Other characters that end lines elsewhere
are in a line like any other.
-/

namespace Synopsis.Text

variable {line : List Char}

/-- The lines of a text, the last one being what stands after the last end. -/
def textLines (cs : List Char) : List (List Char) := splitOn '\n' (unifyNewlines cs)

theorem exists_unifyNewlines_between (first : List Char) :
    ∃ own, ∀ second, unifyNewlines (first ++ '\n' :: second) = own ++
      '\n' :: unifyNewlines second := by
  fun_induction unifyNewlines first with
  | case1 => exact ⟨[], fun second => by simp [unifyNewlines]⟩
  | case2 rest ih =>
    obtain ⟨own, cut⟩ := ih
    exact ⟨'\n' :: own, fun second => by simp [unifyNewlines, cut]⟩
  | case3 c rest alone ih =>
    by_cases last : c = '\r' ∧ rest = []
    · -- The newline belongs to the carriage return at the end.
      obtain ⟨rfl, rfl⟩ := last
      exact ⟨[], fun second => by simp [unifyNewlines]⟩
    · obtain ⟨own, cut⟩ := ih
      refine ⟨(if c == '\r' then '\n' else c) :: own, fun second => ?_⟩
      rw [List.cons_append, unifyNewlines, cut, List.cons_append]
      rintro rest' rfl next
      cases rest with
      | nil => exact last ⟨rfl, rfl⟩
      | cons d rest =>
        obtain ⟨rfl, -⟩ := List.cons.inj next
        exact alone rest rfl rfl

/-- The lines of a text that a newline ends. -/
def closedLines (cs : List Char) : List (List Char) := (textLines (cs ++ ['\n'])).dropLast

theorem textLines_between (first second : List Char) :
    textLines (first ++ '\n' :: second) = closedLines first ++ textLines second := by
  obtain ⟨own, cut⟩ := exists_unifyNewlines_between first
  have alone : unifyNewlines [] = [] := rfl
  rw [closedLines, textLines, textLines, cut, cut, splitOn_between, splitOn_between, ← textLines,
    alone, splitOn, List.dropLast_concat]

/-- A text that does not end a line for such a reader. -/
def Unbroken (line : List Char) : Prop := '\n' ∉ line ∧ '\r' ∉ line

instance (line : List Char) : Decidable (Unbroken line) := inferInstanceAs (Decidable (_ ∧ _))

theorem Unbroken.append {more : List Char} (first : Unbroken line) (second : Unbroken more) :
    Unbroken (line ++ more) :=
  ⟨by simp [first.1, second.1], by simp [first.2, second.2]⟩

theorem unifyNewlines_append (unbroken : Unbroken line) (rest : List Char) :
    unifyNewlines (line ++ rest) = line ++ unifyNewlines rest := by
  induction line with
  | nil => rfl
  | cons c line ih =>
    obtain ⟨newline, later⟩ := not_or.mp (mt List.mem_cons.mpr unbroken.1)
    obtain ⟨return', later'⟩ := not_or.mp (mt List.mem_cons.mpr unbroken.2)
    rw [List.cons_append, unifyNewlines, ih ⟨later, later'⟩, if_neg, List.cons_append]
    · exact fun same => return' (beq_iff_eq.mp same).symm
    · exact fun _ same => absurd same.symm return'

theorem closedLines_of_unbroken (unbroken : Unbroken line) : closedLines line = [line] := by
  have newline : unifyNewlines ['\n'] = ['\n'] := rfl
  rw [closedLines, textLines, unifyNewlines_append unbroken, newline, splitOn_between,
    splitOn_of_notMem unbroken.1]
  rfl

end Synopsis.Text
