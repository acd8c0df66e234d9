import Mathlib.Data.List.Infix
import Synopsis.Proofs.Python.Patterns
import Synopsis.Text.Lines

/-!
# Lines and marks

A text is cut into lines at ten characters, and a carriage return with a newline is one end of a
line. So a newline put between two texts ends a line and cuts nothing else, but it may belong to the
end that is there already: the lines of both texts are all the lines there are, perhaps with an
empty one between them. What stands before a mark is what is there until it first occurs.
-/

namespace Synopsis.Text

variable {c : Char} {cs rest : List Char}

/-! ## Lines -/

theorem isBlank_of_isLineEnd (ends : isLineEnd c = true) : isBlank c = true := by
  simp [isLineEnd] at ends
  simp [isBlank]
  omega

theorem splitLines_pair (rest : List Char) :
    splitLines ('\r' :: '\n' :: rest) = [] :: splitLines rest := by
  rw [splitLines]

/-- The end of a line that does not go on in what follows. -/
def EndsLine (c : Char) (rest : List Char) : Prop :=
  isLineEnd c = true ∧ ∀ rest', c = '\r' → rest ≠ '\n' :: rest'

theorem splitLines_end (ends : EndsLine c rest) :
    splitLines (c :: rest) = [] :: splitLines rest := by
  rw [splitLines.eq_def]
  split
  · rename_i same
    cases same
  · rename_i same
    cases same
    exact absurd rfl (ends.2 _ rfl)
  · rename_i same
    cases same
    exact if_pos ends.1

theorem splitLines_inner (inner : isLineEnd c = false) :
    splitLines (c :: rest) = (c :: (splitLines rest).headD []) :: (splitLines rest).tail := by
  cases rest with
  | nil => simp [splitLines, inner]
  | cons d rest =>
    rw [splitLines.eq_def]
    split
    · rename_i same
      cases same
    · rename_i same
      cases same
      cases inner
    · rename_i same
      cases same
      rw [inner, if_neg Bool.false_ne_true]
      cases splitLines (d :: rest) <;> rfl

/-- Texts are read line end by line end: each is a pair, or ends a line alone, or is in a line. -/
theorem lines_induction {motive : List Char → Prop} (nil : motive [])
    (pair : ∀ rest, motive rest → motive ('\r' :: '\n' :: rest))
    (lineEnd : ∀ c rest, EndsLine c rest → motive rest → motive (c :: rest))
    (inner : ∀ c rest, isLineEnd c = false → motive rest → motive (c :: rest)) (cs : List Char) :
    motive cs := by
  induction cs using splitLines.induct with
  | case1 => exact nil
  | case2 rest ih => exact pair rest ih
  | case3 c rest alone ends ih => exact lineEnd c rest ⟨ends, fun rest' => alone rest'⟩ ih
  | case4 c ends _ ih => exact inner c [] (Bool.eq_false_iff.mpr ends) ih
  | case5 c rest _ ends _ _ ih => exact inner c rest (Bool.eq_false_iff.mpr ends) ih
  | case6 c rest _ ends _ _ _ _ ih => exact inner c rest (Bool.eq_false_iff.mpr ends) ih

theorem splitLines_ne_nil (nonempty : cs ≠ []) : splitLines cs ≠ [] := by
  induction cs using lines_induction with
  | nil => exact absurd rfl nonempty
  | pair rest => rw [splitLines_pair]; exact List.cons_ne_nil _ _
  | lineEnd c rest ends => rw [splitLines_end ends]; exact List.cons_ne_nil _ _
  | inner c rest inner => rw [splitLines_inner inner]; exact List.cons_ne_nil _ _

/-- A text that does not end a line anywhere. -/
def SingleLine (cs : List Char) : Prop := ∀ c ∈ cs, isLineEnd c = false

instance (cs : List Char) : Decidable (SingleLine cs) := List.decidableBAll _ cs

theorem SingleLine.append (first : SingleLine cs) (second : SingleLine rest) :
    SingleLine (cs ++ rest) :=
  List.forall_mem_append.mpr ⟨first, second⟩

/-- No line holds the end of a line. -/
theorem singleLine_of_mem_splitLines {line : List Char} (h : line ∈ splitLines cs) :
    SingleLine line := by
  induction cs using lines_induction generalizing line with
  | nil => cases h
  | pair rest ih =>
    rw [splitLines_pair] at h
    rcases List.mem_cons.mp h with rfl | h
    · exact List.forall_mem_nil _
    · exact ih h
  | lineEnd c rest ends ih =>
    rw [splitLines_end ends] at h
    rcases List.mem_cons.mp h with rfl | h
    · exact List.forall_mem_nil _
    · exact ih h
  | inner c rest inner ih =>
    rw [splitLines_inner inner] at h
    rcases List.mem_cons.mp h with rfl | h
    · refine List.forall_mem_cons.mpr ⟨inner, ?_⟩
      cases lines : splitLines rest with
      | nil => exact List.forall_mem_nil _
      | cons first others =>
        rw [lines] at ih
        exact ih List.mem_cons_self
    · exact ih (List.mem_of_mem_tail h)

theorem SingleLine.splitLines_eq (single : SingleLine cs) (nonempty : cs ≠ []) :
    splitLines cs = [cs] := by
  induction cs with
  | nil => exact absurd rfl nonempty
  | cons c rest ih =>
    obtain ⟨own, later⟩ := List.forall_mem_cons.mp single
    rw [splitLines_inner own]
    cases rest with
    | nil => rfl
    | cons d rest => rw [ih later (List.cons_ne_nil d rest)]; rfl

/-- A newline between two texts adds no line but an empty one, and takes none away. -/
theorem splitLines_between (first second : List Char) :
    ∃ between, (∀ line ∈ between, line = []) ∧
      splitLines (first ++ '\n' :: second) = splitLines first ++ between ++ splitLines second := by
  have newline : splitLines ('\n' :: second) = [] :: splitLines second :=
    splitLines_end ⟨rfl, fun rest' other => absurd other (by decide)⟩
  induction first using lines_induction with
  | nil => exact ⟨[[]], by simp, newline⟩
  | pair rest ih =>
    obtain ⟨between, empty, lines⟩ := ih
    refine ⟨between, empty, ?_⟩
    rw [List.cons_append, List.cons_append, splitLines_pair, lines, splitLines_pair]
    rfl
  | lineEnd c rest ends ih =>
    obtain ⟨between, empty, lines⟩ := ih
    by_cases joined : c = '\r' ∧ rest = []
    · -- The newline belongs to the carriage return at the end of the first text.
      obtain ⟨rfl, rfl⟩ := joined
      refine ⟨[], List.forall_mem_nil _, ?_⟩
      rw [List.singleton_append, splitLines_pair, splitLines_end ends]
      rfl
    · have ends' : EndsLine c (rest ++ '\n' :: second) := by
        refine ⟨ends.1, fun rest' same next => ?_⟩
        cases rest with
        | nil => exact joined ⟨same, rfl⟩
        | cons d rest =>
          obtain ⟨rfl, -⟩ := List.cons.inj next
          exact ends.2 rest same rfl
      refine ⟨between, empty, ?_⟩
      rw [List.cons_append, splitLines_end ends', lines, splitLines_end ends]
      rfl
  | inner c rest inner ih =>
    rw [List.cons_append, splitLines_inner inner, splitLines_inner inner]
    cases rest with
    | nil => exact ⟨[], List.forall_mem_nil _, by rw [List.nil_append, newline]; rfl⟩
    | cons d rest =>
      obtain ⟨between, empty, lines⟩ := ih
      refine ⟨between, empty, ?_⟩
      cases here : splitLines (d :: rest) with
      | nil => exact absurd here (splitLines_ne_nil (List.cons_ne_nil d rest))
      | cons line others =>
        rw [lines, here]
        rfl

/-! ## Marks -/

variable {mark : List Char}

theorem before_cons (mark : List Char) (c : Char) (cs : List Char) :
    before mark (c :: cs) = if mark <+: c :: cs then [] else c :: before mark cs := by
  have starts : (dropPrefix? mark (c :: cs)).isSome = true ↔ mark <+: c :: cs := by
    simp only [Option.isSome_iff_exists, dropPrefix?_eq_some_iff]
    exact exists_congr fun rest => eq_comm
  rw [before]
  simp only [starts]

theorem prefix_before (mark cs : List Char) : before mark cs <+: cs := by
  induction cs with
  | nil => exact List.prefix_rfl
  | cons c cs ih =>
    rw [before_cons]
    split
    · exact List.nil_prefix
    · exact List.cons_prefix_cons.mpr ⟨rfl, ih⟩

/-- A mark does not occur in what stands before it. -/
theorem not_infix_before (nonempty : mark ≠ []) (cs : List Char) : ¬ mark <:+: before mark cs := by
  induction cs with
  | nil => exact fun h => nonempty (List.infix_nil.mp h)
  | cons c cs ih =>
    rw [before_cons]
    split
    · exact fun h => nonempty (List.infix_nil.mp h)
    · rename_i apart
      intro h
      rcases List.infix_cons_iff.mp h with here | later
      · exact apart (here.trans (List.cons_prefix_cons.mpr ⟨rfl, prefix_before mark cs⟩))
      · exact ih later

theorem before_self (nonempty : mark ≠ []) (rest : List Char) :
    before mark (mark ++ rest) = [] := by
  cases mark with
  | nil => exact absurd rfl nonempty
  | cons c mark =>
    rw [List.cons_append, before_cons]
    exact if_pos (List.prefix_append (c :: mark) rest)

/-- What holds no mark of one character stands before the mark. -/
theorem before_append_of_notMem (plain : c ∉ cs) (rest : List Char) :
    before [c] (cs ++ rest) = cs ++ before [c] rest := by
  induction cs with
  | nil => rfl
  | cons d cs ih =>
    obtain ⟨other, plain⟩ := not_or.mp (mt List.mem_cons.mpr plain)
    have apart : ¬ [c] <+: d :: (cs ++ rest) := fun h => other (List.cons_prefix_cons.mp h).1
    rw [List.cons_append, before_cons, if_neg apart, ih plain, List.cons_append]

variable {a b : Char}

/-- A mark of two characters that occurs in two texts together occurs
in one of them or over both. -/
theorem pair_infix_append (h : [a, b] <:+: cs ++ rest) :
    [a, b] <:+: cs ∨ [a, b] <:+: rest ∨ rest.head? = some b := by
  induction cs with
  | nil => exact Or.inr (Or.inl h)
  | cons c cs ih =>
    rcases List.infix_cons_iff.mp h with here | later
    · obtain ⟨rfl, next⟩ := List.cons_prefix_cons.mp here
      cases cs with
      | nil =>
        obtain ⟨tail, rfl⟩ := next
        exact Or.inr (Or.inr rfl)
      | cons d cs =>
        obtain ⟨rfl, -⟩ := List.cons_prefix_cons.mp next
        exact Or.inl (List.prefix_append [a, b] cs).isInfix
    · exact (ih later).imp_left fun h => h.trans (List.suffix_cons c cs).isInfix

/-- What holds no mark of two characters stands before the mark, unless the mark begins in it. -/
theorem before_append_of_not_infix (plain : ¬ [a, b] <:+: cs) (apart : rest.head? ≠ some b) :
    before [a, b] (cs ++ rest) = cs ++ before [a, b] rest := by
  induction cs with
  | nil => rfl
  | cons c cs ih =>
    have later : ¬ [a, b] <:+: cs := fun h => plain (h.trans (List.suffix_cons c cs).isInfix)
    have here : ¬ [a, b] <+: c :: (cs ++ rest) := by
      intro starts
      obtain ⟨rfl, next⟩ := List.cons_prefix_cons.mp starts
      cases cs with
      | nil =>
        obtain ⟨tail, rfl⟩ := next
        exact apart rfl
      | cons d cs =>
        obtain ⟨rfl, -⟩ := List.cons_prefix_cons.mp next
        exact plain (List.prefix_append [a, b] cs).isInfix
    rw [List.cons_append, before_cons, if_neg here, ih later, List.cons_append]

end Synopsis.Text
