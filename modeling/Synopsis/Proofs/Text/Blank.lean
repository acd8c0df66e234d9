import Mathlib.Data.List.DropRight
import Synopsis.Text.Lines
import Synopsis.Text.Word

/-!
# Blanks at the ends of texts

A trimmed text neither starts nor ends with a blank. Trimming makes texts so and leaves those alone
that are so already. No character of a word is blank. A single character can be removed from the end
alone.
-/

namespace Synopsis.Text

/-- A text that neither starts nor ends with a blank. The empty text is one. -/
structure Trimmed (cs : List Char) : Prop where
  start : ∀ c ∈ cs.head?, isBlank c = false
  stop : ∀ c ∈ cs.getLast?, isBlank c = false

instance (cs : List Char) : Decidable (Trimmed cs) :=
  decidable_of_iff (cs.head?.all (!isBlank ·) = true ∧ cs.getLast?.all (!isBlank ·) = true) <| by
    simp only [Option.all_eq_true, Bool.not_eq_true']
    exact ⟨fun ⟨start, stop⟩ => ⟨start, stop⟩, fun ⟨start, stop⟩ => ⟨start, stop⟩⟩

variable {cs : List Char}

theorem Trimmed.of_forall (visible : ∀ c ∈ cs, isBlank c = false) : Trimmed cs where
  start c h := visible c (List.mem_of_mem_head? h)
  stop c h := visible c (List.mem_of_mem_getLast? h)

theorem trimEnd_eq (cs : List Char) : trimEnd cs = cs.rdropWhile isBlank := rfl

theorem visible_start (cs : List Char) : ∀ c ∈ (trimStart cs).head?, isBlank c = false := by
  intro c first
  have visible := List.head?_dropWhile_not isBlank cs
  rw [← trimStart, first] at visible
  exact visible

theorem trimmed_trim (cs : List Char) : Trimmed (trim cs) where
  start c h := by
    -- What is left after the end is cut still starts as before.
    obtain ⟨tail, whole⟩ : trim cs <+: trimStart cs := List.rdropWhile_prefix _ _
    refine visible_start cs c ?_
    rw [← whole, List.head?_append, h]
    rfl
  stop c h := by
    obtain ⟨nonempty, rfl⟩ := List.mem_getLast?_eq_getLast h
    exact Bool.not_eq_true _ ▸ List.rdropWhile_last_not isBlank (trimStart cs) nonempty

theorem trimStart_cons {c : Char} (visible : isBlank c = false) (cs : List Char) :
    trimStart (c :: cs) = c :: cs :=
  List.dropWhile_cons_of_neg (by simp [visible])

theorem Trimmed.trimStart_eq (trimmed : Trimmed cs) : trimStart cs = cs := by
  cases cs with
  | nil => rfl
  | cons c cs => exact trimStart_cons (trimmed.start c rfl) cs

theorem Trimmed.trim_eq (trimmed : Trimmed cs) : trim cs = cs := by
  rw [trim, trimmed.trimStart_eq, trimEnd_eq, List.rdropWhile_eq_self_iff]
  intro nonempty
  rw [trimmed.stop _ (List.getLast?_eq_some_getLast nonempty)]
  exact Bool.false_ne_true

theorem suffix_trimStart (cs : List Char) : trimStart cs <:+ cs := List.dropWhile_suffix _

theorem prefix_trimEnd (cs : List Char) : trimEnd cs <+: cs := List.rdropWhile_prefix _ _

theorem infix_trim (cs : List Char) : trim cs <:+: cs :=
  (prefix_trimEnd _).isInfix.trans (suffix_trimStart cs).isInfix

/-- Nothing is left of blanks alone. -/
theorem trim_eq_nil_iff : trim cs = [] ↔ ∀ c ∈ cs, isBlank c = true := by
  rw [trim, trimEnd_eq, List.rdropWhile_eq_nil_iff]
  constructor
  · intro blank
    refine List.dropWhile_eq_nil_iff.mp ?_
    by_contra nonempty
    have visible := List.head_dropWhile_not isBlank nonempty
    rw [blank _ (List.head_mem nonempty)] at visible
    cases visible
  · exact fun blank c h => blank c ((List.dropWhile_sublist isBlank).subset h)

/-! ## Blanks on one side -/

variable {c : Char} {gap rest : List Char}

/-- Blanks at the start of a text end where something follows that does not start with one. -/
theorem trimStart_append (visible : isBlank c = false) :
    trimStart (cs ++ c :: rest) = trimStart cs ++ c :: rest := by
  rw [trimStart, trimStart, List.dropWhile_append]
  split
  · rename_i blank
    rw [List.isEmpty_iff.mp blank, List.nil_append]
    exact trimStart_cons visible rest
  · rfl

theorem trimEnd_append (visible : isBlank c = false) (cs rest : List Char) :
    trimEnd (cs ++ c :: rest) = cs ++ c :: trimEnd rest := by
  have mirrored : trimStart (rest.reverse ++ c :: cs.reverse) =
      trimStart rest.reverse ++ c :: cs.reverse := trimStart_append visible
  have parts : (cs ++ c :: rest).reverse = rest.reverse ++ c :: cs.reverse := by simp
  rw [trimEnd, parts, ← trimStart, mirrored]
  simp [trimEnd, trimStart]

theorem trimEnd_cons (visible : isBlank c = false) (cs : List Char) :
    trimEnd (c :: cs) = c :: trimEnd cs :=
  trimEnd_append visible [] cs

theorem trim_concat (visible : isBlank c = false) : trim (cs ++ [c]) = trimStart cs ++ [c] := by
  rw [trim, trimStart_append visible, trimEnd_append visible]
  rfl

theorem mem_of_mem_trimEnd (h : c ∈ trimEnd cs) : c ∈ cs :=
  (prefix_trimEnd cs).subset h

theorem trimStart_gap (blank : ∀ c ∈ gap, isBlank c = true) (cs : List Char) :
    trimStart (gap ++ cs) = trimStart cs :=
  List.dropWhile_append_of_pos blank

theorem trimEnd_gap (blank : ∀ c ∈ gap, isBlank c = true) (cs : List Char) :
    trimEnd (cs ++ gap) = trimEnd cs := by
  rw [trimEnd, trimEnd, List.reverse_append, List.dropWhile_append_of_pos]
  exact fun c h => blank c (List.mem_reverse.mp h)

/-- It does not matter which end is trimmed first. -/
theorem trimStart_trimEnd (cs : List Char) : trimStart (trimEnd cs) = trim cs := by
  have parts : cs.takeWhile isBlank ++ trimStart cs = cs := List.takeWhile_append_dropWhile
  have blank : ∀ c ∈ cs.takeWhile isBlank, isBlank c = true := fun c => List.mem_takeWhile_imp
  cases rest : trimStart cs with
  | nil =>
    rw [rest, List.append_nil] at parts
    have none : trimEnd cs = [] := by
      rw [← parts]
      exact trimEnd_gap blank []
    rw [none, trim, rest]
    rfl
  | cons c later =>
    have visible : isBlank c = false := by
      have stops := List.head?_dropWhile_not isBlank cs
      rw [← trimStart, rest] at stops
      exact stops
    rw [trim, rest, trimEnd_cons visible, ← parts, rest, trimEnd_append visible,
      trimStart_gap blank, trimStart_cons visible]

theorem trim_gap_append (blank : ∀ c ∈ gap, isBlank c = true) (cs : List Char) :
    trim (gap ++ cs) = trim cs := by
  rw [trim, trimStart_gap blank, trim]

theorem trim_append_gap (blank : ∀ c ∈ gap, isBlank c = true) (cs : List Char) :
    trim (cs ++ gap) = trim cs := by
  rw [← trimStart_trimEnd, trimEnd_gap blank, trimStart_trimEnd]

theorem trimEnd_append_of_visible (visible : ∀ c ∈ cs, isBlank c = false) (rest : List Char) :
    trimEnd (cs ++ rest) = cs ++ trimEnd rest := by
  induction cs with
  | nil => rfl
  | cons c cs ih =>
    obtain ⟨own, later⟩ := List.forall_mem_cons.mp visible
    rw [List.cons_append, trimEnd_cons own, ih later, List.cons_append]

theorem trim_append_of_visible (visible : ∀ c ∈ cs, isBlank c = false) (nonempty : cs ≠ [])
    (rest : List Char) : trim (cs ++ rest) = cs ++ trimEnd rest := by
  rw [← trimEnd_append_of_visible visible]
  cases cs with
  | nil => exact absurd rfl nonempty
  | cons c cs => rw [trim, List.cons_append, trimStart_cons (visible c List.mem_cons_self)]

theorem trimEnd_trimEnd (cs : List Char) : trimEnd (trimEnd cs) = trimEnd cs :=
  List.rdropWhile_idempotent isBlank cs

theorem trim_trimEnd (cs : List Char) : trim (trimEnd cs) = trim cs := by
  rw [trim, trimStart_trimEnd, trim, trimEnd_trimEnd]

/-! ## One character at the end -/

/-- A text is what is left of it without some character at the end, and
the occurrences of it there. -/
theorem exists_dropTrailing_append (c : Char) (cs : List Char) :
    ∃ count, cs = dropTrailing c cs ++ List.replicate count c := by
  have same : cs.rtakeWhile (· == c) = List.replicate (cs.rtakeWhile (· == c)).length c :=
    List.eq_replicate_of_mem fun d h => by simpa using List.mem_rtakeWhile_imp h
  refine ⟨(cs.rtakeWhile (· == c)).length, ?_⟩
  rw [← same]
  exact List.rdropWhile_append_rtakeWhile.symm

theorem getLast?_dropTrailing (c : Char) (cs : List Char) :
    (dropTrailing c cs).getLast? ≠ some c := by
  intro h
  obtain ⟨nonempty, last⟩ := List.mem_getLast?_eq_getLast h
  exact List.rdropWhile_last_not (· == c) cs nonempty (beq_iff_eq.mpr last.symm)

/-! ## Which characters are blank -/

/-- The code points of the blank characters. -/
def blankCodes : List Nat :=
  [9, 10, 11, 12, 13, 28, 29, 30, 31, 32, 133, 160, 5760] ++ List.range' 8192 11 ++
    [8232, 8233, 8239, 8287, 12288]

theorem isBlank_iff {c : Char} : isBlank c = true ↔ c.toNat ∈ blankCodes := by
  simp [isBlank, blankCodes]
  omega

theorem isWord_of_isBlank {c : Char} (blank : isBlank c = true) : isWord c = false := by
  have codes : ∀ code ∈ blankCodes, isWord (Char.ofNat code) = false := by decide +kernel
  have wordless := codes c.toNat (isBlank_iff.mp blank)
  rwa [Char.ofNat_toNat] at wordless

theorem isBlank_of_isWord {c : Char} (word : isWord c = true) : isBlank c = false := by
  cases blank : isBlank c with
  | false => rfl
  | true => rw [isWord_of_isBlank blank] at word; cases word

end Synopsis.Text
