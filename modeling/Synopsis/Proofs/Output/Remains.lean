import Synopsis.Proofs.Output

/-!
# Escape sequences that remain

One pass from the left takes away the sequences that are there, and what it joins may be a sequence
again. This happens exactly where an escape character begins no sequence but would begin one if the
sequences behind it were away: it is kept, they are not, and what is left of the place reads as a
sequence. The same texts are those that a second pass would change. How many passes a text needs is
not said here.
-/

namespace Synopsis

variable {cs kept front rest : List Char}

/-- The first text is the second one with escape sequences put anywhere in it. -/
inductive Strewn : List Char → List Char → Prop
  | nil : Strewn [] []
  | escape {front rest kept : List Char} :
      IsEscape front → Strewn rest kept → Strewn (front ++ rest) kept
  | other {c : Char} {rest kept : List Char} : Strewn rest kept → Strewn (c :: rest) (c :: kept)

/-- A text without any escape sequence in it. -/
def EscapeFree (cs : List Char) : Prop := ∀ part, part <:+: cs → ¬ IsEscape part

/-- Somewhere in the text an escape character begins no sequence, but would if the
sequences behind it were away. -/
def Interrupted (cs : List Char) : Prop :=
  ∃ front inside tail back, cs = front ++ '\x1b' :: (inside ++ back) ∧
    (∀ part, part <+: '\x1b' :: (inside ++ back) → ¬ IsEscape part) ∧
    Strewn inside tail ∧ IsEscape ('\x1b' :: tail)

/-! ## One sequence -/

/-- A sequence has an escape character at its start and nowhere else. -/
theorem IsEscape.single (escape : IsEscape cs) : ∃ tail, cs = '\x1b' :: tail ∧ '\x1b' ∉ tail := by
  obtain ⟨parameters, letter, rfl, digits, isLetter⟩ := escape
  refine ⟨_, rfl, fun inside => ?_⟩
  rcases List.mem_cons.mp inside with bracket | inside
  · cases bracket
  rcases List.mem_append.mp inside with parameter | last
  · cases digits _ parameter
  · obtain rfl := List.mem_singleton.mp last
    cases isLetter

theorem afterEscape?_eq_none_iff :
    afterEscape? cs = none ↔ ∀ part, part <+: cs → ¬ IsEscape part := by
  rw [Option.eq_none_iff_forall_ne_some]
  constructor
  · rintro none part ⟨after, rfl⟩ escape
    exact none after (afterEscape?_eq_some_iff.mpr ⟨part, escape, rfl⟩)
  · intro none after found
    obtain ⟨part, escape, rfl⟩ := afterEscape?_eq_some_iff.mp found
    exact none part (List.prefix_append part after) escape

theorem afterEscape?_of_ne {c : Char} (other : c ≠ '\x1b') : afterEscape? (c :: rest) = none := by
  refine afterEscape?_eq_none_iff.mpr fun part starts escape => ?_
  obtain ⟨tail, rfl, -⟩ := escape.single
  exact other (List.cons_prefix_cons.mp starts).1.symm

/-! ## One pass -/

theorem withoutEscapes_nil : withoutEscapes [] = [] := (stripped_iff.mp .nil).symm

theorem withoutEscapes_escape (escape : IsEscape front) (rest : List Char) :
    withoutEscapes (front ++ rest) = withoutEscapes rest :=
  withoutEscapes_of_escape (afterEscape?_eq_some_iff.mpr ⟨front, escape, rfl⟩)

/-- No sequence reaches over an escape character, so a pass can be cut before it. -/
theorem withoutEscapes_append (front rest : List Char) :
    withoutEscapes (front ++ '\x1b' :: rest) =
      withoutEscapes front ++ withoutEscapes ('\x1b' :: rest) := by
  induction front using withoutEscapes.induct with
  | case1 front after found _ ih =>
    obtain ⟨escape, escapes, rfl⟩ := afterEscape?_eq_some_iff.mp found
    rw [List.append_assoc, withoutEscapes_escape escapes, withoutEscapes_escape escapes, ih]
  | case2 => rw [withoutEscapes_nil, List.nil_append, List.nil_append]
  | case3 c front none ih =>
    have alone : afterEscape? (c :: (front ++ '\x1b' :: rest)) = .none := by
      refine afterEscape?_eq_none_iff.mpr fun part starts escape => ?_
      have short (h : part <+: c :: front) : False := afterEscape?_eq_none_iff.mp none part h escape
      rcases List.prefix_or_prefix_of_prefix starts
        (List.prefix_append (c :: front) ('\x1b' :: rest))
        with inside | ⟨more, rfl⟩
      · exact short inside
      -- What is longer than the front holds the escape character after it.
      cases more with
      | nil => exact short (by simp)
      | cons d more =>
        obtain ⟨rfl, -⟩ :=
          List.cons_prefix_cons.mp ((List.prefix_append_right_inj (c :: front)).mp starts)
        obtain ⟨_, ⟨⟩, plain⟩ := escape.single
        exact plain (by simp)
    rw [List.cons_append, withoutEscapes_of_other alone, ih, withoutEscapes_of_other none,
      List.cons_append]

/-- Sequences that are strewn into a text without escape characters are taken away. -/
theorem withoutEscapes_strewn (strewn : Strewn cs kept) (plain : '\x1b' ∉ kept) (back : List Char) :
    withoutEscapes (cs ++ back) = kept ++ withoutEscapes back := by
  induction strewn with
  | nil => rfl
  | escape escapes _ ih => rw [List.append_assoc, withoutEscapes_escape escapes, ih plain]
  | @other c rest kept _ ih =>
    obtain ⟨other, plain⟩ := not_or.mp (mt List.mem_cons.mpr plain)
    rw [List.cons_append, withoutEscapes_of_other (afterEscape?_of_ne (Ne.symm other)), ih plain,
      List.cons_append]

theorem sublist_of_stripped (stripped : Stripped cs kept) : kept.Sublist cs := by
  induction stripped with
  | nil => exact .slnil
  | escape _ _ ih => exact ih.trans (List.sublist_append_right _ _)
  | other _ _ ih => exact ih.cons_cons _

/-- What a pass leaves comes from the text part by part. -/
theorem Stripped.split {first second : List Char} (stripped : Stripped cs (first ++ second)) :
    ∃ front rest, cs = front ++ rest ∧ Strewn front first ∧ Stripped rest second := by
  generalize whole : first ++ second = kept at stripped
  induction stripped generalizing first with
  | nil =>
    obtain ⟨rfl, rfl⟩ := List.append_eq_nil_iff.mp whole
    exact ⟨[], [], rfl, .nil, .nil⟩
  | escape escapes _ ih =>
    obtain ⟨front, rest, rfl, strewn, stripped⟩ := ih whole
    exact ⟨_, rest, (List.append_assoc _ _ _).symm, .escape escapes strewn, stripped⟩
  | @other c rest kept none stripped ih =>
    cases first with
    | nil =>
      obtain rfl : second = c :: kept := whole
      exact ⟨[], c :: rest, rfl, .nil, .other none stripped⟩
    | cons d first =>
      obtain ⟨rfl, later⟩ := List.cons.inj whole
      obtain ⟨front, rest, rfl, strewn, stripped⟩ := ih later
      exact ⟨_, rest, rfl, .other strewn, stripped⟩

/-- A character that a pass keeps begins no sequence where it stands. -/
theorem Stripped.before_kept {c : Char} (stripped : Stripped cs (c :: kept)) :
    ∃ front rest, cs = front ++ c :: rest ∧ (∀ part, part <+: c :: rest → ¬ IsEscape part) ∧
      Stripped rest kept := by
  generalize whole : c :: kept = all at stripped
  induction stripped with
  | nil => cases whole
  | escape _ _ ih =>
    obtain ⟨front, rest, rfl, none, stripped⟩ := ih whole
    exact ⟨_, rest, (List.append_assoc _ _ _).symm, none, stripped⟩
  | @other d rest _ none stripped _ =>
    obtain ⟨rfl, rfl⟩ := List.cons.inj whole
    exact ⟨[], rest, rfl, fun part ⟨after, split⟩ => none part after split.symm, stripped⟩

/-! ## What remains -/

/-- Sequences remain exactly in texts where one is interrupted by others. -/
theorem escapeFree_withoutEscapes_iff : EscapeFree (withoutEscapes cs) ↔ ¬ Interrupted cs := by
  constructor
  · rintro free ⟨front, inside, tail, back, rfl, none, strewn, escape⟩
    obtain ⟨_, ⟨⟩, plain⟩ := escape.single
    refine free ('\x1b' :: tail) ⟨withoutEscapes front, withoutEscapes back, ?_⟩ escape
    rw [withoutEscapes_append, withoutEscapes_of_other (afterEscape?_eq_none_iff.mpr none),
      withoutEscapes_strewn strewn plain, List.append_assoc, List.cons_append]
  · rintro whole part ⟨before, after, cut⟩ escape
    obtain ⟨tail, rfl, -⟩ := escape.single
    have stripped : Stripped cs (before ++ '\x1b' :: (tail ++ after)) :=
      stripped_iff.mpr (by rw [← cut, List.append_assoc, List.cons_append])
    obtain ⟨front, _, rfl, -, stripped⟩ := stripped.split
    obtain ⟨between, _, rfl, none, stripped⟩ := stripped.before_kept
    obtain ⟨inside, back, rfl, strewn, -⟩ := stripped.split
    exact whole ⟨front ++ between, inside, tail, back, (List.append_assoc _ _ _).symm, none, strewn,
      escape⟩

/-- A pass leaves alone exactly the texts without sequences. -/
theorem withoutEscapes_eq_self_iff : withoutEscapes cs = cs ↔ EscapeFree cs := by
  constructor
  · rintro same part ⟨front, back, rfl⟩ escape
    obtain ⟨tail, rfl, -⟩ := escape.single
    have passed : withoutEscapes (front ++ '\x1b' :: tail ++ back) =
        withoutEscapes front ++ withoutEscapes back := by
      rw [List.append_assoc, List.cons_append, withoutEscapes_append, ← List.cons_append,
        withoutEscapes_escape escape]
    have first :=
      (sublist_of_stripped (stripped_iff.mpr (Eq.refl (withoutEscapes front)))).length_le
    have second :=
      (sublist_of_stripped (stripped_iff.mpr (Eq.refl (withoutEscapes back)))).length_le
    have lengths := congrArg List.length (same.symm.trans passed)
    simp only [List.length_append, List.length_cons] at lengths
    omega
  · intro free
    refine (stripped_iff.mp ?_).symm
    induction cs with
    | nil => exact .nil
    | cons c rest ih =>
      refine .other (fun front after split => free front ?_) (ih fun part inside => free part ?_)
      · exact split ▸ (List.prefix_append front after).isInfix
      · exact inside.trans (List.suffix_cons c rest).isInfix

/-! ## What is written -/

/-- What is written for a text is what one pass leaves of it. It is free of sequences, and a second
pass would change nothing, exactly if no sequence of the text is interrupted by others. -/
theorem Workspace.written_free_iff {w : Workspace} (standing : w.Standing) {path text : String}
    {target : Location} (done : (w.writeOutput path text).2 = .ok target) :
    ∃ written, Stripped text.toList written ∧
      w.Wrote path target (String.ofList written).toUTF8 (w.writeOutput path text).1.disk ∧
      (EscapeFree written ↔ ¬ Interrupted text.toList) ∧
      (withoutEscapes written = written ↔ ¬ Interrupted text.toList) := by
  rcases Workspace.writeOutput_cases standing path text with
    ⟨fault, -, failed⟩ | ⟨place, disk, -, ⟨fault, failed, -⟩ | ⟨written, ended, stripped, wrote⟩⟩
  · rw [failed] at done
    cases done
  · rw [failed] at done
    cases done
  · rw [ended] at done ⊢
    cases done
    have free : EscapeFree written ↔ ¬ Interrupted text.toList := by
      rw [stripped_iff.mp stripped]
      exact escapeFree_withoutEscapes_iff
    exact ⟨written, stripped, wrote, free, withoutEscapes_eq_self_iff.trans free⟩

/-- A workspace with nothing in it. -/
def emptyWorkspace : Workspace := { disk := .folder [] }

theorem Workspace.written_free_bold :
    emptyWorkspace.Standing ∧
      (emptyWorkspace.writeOutput "/out/a.md" "\x1b[1mhello\x1b[0m").2 = .ok ["out", "a.md"] ∧
      ∃ written, Stripped "\x1b[1mhello\x1b[0m".toList written ∧
        emptyWorkspace.Wrote "/out/a.md" ["out", "a.md"] (String.ofList written).toUTF8
          (emptyWorkspace.writeOutput "/out/a.md" "\x1b[1mhello\x1b[0m").1.disk ∧
        (EscapeFree written ↔ ¬ Interrupted "\x1b[1mhello\x1b[0m".toList) ∧
        (withoutEscapes written = written ↔ ¬ Interrupted "\x1b[1mhello\x1b[0m".toList) := by
  have standing : emptyWorkspace.Standing := by
    refine ⟨?_, _, rfl⟩
    simp only [emptyWorkspace, Entry.IsTree, Entry.AreTrees, List.map_nil]
    decide
  have done : (emptyWorkspace.writeOutput "/out/a.md" "\x1b[1mhello\x1b[0m").2 =
      .ok ["out", "a.md"] := by decide +kernel
  exact ⟨standing, done, written_free_iff standing done⟩

/-- A sequence around another one is written, and a second pass would take it away. -/
theorem interruptedEscape_written :
    outputBytes "\x1b\x1b[m[m" = "\x1b[m".toUTF8 ∧ IsEscape "\x1b[m".toList ∧
      outputBytes "\x1b[m" = "".toUTF8 := by
  have escape : IsEscape ['\x1b', '[', 'm'] := ⟨[], 'm', rfl, nofun, rfl⟩
  have alone : withoutEscapes ['\x1b', '[', 'm'] = [] := by
    rw [← List.append_nil ['\x1b', '[', 'm'], withoutEscapes_escape escape, withoutEscapes_nil]
  have joined : withoutEscapes ['\x1b', '\x1b', '[', 'm', '[', 'm'] = ['\x1b', '[', 'm'] := by
    have inside : Strewn (['\x1b', '[', 'm'] ++ ['[', 'm']) ['[', 'm'] :=
      .escape escape (.other (.other .nil))
    have passed := withoutEscapes_strewn inside (by decide) []
    rw [withoutEscapes_nil, List.append_nil, List.append_nil] at passed
    rw [withoutEscapes_of_other (by decide)]
    exact congrArg ('\x1b' :: ·) passed
  refine ⟨congrArg (fun cs => (String.ofList cs).toUTF8) joined, escape,
    congrArg (fun cs => (String.ofList cs).toUTF8) alone⟩

end Synopsis
