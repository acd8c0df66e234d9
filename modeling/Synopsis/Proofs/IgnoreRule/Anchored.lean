import Synopsis.Proofs.Glob
import Synopsis.Proofs.IgnoreRule

/-!
# Anchored names

A pattern that starts with a slash and has no other one before its ending is read as an anchored
rule, and its glob is held against the whole path. So the rule keeps to the names right below the
root only if its glob keeps to texts without a slash inside. A star does not, and a question mark or
a set does not unless it comes first or last. Nothing is said of patterns with more slashes, nor of
paths with empty segments, which no scan comes upon.
-/

namespace Synopsis

namespace Path

theorem segments_of_slashless {name : String} (slashless : '/' ∉ name.toList) :
    segments name = [name] := by
  rw [segments, Text.splitOn_of_notMem slashless, List.map_singleton, String.ofList_toList]

/-- A slash in a path has a segment before it and one after it. -/
theorem sides_of_slash {path : String} {before after : List Char}
    (named : ∀ segment ∈ segments path, segment ≠ "")
    (parts : path.toList = before ++ '/' :: after) : before ≠ [] ∧ after ≠ [] := by
  have joined : path = String.ofList before ++ "/" ++ String.ofList after :=
    String.toList_injective (by simp [parts])
  rw [joined, segments_below] at named
  have empty : segments "" = [""] := segments_of_slashless List.not_mem_nil
  constructor
  · rintro rfl
    refine named "" (List.mem_append_left _ ?_) rfl
    simp [empty]
  · rintro rfl
    refine named "" (List.mem_append_right _ ?_) rfl
    simp [empty]

end Path

namespace IgnoreRule

/-- The glob of a rule. -/
def glob (rule : IgnoreRule) : List Glob :=
  Glob.read rule.pattern.length rule.pattern.toList

/-- The rule for a name at the root. -/
def atRoot (name : String) (directoryOnly : Bool) : IgnoreRule :=
  ⟨name, directoryOnly, true, false, false⟩

/-- Every path that the rule excludes is a single segment. -/
def Confined (rule : IgnoreRule) : Prop :=
  ∀ path isDirectory, (∀ segment ∈ Path.segments path, segment ≠ "") →
    rule.excludes path isDirectory = true → (Path.segments path).length = 1

/-! ## Reading anchored names -/

/-- What stands before a closing slash or a slash with a double star, and whether there was one. -/
def unclosed (cs : List Char) : Bool × List Char :=
  match cs.reverse with
  | '*' :: '*' :: '/' :: rest => (true, rest.reverse)
  | '/' :: rest => (true, rest.reverse)
  | _ => (false, cs)

/-- The rule for a pattern without its closing, which tells whether the rule is for folders. -/
def ofUnclosed (directoryOnly : Bool) (cs : List Char) : Option IgnoreRule :=
  let (anchored, cs) := match cs with
    | '/' :: rest => (true, rest)
    | _ => (false, cs)
  let (floating, cs) := dropFloating cs
  if cs.isEmpty then none
  else some ⟨String.ofList cs, directoryOnly, anchored, floating, cs.contains '/'⟩

theorem ofPattern_of_trim {text : String} {cs : List Char} (trimmed : Text.trim text.toList = cs)
    (nonempty : cs ≠ []) : ofPattern text = ofUnclosed (unclosed cs).1 (unclosed cs).2 := by
  rw [ofPattern, trimmed]
  exact if_neg (by simpa using nonempty)

theorem unclosed_concat (cs : List Char) : unclosed (cs ++ ['/']) = (true, cs) := by
  simp [unclosed]

/-- A pattern of two stars after a slash is all closing. -/
theorem unclosed_of_slashless {cs : List Char} (slashless : '/' ∉ cs) :
    unclosed ('/' :: cs) = (true, []) ∨ unclosed ('/' :: cs) = (false, '/' :: cs) := by
  have reversed : '/' ∉ cs.reverse := fun h => slashless (List.mem_reverse.mp h)
  rw [unclosed, List.reverse_cons]
  generalize cs.reverse = back at reversed
  split
  · rename_i rest parts
    rcases back with _ | ⟨a, _ | ⟨b, _ | ⟨c, back⟩⟩⟩ <;> simp_all
  · rename_i rest parts
    rcases back with _ | ⟨a, back⟩ <;> simp_all
  · exact Or.inr rfl

theorem dropFloating_of_slashless {cs : List Char} (slashless : '/' ∉ cs) :
    dropFloating cs = (false, cs) := by
  unfold dropFloating
  split
  · exact absurd slashless (by simp)
  · rfl

theorem ofUnclosed_root {cs : List Char} (slashless : '/' ∉ cs) (directoryOnly : Bool) :
    ofUnclosed directoryOnly ('/' :: cs) =
      if cs = [] then none else some (atRoot (String.ofList cs) directoryOnly) := by
  simp [ofUnclosed, dropFloating_of_slashless slashless, slashless, atRoot]

section AtRoot

variable {name : String} (slashless : '/' ∉ name.toList)
include slashless

theorem ofPattern_folder (nonempty : name ≠ "") :
    ofPattern ("/" ++ name ++ "/") = some (atRoot name true) := by
  have slash : Text.isBlank '/' = false := by decide
  have trimmed : Text.trim ("/" ++ name ++ "/").toList = '/' :: name.toList ++ ['/'] := by
    have chars : ("/" ++ name ++ "/").toList = '/' :: name.toList ++ ['/'] := by simp
    rw [chars, Text.trim_concat slash, Text.trimStart_cons slash]
  have present : name.toList ≠ [] := by simpa using nonempty
  rw [ofPattern_of_trim trimmed (by simp), unclosed_concat, ofUnclosed_root slashless,
    if_neg present, String.ofList_toList]

theorem eq_atRoot_of_ofPattern {rule : IgnoreRule} (built : ofPattern ("/" ++ name) = some rule) :
    rule = atRoot (String.ofList (Text.trimEnd name.toList)) false := by
  have slash : Text.isBlank '/' = false := by decide
  have trimmed : Text.trim ("/" ++ name).toList = '/' :: Text.trimEnd name.toList := by
    have chars : ("/" ++ name).toList = '/' :: name.toList := by simp
    rw [chars, Text.trim, Text.trimStart_cons slash,
      Text.trimEnd_cons slash]
  have within : '/' ∉ Text.trimEnd name.toList := fun h => slashless (Text.mem_of_mem_trimEnd h)
  rw [ofPattern_of_trim trimmed (by simp)] at built
  rcases unclosed_of_slashless within with closed | kept
  · rw [closed] at built
    cases built
  · rw [kept, ofUnclosed_root within] at built
    split at built
    · cases built
    · exact (Option.some.inj built).symm

end AtRoot

/-! ## Holding them against paths -/

theorem excludes_atRoot_iff {name path : String} {directoryOnly isDirectory : Bool} :
    (atRoot name directoryOnly).excludes path isDirectory = true ↔
      name ≠ "" ∧ (directoryOnly = true → isDirectory = true) ∧
        Glob.Stands (atRoot name directoryOnly).glob path.toList := by
  have held : (atRoot name directoryOnly).targets path = [path] := rfl
  rw [excludes_eq, held, ← Glob.accept_iff]
  have suits : (!(directoryOnly && !isDirectory)) = true ↔
      (directoryOnly = true → isDirectory = true) := by
    cases directoryOnly <;> cases isDirectory <;> decide
  rw [Bool.and_eq_true, Bool.and_eq_true, bne_iff_ne, List.any_cons, List.any_nil, Bool.or_false,
    and_assoc]
  exact and_congr Iff.rfl (and_congr suits Iff.rfl)

theorem confined_of_narrow {name : String} {directoryOnly : Bool}
    (narrow : Glob.Narrow (atRoot name directoryOnly).glob) :
    (atRoot name directoryOnly).Confined := by
  intro path isDirectory named excluded
  obtain ⟨-, -, h⟩ := excludes_atRoot_iff.mp excluded
  have slashless : '/' ∉ path.toList := by
    intro slash
    obtain ⟨before, after, parts⟩ := List.append_of_mem slash
    obtain ⟨first, second⟩ := Path.sides_of_slash named parts
    rw [parts] at h
    exact narrow.not_stands first second h
  rw [Path.segments_of_slashless slashless, List.length_singleton]

/-- If its items could do without slashes, a glob that is not narrow excludes something in a
folder. -/
theorem narrow_of_confined {name : String} {directoryOnly : Bool}
    (unforced : Glob.Unforced (atRoot name directoryOnly).glob)
    (confined : (atRoot name directoryOnly).Confined) :
    Glob.Narrow (atRoot name directoryOnly).glob := by
  by_cases narrow : Glob.Narrow (atRoot name directoryOnly).glob
  · exact narrow
  exfalso
  obtain ⟨before, after, h, ⟨first, second⟩, plain, plain'⟩ := unforced.exists_divided narrow
  have chars : (String.ofList before ++ "/" ++ String.ofList after).toList =
      before ++ '/' :: after := by simp
  have nonempty : name ≠ "" := by
    rintro rfl
    have empty : (atRoot "" directoryOnly).glob = [] := rfl
    rw [empty] at narrow
    exact narrow (by decide)
  have segments : Path.segments (String.ofList before ++ "/" ++ String.ofList after) =
      [String.ofList before, String.ofList after] := by
    rw [Path.segments_below, Path.segments_of_slashless (by simpa using plain),
      Path.segments_of_slashless (by simpa using plain')]
    rfl
  have named : ∀ segment ∈ [String.ofList before, String.ofList after], segment ≠ "" := by
    simp [first, second]
  have single := confined (String.ofList before ++ "/" ++ String.ofList after) true
    (by rw [segments]; exact named)
    (excludes_atRoot_iff.mpr ⟨nonempty, fun _ => rfl, by rw [chars]; exact h⟩)
  rw [segments] at single
  cases single

/-- A name after a slash, closed or not, is the glob of an anchored rule, less the blanks at its end
if it is not closed. If the glob is narrow, the rule excludes nothing but names right below the
root; and among globs whose items could all do without a slash, only the narrow ones do so. -/
theorem anchored_confined_iff (name closing : String) (nonempty : name ≠ "")
    (slashless : '/' ∉ name.toList) (closes : closing ∈ ["", "/", "/**"]) {rule : IgnoreRule}
    (built : ofPattern ("/" ++ name ++ closing) = some rule) :
    rule = atRoot (if closing = "" then String.ofList (Text.trimEnd name.toList) else name)
        (closing != "") ∧
      (Glob.Narrow rule.glob → rule.Confined) ∧
      (Glob.Unforced rule.glob → (rule.Confined ↔ Glob.Narrow rule.glob)) := by
  have rooted : rule =
      atRoot (if closing = "" then String.ofList (Text.trimEnd name.toList) else name)
        (closing != "") := by
    simp only [List.mem_cons, List.not_mem_nil, or_false] at closes
    rcases closes with rfl | rfl | rfl
    · rw [String.append_empty] at built
      exact eq_atRoot_of_ofPattern slashless built
    · rw [ofPattern_folder slashless nonempty] at built
      exact (Option.some.inj built).symm
    · rw [ofPattern_doubleStar, ofPattern_folder slashless nonempty] at built
      exact (Option.some.inj built).symm
  subst rooted
  exact ⟨rfl, confined_of_narrow, fun unforced => ⟨narrow_of_confined unforced, confined_of_narrow⟩⟩

theorem anchored_confined_iff_notes :
    ∃ rule, ofPattern "/notes[0-9].md" = some rule ∧ rule.excludes "notes7.md" false = true ∧
      rule.Confined := by
  have built : ofPattern "/notes[0-9].md" = some (atRoot "notes[0-9].md" false) := by decide +kernel
  obtain ⟨-, confined, -⟩ := anchored_confined_iff "notes[0-9].md" "" (by decide) (by decide)
    (by decide) built
  have narrow : Glob.Narrow (atRoot "notes[0-9].md" false).glob := by decide +kernel
  exact ⟨_, built, by decide +kernel, confined narrow⟩

/-- A star after the slash reaches into folders. -/
theorem anchoredStar_not_confined :
    ofPattern "/*.py" = some (atRoot "*.py" false) ∧
      (atRoot "*.py" false).excludes "src/main.py" false = true ∧
      Path.segments "src/main.py" = ["src", "main.py"] := by
  decide +kernel

-- The slash at the start may add to what a name excludes.
example : (atRoot "a*b" false).excludes "ax/yb" false = true ∧
    IgnoreRule.excludes ⟨"a*b", false, false, false, false⟩ "ax/yb" false = false := by
  decide +kernel

end IgnoreRule

end Synopsis
