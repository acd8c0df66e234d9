import Synopsis.IgnoreRule
import Synopsis.Proofs.Disk.Spelling
import Synopsis.Proofs.Text.Blank

/-!
# Exclusion rules at any depth

A rule holds its glob against the whole path, against each of its tails or against each of its
segments, and excludes the path when the glob fits one of them. Tails and segments of a path are
also those of the path below a folder. So a rule that is free to float, or that speaks of single
names, excludes at every depth what it excludes at the top. What a glob fits is left open: nothing
here looks into it.
-/

namespace Synopsis

namespace Path

theorem segments_below (folder path : String) :
    segments (folder ++ "/" ++ path) = segments folder ++ segments path := by
  have chars : (folder ++ "/" ++ path).toList = folder.toList ++ '/' :: path.toList := by simp
  rw [segments, segments, segments, chars, Text.splitOn_between, List.map_append]

end Path

namespace IgnoreRule

theorem mem_tails {α : Type} {tail items : List α} :
    tail ∈ tails items ↔ tail <:+ items ∧ tail ≠ [] := by
  induction items with
  | nil => simp [tails]
  | cons x xs ih =>
    rw [tails, List.mem_cons, ih, List.suffix_cons_iff]
    constructor
    · rintro (rfl | ⟨inner, nonempty⟩)
      · exact ⟨Or.inl rfl, List.cons_ne_nil _ _⟩
      · exact ⟨Or.inr inner, nonempty⟩
    · rintro ⟨rfl | inner, nonempty⟩
      · exact Or.inl rfl
      · exact Or.inr ⟨inner, nonempty⟩

/-! ## What a rule is held against -/

/-- The texts against which the glob of a rule is held. -/
def targets (rule : IgnoreRule) (path : String) : List String :=
  if rule.anchored then [path]
  else if !rule.hasSlash then Path.segments path
  else if rule.floating then (tails (Path.segments path)).map (Text.join "/")
  else [path]

theorem excludes_eq (rule : IgnoreRule) (path : String) (isDirectory : Bool) :
    rule.excludes path isDirectory =
      (rule.pattern != "" && !(rule.directoryOnly && !isDirectory) &&
        (rule.targets path).any (Glob.fits rule.pattern)) := by
  unfold excludes targets
  by_cases empty : rule.pattern = ""
  · simp [empty]
  · by_cases barred : (rule.directoryOnly && !isDirectory) = true
    · simp [barred]
    · cases rule.anchored <;> cases rule.hasSlash <;> cases rule.floating <;>
        simp [empty, barred, Path.segments, Function.comp_def]

variable {rule : IgnoreRule}

/-- A rule that may float, or that speaks of single names, is held against the same texts below a
folder, and against more. -/
theorem targets_below (free : rule.anchored = false)
    (anywhere : rule.floating = true ∨ rule.hasSlash = false) (folder path : String) :
    ∀ target ∈ rule.targets path, target ∈ rule.targets (folder ++ "/" ++ path) := by
  intro target h
  unfold targets at h ⊢
  rw [free, Path.segments_below]
  rw [free] at h
  cases slash : rule.hasSlash with
  | false =>
    rw [slash] at h
    exact List.mem_append_right _ h
  | true =>
    have floats : rule.floating = true := anywhere.resolve_right (by simp [slash])
    simp only [slash, floats] at h ⊢
    obtain ⟨tail, inside, rfl⟩ := List.mem_map.mp h
    obtain ⟨inside, nonempty⟩ := mem_tails.mp inside
    exact List.mem_map.mpr
      ⟨tail, mem_tails.mpr ⟨List.suffix_append_of_suffix inside, nonempty⟩, rfl⟩

theorem excludes_below (free : rule.anchored = false)
    (anywhere : rule.floating = true ∨ rule.hasSlash = false) {path : String} {isDirectory : Bool}
    (h : rule.excludes path isDirectory = true) (folder : String) :
    rule.excludes (folder ++ "/" ++ path) isDirectory = true := by
  rw [excludes_eq, Bool.and_eq_true, List.any_eq_true] at h ⊢
  obtain ⟨applies, target, held, fits⟩ := h
  exact ⟨applies, target, targets_below free anywhere folder path target held, fits⟩

/-! ## Reading patterns -/

theorem hasSlash_of_ofPattern {text : String} (built : ofPattern text = some rule) :
    rule.hasSlash = rule.pattern.toList.contains '/' := by
  simp only [ofPattern, Option.ite_none_left_eq_some, Option.some.injEq] at built
  obtain ⟨-, -, rfl⟩ := built
  rw [String.toList_ofList]

/-- A double star after the last slash of a pattern adds nothing. -/
theorem ofPattern_doubleStar (text : String) :
    ofPattern (text ++ "/**") = ofPattern (text ++ "/") := by
  have slash : Text.isBlank '/' = false := by decide
  have star : Text.isBlank '*' = false := by decide
  -- Blanks are trimmed from the start of the text alone, since both endings stop them.
  have starred : Text.trim (text ++ "/**").toList =
      Text.trimStart text.toList ++ '/' :: ['*'] ++ ['*'] := by
    have chars : (text ++ "/**").toList = text.toList ++ '/' :: ['*'] ++ ['*'] := by simp
    rw [chars, Text.trim_concat star, Text.trimStart_append slash]
  have plain : Text.trim (text ++ "/").toList = Text.trimStart text.toList ++ ['/'] := by
    have chars : (text ++ "/").toList = text.toList ++ ['/'] := by simp
    rw [chars, Text.trim_concat slash]
  rw [ofPattern, ofPattern, starred, plain]
  simp

/-- A rule that is not anchored, and that may float or speaks of single names, excludes below every
folder what it excludes at the top. A pattern with a double star after its last slash is read as the
same pattern without it. -/
theorem excludes_at_any_depth (text : String) :
    (∀ rule, ofPattern text = some rule → rule.anchored = false →
      (rule.floating = true ∨ '/' ∉ rule.pattern.toList) →
      ∀ (folder path : String) (isDirectory : Bool), rule.excludes path isDirectory = true →
        rule.excludes (folder ++ "/" ++ path) isDirectory = true) ∧
      ofPattern (text ++ "/**") = ofPattern (text ++ "/") := by
  refine ⟨?_, ofPattern_doubleStar text⟩
  intro rule built free anywhere folder path isDirectory h
  refine excludes_below free (anywhere.imp_right fun single => ?_) h folder
  rw [hasSlash_of_ofPattern built]
  simpa using single

theorem excludes_at_any_depth_generated :
    ∃ rule, ofPattern "**/generated/*.py" = some rule ∧
      rule.excludes "generated/models.py" false = true ∧
      rule.excludes "src/web/generated/models.py" false = true ∧
      ofPattern "**/generated/*.py/**" = ofPattern "**/generated/*.py/" := by
  obtain ⟨below, same⟩ := excludes_at_any_depth "**/generated/*.py"
  have built : ofPattern "**/generated/*.py" =
      some ⟨"generated/*.py", false, false, true, true⟩ := by
    decide +kernel
  have top : IgnoreRule.excludes ⟨"generated/*.py", false, false, true, true⟩ "generated/models.py"
      false = true := by
    decide +kernel
  exact ⟨_, built, top, below _ built rfl (Or.inl rfl) "src/web" "generated/models.py" false top,
    same⟩

end IgnoreRule

end Synopsis
