import Synopsis.Command.Reports
import Synopsis.Proofs.Python.Lines
import Synopsis.Proofs.Python.Patterns

/-!
# Kinds and categories of files

The kind of a file and its category are both told from the end of its path, but not in the same way:
one looks at what stands after the last slash and skips all dots at the start, the other looks at
the last name and skips one of them, and the report only asks how the path ends. Where one of them
finds an ending of a program text, the others do not find another one. They differ where a name
starts with a dot, and nothing is said of such a name but that its kind agrees with its category.
-/

namespace Synopsis

namespace Path

/-! ## Endings -/

theorem cut_eq_some_iff {cs tail front : List Char} :
    suffixOf.cut cs = some (tail, front) ↔ cs = tail ++ '.' :: front ∧ '.' ∉ tail := by
  fun_induction suffixOf.cut cs generalizing tail with
  | case1 => simp
  | case2 rest =>
    cases tail with
    | nil => simp
    | cons d tail =>
      refine iff_of_false (by simp) ?_
      rintro ⟨parts, plain⟩
      obtain ⟨rfl, -⟩ := List.cons.inj parts
      exact plain List.mem_cons_self
  | case3 c rest other ih =>
    cases tail with
    | nil =>
      refine iff_of_false (by simp) ?_
      rintro ⟨parts, -⟩
      exact other (List.cons.inj parts).1
    | cons d tail =>
      constructor
      · intro found
        obtain ⟨⟨tail', front'⟩, found, made⟩ := Option.map_eq_some_iff.mp found
        cases made
        obtain ⟨parts, plain⟩ := ih.mp found
        refine ⟨by rw [parts, List.cons_append], fun h => ?_⟩
        rcases List.mem_cons.mp h with dot | h
        · exact other dot.symm
        · exact plain h
      · rintro ⟨parts, plain⟩
        obtain ⟨rfl, later⟩ := List.cons.inj parts
        rw [ih.mpr ⟨later, fun h => plain (List.mem_cons_of_mem c h)⟩]
        rfl

/-- What stands on both sides of the last dot of a name is found from behind. -/
theorem cut_reverse {name stem tail : List Char} (parts : name = stem ++ '.' :: tail)
    (plain : '.' ∉ tail) : suffixOf.cut name.reverse = some (tail.reverse, stem.reverse) := by
  refine cut_eq_some_iff.mpr ⟨?_, by simpa using plain⟩
  simp [parts]

/-- A name with something on both sides of its last dot has the suffix from that dot on. -/
theorem suffixOf_eq {name : String} {stem tail : List Char}
    (parts : name.toList = stem ++ '.' :: tail) (plain : '.' ∉ tail) (before : stem ≠ [])
    (after : tail ≠ []) : suffixOf name = String.ofList ('.' :: tail) := by
  rw [suffixOf, cut_reverse parts plain]
  simp [before, after]

variable {path : String}

/-- A base name has an extension if its last dot is not one of the dots at its start. -/
theorem extension_eq {stem tail : List Char} (parts : (baseName path).toList = stem ++ '.' :: tail)
    (plain : '.' ∉ tail) (named : ∃ c ∈ stem, c ≠ '.') :
    extension path = String.ofList ('.' :: tail) := by
  obtain ⟨c, inside, other⟩ := named
  have some : (stem.reverse.all (· == '.')) = false :=
    List.all_eq_false.mpr ⟨c, List.mem_reverse.mpr inside, by simpa using other⟩
  rw [extension, cut_reverse parts plain]
  simp [some]

theorem exists_of_extension (found : extension path ≠ "") :
    ∃ stem tail, (baseName path).toList = stem ++ '.' :: tail ∧ '.' ∉ tail ∧
      (∃ c ∈ stem, c ≠ '.') := by
  cases cut : suffixOf.cut (baseName path).toList.reverse with
  | none => simp [extension, cut] at found
  | some parts =>
    obtain ⟨tail, front⟩ := parts
    obtain ⟨whole, plain⟩ := cut_eq_some_iff.mp cut
    have both : (baseName path).toList = front.reverse ++ '.' :: tail.reverse := by
      rw [← List.reverse_reverse (baseName path).toList, whole]
      simp
    cases dots : front.all (· == '.') with
    | true => simp [extension, cut, dots] at found
    | false =>
      obtain ⟨c, inside, other⟩ := List.all_eq_false.mp dots
      refine ⟨_, _, both, by simpa using plain, c, List.mem_reverse.mpr inside, ?_⟩
      simpa using other

theorem exists_segments (path : String) : ∃ front, segments path = front ++ [baseName path] := by
  rcases List.eq_nil_or_concat (segments path) with none | ⟨front, last, parts⟩
  · exact absurd (List.map_eq_nil_iff.mp none) (Text.splitOn_ne_nil '/' path.toList)
  · refine ⟨front, ?_⟩
    rw [baseName, parts, List.concat_eq_append, List.getLast?_concat, Option.getD_some]

/-- The last name of a path is its base name, if that names something. -/
theorem fileName_eq (nonempty : baseName path ≠ "") (other : baseName path ≠ ".") :
    fileName path = baseName path := by
  obtain ⟨front, last⟩ := exists_segments path
  rw [fileName, parts, last, List.filter_append]
  simp [nonempty, other]

/-- What has an extension other than a dot alone has it as its suffix. -/
theorem suffix_eq_extension (found : extension path ≠ "") (more : extension path ≠ ".") :
    suffix path = extension path := by
  obtain ⟨stem, tail, parts, plain, named⟩ := exists_of_extension found
  have told := extension_eq parts plain named
  obtain ⟨c, inside, other⟩ := named
  have before : stem ≠ [] := List.ne_nil_of_mem inside
  have after : tail ≠ [] := by
    rintro rfl
    exact more told
  have nonempty : baseName path ≠ "" := by
    intro empty
    simp [empty] at parts
  have named : baseName path ≠ "." := by
    intro dot
    rw [dot] at parts
    have length := congrArg List.length parts
    simp at length
    exact before (List.eq_nil_of_length_eq_zero (by omega))
  rw [suffix, fileName_eq nonempty named, suffixOf_eq parts plain before after, told]

/-- A text without a slash at the end of a path is at the end of its base name. -/
theorem baseName_append (front : String) {text : String} (plain : '/' ∉ text.toList) :
    baseName (front ++ text) = baseName front ++ text := by
  obtain ⟨pieces, last, cuts⟩ := Text.exists_splitOn_append '/' front.toList
  have bare := cuts [] List.not_mem_nil
  rw [List.append_nil, List.append_nil] at bare
  have whole := cuts text.toList plain
  simp [baseName, segments, bare, whole]

end Path

/-! ## Categories -/

namespace Category

variable {working : String} {root : Option String} {path : String}

theorem ofPath_of_code (code : Path.suffix path ∈ codeSuffixes) :
    ofPath working root path = if isTest working root path then .tests else .code := by
  rw [ofPath, if_pos (List.contains_iff_mem.mpr code)]

theorem ofPath_of_config (config : Path.suffix path ∈ configSuffixes) :
    ofPath working root path = if isTest working root path then .tests else .config := by
  have apart : ∀ suffix ∈ configSuffixes, suffix ∉ codeSuffixes := by decide
  have other : codeSuffixes.contains (Path.suffix path) = false := by
    simpa using apart _ config
  have listed : configSuffixes.contains (Path.suffix path) = true :=
    List.contains_iff_mem.mpr config
  rw [ofPath, other, listed, Bool.or_true]
  rfl

/-- A file with the extension of a program text is one, or a test. -/
theorem ofPath_of_codeExtension (code : Path.extension path ∈ codeSuffixes) :
    ofPath working root path = if isTest working root path then .tests else .code := by
  have named : ∀ suffix ∈ codeSuffixes, suffix ≠ "" ∧ suffix ≠ "." := by decide
  obtain ⟨nonempty, more⟩ := named _ code
  exact ofPath_of_code (Path.suffix_eq_extension nonempty more ▸ code)

theorem ofPath_of_configExtension (config : Path.extension path ∈ configSuffixes) :
    ofPath working root path = if isTest working root path then .tests else .config := by
  have named : ∀ suffix ∈ configSuffixes, suffix ≠ "" ∧ suffix ≠ "." := by decide
  obtain ⟨nonempty, more⟩ := named _ config
  exact ofPath_of_config (Path.suffix_eq_extension nonempty more ▸ config)

end Category

/-! ## Kinds -/

namespace SourceKind

variable {extension : String}

/-- Which extensions stand for which kind. -/
theorem ofExtension_cases (extension : String) :
    ofExtension extension = .ecmascript ∧ extension ∈ ecmaExtensions ∨
      ofExtension extension = .python ∧ extension = ".py" ∨
      ofExtension extension = .json ∧ extension = ".json" ∨
      ofExtension extension = .unsupported := by
  unfold ofExtension
  split
  · rename_i listed
    exact Or.inl ⟨rfl, List.contains_iff_mem.mp listed⟩
  split
  · rename_i same
    exact Or.inr (Or.inl ⟨rfl, beq_iff_eq.mp same⟩)
  split
  · rename_i same
    exact Or.inr (Or.inr (Or.inl ⟨rfl, beq_iff_eq.mp same⟩))
  · exact Or.inr (Or.inr (Or.inr rfl))

/-- Every extension of a kind of programs is that of a program text. -/
theorem mem_codeSuffixes (kind : ofExtension extension = .ecmascript ∨
    ofExtension extension = .python) : extension ∈ Category.codeSuffixes := by
  have typed : ∀ extension ∈ ecmaExtensions, extension ∈ Category.codeSuffixes := by decide
  rcases ofExtension_cases extension with ⟨-, listed⟩ | ⟨-, rfl⟩ | ⟨other, -⟩ | other
  · exact typed extension listed
  · decide
  · rw [other] at kind
    exact absurd kind (by decide)
  · rw [other] at kind
    exact absurd kind (by decide)

theorem mem_configSuffixes (kind : ofExtension extension = .json) :
    extension ∈ Category.configSuffixes := by
  rcases ofExtension_cases extension with ⟨other, -⟩ | ⟨other, -⟩ | ⟨-, rfl⟩ | other
  · cases other.symm.trans kind
  · cases other.symm.trans kind
  · decide
  · cases other.symm.trans kind

end SourceKind

/-! ## The report -/

namespace Command

variable {path extension : String}

/-- The report documents the files whose paths end in one of its extensions. -/
theorem isDocumented_iff :
    isDocumented path = true ↔
      ∃ extension ∈ exportExtensions, extension.toList <:+ path.toList := by
  simp only [isDocumented, List.any_eq_true, Option.isSome_iff_exists, Text.dropPrefix?_eq_some_iff]
  refine exists_congr fun extension => and_congr_right fun _ => ?_
  rw [← List.reverse_prefix]
  exact exists_congr fun rest => eq_comm

/-- An ending with which the report documents a file is its extension, unless the base name starts
with a dot. -/
theorem extension_of_exported (exported : extension ∈ exportExtensions)
    (ends : extension.toList <:+ path.toList)
    (visible : (Path.baseName path).toList.head? ≠ some '.') :
    Path.extension path = extension := by
  have made : ∀ extension ∈ exportExtensions, '/' ∉ extension.toList ∧
      extension.toList = '.' :: extension.toList.tail ∧ '.' ∉ extension.toList.tail := by decide
  obtain ⟨slashless, dotted, plain⟩ := made extension exported
  obtain ⟨front, whole⟩ := ends
  have parts : path = String.ofList front ++ extension := by
    rw [← String.toList_inj, ← whole, String.toList_append, String.toList_ofList]
  have last := congrArg String.toList (Path.baseName_append (String.ofList front) slashless)
  rw [← parts, String.toList_append, dotted] at last
  -- The base name starts with what stands before the ending, so this starts with no dot.
  cases stem : (Path.baseName (String.ofList front)).toList with
  | nil =>
    rw [last, stem] at visible
    exact absurd rfl visible
  | cons c rest =>
    rw [stem] at last
    have other : c ≠ '.' := by
      rintro rfl
      rw [last] at visible
      exact visible rfl
    rw [Path.extension_eq last plain ⟨c, List.mem_cons_self, other⟩, ← dotted, String.ofList_toList]

end Command

namespace Category

/-- What is told from the path of a file in three ways: its kind, its category, and
whether the report documents it. -/
structure AgreesWithKind (working : String) (root : Option String) (path : String) : Prop where
  program : SourceKind.ofPath path = .ecmascript ∨ SourceKind.ofPath path = .python →
    ofPath working root path = .code ∨ ofPath working root path = .tests
  data : SourceKind.ofPath path = .json →
    ofPath working root path = .config ∨ ofPath working root path = .tests
  documented : Command.isDocumented path = true ↔
    ∃ extension ∈ Command.exportExtensions, extension.toList <:+ path.toList
  exported : (Path.baseName path).toList.head? ≠ some '.' →
    ∀ extension ∈ Command.exportExtensions, extension.toList <:+ path.toList →
      Path.extension path = extension ∧
        (ofPath working root path = .code ∨ ofPath working root path = .tests)

/-- Program texts are code or tests and data are configuration or tests, by whichever of the three
ways they are recognized, and with whatever root and working directory. -/
theorem agrees_with_kind (working : String) (root : Option String) (path : String) :
    AgreesWithKind working root path := by
  have either {category : Category} (told : ofPath working root path =
      if isTest working root path then .tests else category) :
      ofPath working root path = category ∨ ofPath working root path = .tests := by
    rw [told]
    split
    · exact Or.inr rfl
    · exact Or.inl rfl
  constructor
  case program =>
    exact fun kind => either (ofPath_of_codeExtension (SourceKind.mem_codeSuffixes kind))
  case data =>
    exact fun kind => either (ofPath_of_configExtension (SourceKind.mem_configSuffixes kind))
  case documented => exact Command.isDocumented_iff
  case exported =>
    intro visible extension exported ends
    have code : ∀ extension ∈ Command.exportExtensions, extension ∈ codeSuffixes := by decide
    have same := Command.extension_of_exported exported ends visible
    exact ⟨same, either (ofPath_of_codeExtension (same ▸ code extension exported))⟩

example : ofPath "/" none "a/.b.c.ts" = .code ∧ ofPath "/" none ".js" = .other := by decide +kernel

end Category

end Synopsis
