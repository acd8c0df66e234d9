import Synopsis.Proofs.Table
import Synopsis.Proofs.Text.Lines
import Synopsis.Requirement

/-!
# Requirements are read back

A requirement that is written on a line, with blanks between its parts, extras, a marker and a
comment or without them, is read as its package and its versions. Whatever else a list holds,
nothing is read from it but packages with what can be written as their versions. And a list below
another one is read like an update: the packages of both, with the versions that the second asks
for.
-/

namespace Synopsis

namespace Requirement

open Synopsis.Text

variable {cs name rest : List Char}

/-! ## The parts of a requirement -/

/-- The name of a package. -/
structure IsPackage (cs : List Char) : Prop where
  start : ∃ c later, cs = c :: later ∧ isNameStart c = true
  inside : ∀ c ∈ cs, isNameChar c = true

/-- Versions as they may be written on a line, where neither a marker
nor a comment begins in them. -/
structure IsSpecifier (cs : List Char) : Prop where
  start : ∃ c later, cs = c :: later ∧ isSpecifierStart c = true
  trimmed : Trimmed cs
  no_marker : ';' ∉ cs
  no_comment : ¬ [' ', '#'] <:+: cs
  single : SingleLine cs

/-- Extras as they may be written in brackets. -/
structure IsExtras (cs : List Char) : Prop where
  inside : ']' ∉ cs
  no_marker : ';' ∉ cs
  no_comment : ¬ [' ', '#'] <:+: cs
  single : SingleLine cs

/-- Blanks that end no line. -/
def IsGap (cs : List Char) : Prop := ∀ c ∈ cs, isBlank c = true ∧ isLineEnd c = false

instance (cs : List Char) : Decidable (IsGap cs) := List.decidableBAll _ cs

/-- A requirement as it is written on a line, which may be blank at both
ends and between its parts. -/
structure Line where
  indent : String
  name : String
  afterName : String
  extras : Option String
  afterExtras : String
  specifier : String
  afterSpecifier : String
  marker : Option String
  comment : Option String
  named : IsPackage name.toList
  bracketed : ∀ group ∈ extras, IsExtras group.toList
  specified : specifier = "" ∨ IsSpecifier specifier.toList
  marked : ∀ text ∈ marker, SingleLine text.toList
  commented : ∀ text ∈ comment, SingleLine text.toList
  gaps : ∀ gap ∈ [indent, afterName, afterExtras, afterSpecifier], IsGap gap.toList

namespace Line

/-- The extras in their brackets. -/
def group (line : Line) : String := line.extras.elim "" fun extras => "[" ++ extras ++ "]"

/-- The line as it is written. -/
def text (line : Line) : String :=
  line.indent ++ line.name ++ line.afterName ++ line.group ++ line.afterExtras ++
    line.specifier ++ line.afterSpecifier ++
    line.marker.elim "" (";" ++ ·) ++ line.comment.elim "" (" #" ++ ·)

/-- The versions that the line asks for. -/
def version (line : Line) : String := if line.specifier = "" then anyVersion else line.specifier

end Line

/-! ## Names -/

theorem isNameChar_of_isNameStart {c : Char} (start : isNameStart c = true) :
    isNameChar c = true := by
  simp only [isNameStart] at start
  simp [isNameChar, start]

/-- A name goes on as far as it can. -/
theorem splitName?_eq_some_iff : splitName? cs = some (name, rest) ↔
    IsPackage name ∧ cs = name ++ rest ∧ ∀ c ∈ rest.head?, isNameChar c = false := by
  constructor
  · intro read
    cases cs with
    | nil => cases read
    | cons c cs =>
      rw [splitName?] at read
      split at read
      · rename_i start
        obtain ⟨rfl, rfl⟩ := Prod.mk.inj (Option.some.inj read)
        obtain ⟨whole, inside, stops⟩ := Python.takeRun_eq_iff.mp
          (rfl : Python.takeRun isNameChar cs = (cs.takeWhile isNameChar, cs.dropWhile isNameChar))
        exact ⟨⟨⟨c, _, rfl, start⟩,
          List.forall_mem_cons.mpr ⟨isNameChar_of_isNameStart start, inside⟩⟩,
          congrArg (c :: ·) whole, stops⟩
      · cases read
  · rintro ⟨⟨⟨c, later, rfl, start⟩, inside⟩, rfl, stops⟩
    have run := Python.takeRun_eq_iff.mpr ⟨rfl, (List.forall_mem_cons.mp inside).2, stops⟩
    obtain ⟨taken, left⟩ := Prod.mk.inj run
    rw [List.cons_append, splitName?, if_pos start, taken, left]

/-- A name that stands before the text has ended there. -/
def EndsName (cs : List Char) : Prop := ∀ c ∈ cs.head?, isNameChar c = false

theorem EndsName.nil : EndsName [] := fun _ h => nomatch h

theorem EndsName.cons {c : Char} (ends : isNameChar c = false) (cs : List Char) :
    EndsName (c :: cs) :=
  Python.stops_at ends

theorem EndsName.append (first : EndsName cs) (second : EndsName rest) : EndsName (cs ++ rest) := by
  cases cs with
  | nil => exact second
  | cons c cs => exact first

theorem EndsName.front (ends : EndsName cs) (front : rest <+: cs) : EndsName rest := by
  cases rest with
  | nil => exact EndsName.nil
  | cons c rest =>
    obtain ⟨later, rfl⟩ := front
    exact ends

theorem isNameChar_of_isBlank {c : Char} (blank : isBlank c = true) : isNameChar c = false := by
  have codes : ∀ code ∈ blankCodes, isNameChar (Char.ofNat code) = false := by decide +kernel
  have nameless := codes c.toNat (isBlank_iff.mp blank)
  rwa [Char.ofNat_toNat] at nameless

theorem IsPackage.visible (named : IsPackage cs) : ∀ c ∈ cs, isBlank c = false := by
  intro c h
  cases blank : isBlank c with
  | false => rfl
  | true => exact absurd (named.inside c h) (by simp [isNameChar_of_isBlank blank])

theorem IsPackage.ne_nil (named : IsPackage cs) : cs ≠ [] := by
  obtain ⟨c, later, rfl, -⟩ := named.start
  exact List.cons_ne_nil c later

theorem IsPackage.single (named : IsPackage cs) : SingleLine cs := by
  intro c h
  cases ends : isLineEnd c with
  | false => rfl
  | true => exact absurd (named.visible c h) (by simp [isBlank_of_isLineEnd ends])

theorem IsGap.single {gap : List Char} (isGap : IsGap gap) : SingleLine gap :=
  fun c h => (isGap c h).2

theorem IsGap.blank {gap : List Char} (isGap : IsGap gap) : ∀ c ∈ gap, isBlank c = true :=
  fun c h => (isGap c h).1

theorem IsGap.endsName {gap : List Char} (isGap : IsGap gap) : EndsName gap :=
  fun c h => isNameChar_of_isBlank (isGap.blank c (List.mem_of_mem_head? h))

theorem specifierStart_cases {c : Char} (start : isSpecifierStart c = true) :
    c = '<' ∨ c = '>' ∨ c = '=' ∨ c = '!' ∨ c = '~' := by
  simpa [isSpecifierStart, or_assoc] using start

theorem IsSpecifier.endsName (specifier : IsSpecifier cs) : EndsName cs := by
  obtain ⟨c, later, rfl, start⟩ := specifier.start
  refine EndsName.cons ?_ later
  rcases specifierStart_cases start with rfl | rfl | rfl | rfl | rfl <;> rfl

/-! ## What a line says -/

/-- Neither a marker nor a comment begins in the text, whatever stands before it. -/
structure Plain (cs : List Char) : Prop where
  no_marker : ';' ∉ cs
  no_comment : ¬ [' ', '#'] <:+: cs
  start : cs.head? ≠ some '#'

namespace Plain

theorem of_forall (plain : ∀ c ∈ cs, c ≠ ';' ∧ c ≠ '#') : Plain cs where
  no_marker h := (plain _ h).1 rfl
  no_comment h := (plain '#' (h.subset (by simp))).2 rfl
  start h := (plain '#' (List.mem_of_mem_head? h)).2 rfl

theorem append (first : Plain cs) (second : Plain rest) : Plain (cs ++ rest) where
  no_marker h := (List.mem_append.mp h).elim first.no_marker second.no_marker
  no_comment h := by
    rcases pair_infix_append h with h | h | h
    · exact first.no_comment h
    · exact second.no_comment h
    · exact second.start h
  start h := by
    cases cs with
    | nil => exact second.start h
    | cons c cs => exact first.start h

end Plain

theorem IsGap.plain {gap : List Char} (isGap : IsGap gap) : Plain gap :=
  Plain.of_forall fun c h => by
    constructor
    all_goals
      rintro rfl
      exact absurd (isGap.blank _ h) (by decide)

theorem IsPackage.plain (named : IsPackage cs) : Plain cs :=
  Plain.of_forall fun c h => by
    constructor
    all_goals
      rintro rfl
      exact absurd (named.inside _ h) (by decide)

theorem IsSpecifier.plain (specifier : IsSpecifier cs) : Plain cs where
  no_marker := specifier.no_marker
  no_comment := specifier.no_comment
  start h := by
    obtain ⟨c, later, rfl, start⟩ := specifier.start
    cases h
    cases start

theorem IsExtras.plain (extras : IsExtras cs) : Plain ('[' :: (cs ++ [']'])) := by
  have opened : Plain ('[' :: cs) := by
    refine ⟨?_, ?_, by simp⟩
    · exact fun h => (List.mem_cons.mp h).elim (by decide) extras.no_marker
    · intro h
      rcases List.infix_cons_iff.mp h with here | later
      · exact absurd (List.cons_prefix_cons.mp here).1 (by decide)
      · exact extras.no_comment later
  exact opened.append (Plain.of_forall (List.forall_mem_singleton.mpr (by decide)))

theorem IsExtras.single_group (extras : IsExtras cs) : SingleLine ('[' :: (cs ++ [']'])) :=
  List.forall_mem_cons.mpr ⟨rfl, extras.single.append (by decide)⟩

/-- What is read of a line is what stands before its marker and its comment. -/
theorem significant_append (plain : Plain cs) (apart : rest.head? ≠ some '#')
    (gone : before [';'] (before [' ', '#'] rest) = []) : significant (cs ++ rest) = trim cs := by
  rw [significant, before_append_of_not_infix plain.no_comment apart,
    before_append_of_notMem plain.no_marker, gone, List.append_nil]

/-! ## What follows a name -/

theorem dropExtras_group {extras : List Char} (inside : ']' ∉ extras) (rest : List Char) :
    dropExtras ('[' :: (extras ++ ']' :: rest)) = rest := by
  have closed : (extras ++ ']' :: rest).dropWhile (· != ']') = ']' :: rest := by
    refine (List.dropWhile_append_of_pos fun c h => bne_iff_ne.mpr ?_).trans rfl
    rintro rfl
    exact inside h
  rw [dropExtras, closed]

theorem suffix_dropExtras (cs : List Char) : dropExtras cs <:+ cs := by
  rw [dropExtras.eq_def]
  split
  · rename_i inside
    have left := List.dropWhile_suffix (l := inside) (· != ']')
    split
    · exact List.suffix_rfl
    · rename_i closed
      rw [closed] at left
      exact ((List.suffix_cons _ _).trans left).trans (List.suffix_cons _ _)
  · exact List.suffix_rfl

theorem suffix_afterName (cs : List Char) : afterName cs <:+ cs :=
  ((suffix_trimStart _).trans (suffix_dropExtras _)).trans (suffix_trimStart cs)

/-- Versions are not taken for extras. -/
theorem dropExtras_specifier (specified : cs = [] ∨ IsSpecifier cs) : dropExtras cs = cs := by
  rcases specified with rfl | specifier
  · rfl
  · obtain ⟨c, later, rfl, start⟩ := specifier.start
    rcases specifierStart_cases start with rfl | rfl | rfl | rfl | rfl <;> rfl

theorem trimmed_specifier (specified : cs = [] ∨ IsSpecifier cs) : Trimmed cs :=
  specified.elim (fun empty => empty ▸ Trimmed.of_forall (List.forall_mem_nil _)) (·.trimmed)

variable {gap later last specifier extras : List Char}

theorem trim_specifier (specified : specifier = [] ∨ IsSpecifier specifier) (first : IsGap gap)
    (last : IsGap later) : trim (gap ++ (specifier ++ later)) = specifier := by
  rw [trim_gap_append first.blank, trim_append_gap last.blank,
    (trimmed_specifier specified).trim_eq]

/-- Without extras, the versions follow the blanks after a name. -/
theorem afterName_plain (specified : specifier = [] ∨ IsSpecifier specifier) (first : IsGap gap)
    (last : IsGap later) : afterName (trimEnd (gap ++ (specifier ++ later))) = specifier := by
  rw [afterName, trimStart_trimEnd, trim_specifier specified first last,
    dropExtras_specifier specified, (trimmed_specifier specified).trimStart_eq]

/-- Extras in brackets are passed over, and the blanks on both sides of them. -/
theorem afterName_group (specified : specifier = [] ∨ IsSpecifier specifier)
    (inside : ']' ∉ extras) (first : IsGap gap) (second : IsGap later) (third : IsGap last) :
    afterName (trimEnd (gap ++ ('[' :: (extras ++ ']' :: (later ++ (specifier ++ last)))))) =
      specifier := by
  -- Neither bracket is blank, so that only what follows them is trimmed.
  have opened :
      ∀ cs, trim ('[' :: (extras ++ ']' :: cs)) = '[' :: (extras ++ ']' :: trimEnd cs) := by
    intro cs
    rw [trim, trimStart_cons (by decide)]
    exact trimEnd_append (by decide) ('[' :: extras) cs
  rw [afterName, trimStart_trimEnd, trim_gap_append first.blank, opened, dropExtras_group inside,
    trimStart_trimEnd, trim_specifier specified second third]

theorem specifierText_eq (specifier : IsSpecifier cs) : specifierText cs = String.ofList cs := by
  rw [specifierText, specifier.trimmed.trim_eq]
  obtain ⟨c, later, rfl, -⟩ := specifier.start
  rfl

/-- A name with what follows it is read as a package and its versions. -/
theorem ofLine?_of_parts {line : List Char} (named : IsPackage name) (ends : EndsName rest)
    (read : significant line = name ++ rest)
    (specified : afterName rest = [] ∨ IsSpecifier (afterName rest)) :
    ofLine? line = some (String.ofList name,
      if afterName rest = [] then anyVersion else String.ofList (afterName rest)) := by
  have split : splitName? (significant line) = some (name, rest) :=
    splitName?_eq_some_iff.mpr ⟨named, read, ends⟩
  rw [ofLine?, split]
  rcases specified with empty | specifier
  · simp only [Option.bind_eq_bind, Option.bind_some, empty, if_true]
  · have text := specifierText_eq specifier
    obtain ⟨c, later, versions, start⟩ := specifier.start
    simp only [Option.bind_eq_bind, Option.bind_some, text]
    rw [versions]
    exact if_pos start

/-! ## Lines that are written -/

namespace Line

variable (line : Line)

/-- What stands on the line between the name and a marker. -/
def body : List Char :=
  line.afterName.toList ++ (line.group.toList ++ (line.afterExtras.toList ++
    (line.specifier.toList ++ line.afterSpecifier.toList)))

/-- The marker and the comment. -/
def tail : List Char :=
  (line.marker.elim "" (";" ++ ·)).toList ++ (line.comment.elim "" (" #" ++ ·)).toList

theorem toList_text :
    line.text.toList = line.indent.toList ++ (line.name.toList ++ line.body) ++ line.tail := by
  simp only [text, body, tail, String.toList_append, List.append_assoc]

theorem specified_toList :
    line.specifier.toList = [] ∨ IsSpecifier line.specifier.toList :=
  line.specified.imp_left fun empty => by rw [empty]; rfl

theorem each_gap : IsGap line.indent.toList ∧ IsGap line.afterName.toList ∧
    IsGap line.afterExtras.toList ∧ IsGap line.afterSpecifier.toList := by
  have gaps := line.gaps
  simp only [List.forall_mem_cons] at gaps
  exact ⟨gaps.1, gaps.2.1, gaps.2.2.1, gaps.2.2.2.1⟩

theorem group_cases : line.group.toList = [] ∨
    ∃ extras, IsExtras extras ∧ line.group.toList = '[' :: (extras ++ [']']) := by
  rw [group]
  cases given : line.extras with
  | none => exact Or.inl rfl
  | some extras =>
    refine Or.inr ⟨extras.toList, line.bracketed extras given, ?_⟩
    simp [String.toList_append]

/-- What holds of nothing, of extras in brackets and of versions holds of what stands for extras and
for versions on the line. -/
theorem optional_parts {motive : List Char → Prop} (none : motive [])
    (group : ∀ extras, IsExtras extras → motive ('[' :: (extras ++ [']'])))
    (specifier : ∀ cs, IsSpecifier cs → motive cs) :
    motive line.group.toList ∧ motive line.specifier.toList := by
  constructor
  · rcases line.group_cases with empty | ⟨extras, bracketed, same⟩
    · exact empty ▸ none
    · exact same ▸ group extras bracketed
  · exact line.specified_toList.elim (fun empty => empty ▸ none) (specifier _)

theorem plain_core : Plain (line.indent.toList ++ (line.name.toList ++ line.body)) := by
  obtain ⟨indent, afterName, afterExtras, afterSpecifier⟩ := line.each_gap
  obtain ⟨group, specifier⟩ := line.optional_parts (Plain.of_forall (List.forall_mem_nil _))
    (fun _ => IsExtras.plain) (fun _ => IsSpecifier.plain)
  exact indent.plain.append (line.named.plain.append (afterName.plain.append
    (group.append (afterExtras.plain.append (specifier.append afterSpecifier.plain)))))

theorem endsName_body : EndsName line.body := by
  obtain ⟨-, afterName, afterExtras, afterSpecifier⟩ := line.each_gap
  obtain ⟨group, specifier⟩ := line.optional_parts EndsName.nil
    (fun _ _ => EndsName.cons rfl _) (fun _ => IsSpecifier.endsName)
  exact afterName.endsName.append (group.append (afterExtras.endsName.append
    (specifier.append afterSpecifier.endsName)))

theorem afterName_body : Requirement.afterName (trimEnd line.body) = line.specifier.toList := by
  obtain ⟨-, afterName, afterExtras, afterSpecifier⟩ := line.each_gap
  rw [body]
  rcases line.group_cases with none | ⟨extras, bracketed, same⟩
  · have gap : IsGap (line.afterName.toList ++ line.afterExtras.toList) :=
      List.forall_mem_append.mpr ⟨afterName, afterExtras⟩
    rw [none, List.nil_append, ← List.append_assoc]
    exact afterName_plain line.specified_toList gap afterSpecifier
  · rw [same, List.cons_append, List.append_assoc, List.singleton_append]
    exact afterName_group line.specified_toList bracketed.inside afterName afterExtras
      afterSpecifier

/-- Neither the marker nor the comment is read, nor what looks like either of them in the other. -/
theorem significant_text :
    significant line.text.toList =
      trim (line.indent.toList ++ (line.name.toList ++ line.body)) := by
  rw [toList_text]
  have comment : ∀ text : Option String,
      before [' ', '#'] (text.elim "" (" #" ++ ·)).toList = [] := by
    rintro (_ | text)
    · rfl
    · rw [Option.elim_some, String.toList_append]
      exact before_self (List.cons_ne_nil _ _) _
  refine significant_append line.plain_core ?_ ?_
  · rw [tail]
    cases line.marker <;> cases line.comment <;> simp [String.toList_append]
  · rw [tail]
    cases line.marker with
    | none => rw [Option.elim_none, String.toList_empty, List.nil_append, comment]; rfl
    | some marker =>
      -- What starts with the sign of a comment is no comment here, as no space is before it.
      have opened (rest : List Char) :
          before [' ', '#'] (";".toList ++ rest) = [';'] ++ before [' ', '#'] rest :=
        (before_cons _ ';' rest).trans
          (if_neg fun h => absurd (List.cons_prefix_cons.mp h).1 (by decide))
      rw [Option.elim_some, String.toList_append, List.append_assoc, opened]
      exact before_self (List.cons_ne_nil _ _) _

theorem single_text : SingleLine line.text.toList := by
  obtain ⟨indent, afterName, afterExtras, afterSpecifier⟩ := line.each_gap
  obtain ⟨group, specifier⟩ := line.optional_parts (List.forall_mem_nil _ : SingleLine [])
    (fun _ => IsExtras.single_group) (fun _ => IsSpecifier.single)
  have part (mark : String) (marked : SingleLine mark.toList) (said : Option String)
      (inner : ∀ text ∈ said, SingleLine text.toList) :
      SingleLine (said.elim "" (mark ++ ·)).toList := by
    cases said with
    | none => exact List.forall_mem_nil _
    | some text =>
      rw [Option.elim_some, String.toList_append]
      exact marked.append (inner text rfl)
  have body : SingleLine line.body :=
    afterName.single.append (group.append (afterExtras.single.append
      (specifier.append afterSpecifier.single)))
  have tail : SingleLine line.tail :=
    (part ";" (by decide) _ line.marked).append (part " #" (by decide) _ line.commented)
  rw [toList_text]
  exact (indent.single.append (line.named.single.append body)).append tail

/-- The line is read as its name and what follows it, without the blanks at its end. -/
theorem significant_eq : significant line.text.toList = line.name.toList ++ trimEnd line.body := by
  obtain ⟨indent, -⟩ := line.each_gap
  rw [significant_text, trim_gap_append indent.blank]
  exact trim_append_of_visible line.named.visible line.named.ne_nil _

end Line

/-- A list of one line has the requirement that is written there, and no other. -/
theorem requirements_text (line : Line) : requirements line.text = [(line.name, line.version)] := by
  have nonempty : line.text.toList ≠ [] := by
    rw [line.toList_text]
    simp [line.named.ne_nil]
  have read : ofLine? line.text.toList = some (line.name, line.version) := by
    have ends : EndsName (trimEnd line.body) := line.endsName_body.front (prefix_trimEnd _)
    rw [ofLine?_of_parts line.named ends line.significant_eq
      (line.afterName_body ▸ line.specified_toList), line.afterName_body]
    simp [Line.version]
  rw [requirements, line.single_text.splitLines_eq nonempty]
  simp only [List.filterMap_cons, read]
  rfl

/-! ## What can be read -/

theorem infix_significant (line : List Char) : significant line <:+: line :=
  (infix_trim _).trans ((prefix_before _ _).isInfix.trans (prefix_before _ _).isInfix)

/-- Neither a marker nor a comment is left in what is read of a line. -/
theorem no_marker_significant (line : List Char) : ';' ∉ significant line := by
  intro h
  have kept := (List.singleton_infix_iff _ _).mpr ((infix_trim _).subset h)
  exact not_infix_before (List.cons_ne_nil ';' []) _ kept

theorem no_comment_significant (line : List Char) : ¬ [' ', '#'] <:+: significant line := fun h =>
  not_infix_before (List.cons_ne_nil ' ' ['#']) line
    (h.trans ((infix_trim _).trans (prefix_before _ _).isInfix))

/-- A part of what is read of a line is written as versions are, if it starts like them. -/
theorem isSpecifier_trim {c : Char} {line : List Char} (single : SingleLine line)
    (start : isSpecifierStart c = true) (part : c :: rest <:+: significant line) :
    IsSpecifier (trim (c :: rest)) where
  start := by
    have visible : isBlank c = false := by
      rcases specifierStart_cases start with rfl | rfl | rfl | rfl | rfl <;> rfl
    exact ⟨c, trimEnd rest, by rw [trim, trimStart_cons visible, trimEnd_cons visible], start⟩
  trimmed := trimmed_trim _
  no_marker h := no_marker_significant line (part.subset ((infix_trim _).subset h))
  no_comment h := no_comment_significant line (h.trans ((infix_trim _).trans part))
  single d h := single d ((infix_significant line).subset (part.subset ((infix_trim _).subset h)))

/-- Nothing is read of a line but a package with what can be written as its versions. -/
theorem ofLine?_sound {line : List Char} {name version : String}
    (single : SingleLine line) (read : ofLine? line = some (name, version)) :
    IsPackage name.toList ∧ (version = anyVersion ∨ IsSpecifier version.toList) := by
  rw [ofLine?] at read
  obtain ⟨⟨first, rest⟩, split, read⟩ := Option.bind_eq_some_iff.mp read
  obtain ⟨named, parts, -⟩ := splitName?_eq_some_iff.mp split
  have inside : afterName rest <:+: significant line :=
    (suffix_afterName rest).isInfix.trans (parts ▸ (List.suffix_append first rest).isInfix)
  cases versions : afterName rest with
  | nil =>
    simp only [versions] at read
    cases read
    exact ⟨by simpa using named, Or.inl rfl⟩
  | cons c later =>
    rw [versions] at inside
    simp only [versions] at read
    split at read
    · rename_i start
      have specifier := isSpecifier_trim single start inside
      obtain ⟨rfl, rfl⟩ := Prod.mk.inj (Option.some.inj read)
      refine ⟨by rwa [String.toList_ofList], ?_⟩
      rw [specifierText]
      split
      · exact Or.inl rfl
      · exact Or.inr (by rwa [String.toList_ofList])
    · cases read

theorem requirements_sound {content name version : String}
    (read : (name, version) ∈ requirements content) :
    IsPackage name.toList ∧ (version = anyVersion ∨ IsSpecifier version.toList) := by
  obtain ⟨line, inside, read⟩ := List.mem_filterMap.mp (Table.mem_of_mem_ofPairs read)
  exact ofLine?_sound (singleLine_of_mem_splitLines inside) read

/-- Every requirement that can be written on a line is read from it as its package and its versions,
and whatever a list holds, nothing else is read from it. -/
theorem reads_what_is_written :
    (∀ line : Line, requirements line.text = [(line.name, line.version)]) ∧
      ∀ content name version, (name, version) ∈ requirements content →
        IsPackage name.toList ∧ (version = anyVersion ∨ IsSpecifier version.toList) :=
  ⟨requirements_text, fun _ _ _ => requirements_sound⟩

/-- A line with all its parts. Its comment holds a marker and what could be a requirement. -/
def wholeLine : Line where
  indent := "  "
  name := "flask"
  afterName := " "
  extras := some "async, dotenv"
  afterExtras := ""
  specifier := ">=2.0, <3"
  afterSpecifier := "  "
  marker := some " python_version > '3.8'"
  comment := some " web; flask[tests]==1.0"
  named := ⟨⟨'f', _, rfl, rfl⟩, List.all_eq_true.mp (by decide)⟩
  bracketed := by
    rintro _ ⟨⟩
    exact ⟨by decide, by decide, by decide, by decide⟩
  specified := Or.inr ⟨⟨'>', _, rfl, rfl⟩, by decide, by decide, by decide, by decide⟩
  marked := by decide
  commented := by decide
  gaps := by decide

theorem reads_what_is_written_wholeLine :
    requirements wholeLine.text = [("flask", ">=2.0, <3")] ∧
      IsPackage "flask".toList ∧
        (">=2.0, <3" = anyVersion ∨ IsSpecifier ">=2.0, <3".toList) := by
  have read : requirements wholeLine.text = [("flask", ">=2.0, <3")] :=
    reads_what_is_written.1 wholeLine
  exact ⟨read, reads_what_is_written.2 _ _ _ (read ▸ List.mem_singleton_self _)⟩

/-! ## Lists below lists -/

theorem requirements_append (first second : String) :
    requirements (first ++ "\n" ++ second) = (requirements first).merge (requirements second) := by
  obtain ⟨between, empty, lines⟩ := splitLines_between first.toList second.toList
  have nothing : between.filterMap ofLine? = [] :=
    List.filterMap_eq_nil_iff.mpr fun line h => by rw [empty line h]; rfl
  have whole : (first ++ "\n" ++ second).toList = first.toList ++ '\n' :: second.toList := by
    simp [String.toList_append]
  rw [requirements, whole, lines, List.filterMap_append, List.filterMap_append, nothing,
    List.append_nil, Table.ofPairs_append]
  rfl

/-- A list below another one is read like an update of it. Packages keep the places where they first
came, those of the second list that are new come after those of the first, and each has the versions
that the second list asks for, or those of the first if the second does not name it. -/
structure UpdatedBy (before after whole : Table String) : Prop where
  merged : whole = before.merge after
  names : whole.names = before.names ++ after.names.filter (· ∉ before.names)
  distinct : whole.names.Nodup
  value : ∀ name, whole.get? name = (after.get? name).or (before.get? name)

theorem below_is_update (first second : String) :
    UpdatedBy (requirements first) (requirements second)
      (requirements (first ++ "\n" ++ second)) := by
  have distinct (content : String) : (requirements content).names.Nodup :=
    Table.nodup_names_ofPairs _
  rw [requirements_append]
  exact {
    merged := rfl
    names := Table.names_merge _ (distinct second)
    distinct := Table.nodup_names_merge (distinct first) _
    value := fun name => Table.get?_merge name _ (distinct second) }

example : requirements "flask==2.0\nuvicorn\r\nflask>=3" =
    [("flask", ">=3"), ("uvicorn", "*")] := by decide +kernel

end Requirement

end Synopsis
