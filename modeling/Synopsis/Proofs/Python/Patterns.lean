import Mathlib.Data.List.TakeWhile
import Synopsis.Proofs.Text.Blank
import Synopsis.Python.Outline

/-!
# The patterns of lines

Each reader of a line is told by a pattern: a line is read exactly if it is made of certain parts,
and what it says is then told by these parts. The patterns are stated without the readers, and each
leaves one way to cut a line, since every part ends where the next one cannot go on with it. Which
of the readers comes first is not spoken of here.
-/

namespace Synopsis

namespace Text

theorem dropPrefix?_eq_some_iff {needle cs rest : List Char} :
    dropPrefix? needle cs = some rest ↔ cs = needle ++ rest := by
  induction needle generalizing cs with
  | nil => exact Option.some_inj
  | cons x xs ih =>
    cases cs with
    | nil => simp [dropPrefix?]
    | cons c cs =>
      rw [dropPrefix?, List.cons_append, List.cons_eq_cons]
      by_cases same : x = c
      · rw [if_pos (beq_iff_eq.mpr same), ih]
        exact (and_iff_right same.symm).symm
      · rw [if_neg (mt beq_iff_eq.mp same)]
        exact ⟨nofun, fun h => absurd h.1.symm same⟩

end Text

namespace Python

open Synopsis.Text

/-! ## Runs of characters -/

section Runs

variable {p : Char → Bool} {cs run rest : List Char}

/-- A run stops at a character that it cannot hold. -/
theorem stops_at {c : Char} (other : p c = false) : ∀ d ∈ (c :: rest).head?, p d = false := by
  rintro _ ⟨⟩
  exact other

/-- A run goes on as far as it can. -/
theorem takeRun_eq_iff : takeRun p cs = (run, rest) ↔
    cs = run ++ rest ∧ (∀ c ∈ run, p c = true) ∧ ∀ c ∈ rest.head?, p c = false := by
  constructor
  · intro h
    obtain ⟨rfl, rfl⟩ := Prod.mk.inj h
    refine ⟨List.takeWhile_append_dropWhile.symm, fun c =>
      List.mem_takeWhile_imp, fun c first => ?_⟩
    have stops := List.head?_dropWhile_not p cs
    rw [Option.mem_def.mp first] at stops
    exact stops
  · rintro ⟨rfl, inside, stops⟩
    rw [takeRun, List.takeWhile_append_of_pos inside, List.dropWhile_append_of_pos inside]
    cases rest with
    | nil => rw [List.takeWhile_nil, List.dropWhile_nil, List.append_nil]
    | cons c rest =>
      have stop : ¬ p c = true := by rw [stops c rfl]; exact Bool.false_ne_true
      rw [List.takeWhile_cons_of_neg stop, List.dropWhile_cons_of_neg stop, List.append_nil]

theorem takeSome?_eq_some_iff : takeSome? p cs = some (run, rest) ↔
    run ≠ [] ∧ cs = run ++ rest ∧ (∀ c ∈ run, p c = true) ∧ ∀ c ∈ rest.head?, p c = false := by
  rw [← takeRun_eq_iff, takeSome?]
  rcases takeRun p cs with ⟨other, rest'⟩
  cases other with
  | nil =>
    refine ⟨nofun, fun h => absurd ?_ h.1⟩
    exact (Prod.mk.inj h.2).1.symm
  | cons c other =>
    refine ⟨fun h => ?_, fun h => congrArg some h.2⟩
    obtain ⟨rfl, rfl⟩ := Prod.mk.inj (Option.some.inj h)
    exact ⟨List.cons_ne_nil c other, rfl⟩

theorem takeParens?_eq_some_iff : takeParens? cs = some (run, rest) ↔
    cs = run ++ ')' :: rest ∧ ')' ∉ run := by
  have inside : (∀ c ∈ run, (c != ')') = true) ↔ ')' ∉ run := by
    simp only [bne_iff_ne]
    exact ⟨fun h mem => h ')' mem rfl, fun h c mem same => h (same ▸ mem)⟩
  constructor
  · intro h
    rcases read : takeRun (· != ')') cs with ⟨other, tail⟩
    obtain ⟨rfl, own, stops⟩ := takeRun_eq_iff.mp read
    rw [takeParens?, read] at h
    cases tail with
    | nil => cases h
    | cons c tail =>
      obtain ⟨rfl, rfl⟩ := Prod.mk.inj (Option.some.inj h)
      have closing : c = ')' := by simpa using stops c rfl
      exact ⟨by rw [closing], inside.mp own⟩
  · rintro ⟨rfl, plain⟩
    have read : takeRun (· != ')') (run ++ ')' :: rest) = (run, ')' :: rest) :=
      takeRun_eq_iff.mpr ⟨rfl, inside.mpr plain, stops_at rfl⟩
    rw [takeParens?, read]

end Runs

/-- A text of blanks alone. -/
def Blanks (cs : List Char) : Prop := ∀ c ∈ cs, isBlank c = true

/-- No word goes on in what starts with blanks, or with another character outside of words. -/
theorem Blanks.wordless {cs rest : List Char} (blank : Blanks cs)
    (after : ∀ c ∈ rest.head?, isWord c = false) : ∀ c ∈ (cs ++ rest).head?, isWord c = false := by
  cases cs with
  | nil => exact after
  | cons c cs => exact stops_at (isWord_of_isBlank (blank c List.mem_cons_self))

theorem trimStart_eq_iff {cs rest : List Char} : trimStart cs = rest ↔
    ∃ space, cs = space ++ rest ∧ Blanks space ∧ ∀ c ∈ rest.head?, isBlank c = false :=
  ⟨fun h => ⟨cs.takeWhile isBlank, takeRun_eq_iff.mp (Prod.ext rfl h)⟩,
    fun ⟨_, parts⟩ => congrArg Prod.snd (takeRun_eq_iff.mpr parts)⟩

/-- A word of at least one character. -/
structure IsWord (cs : List Char) : Prop where
  nonempty : cs ≠ []
  inside : ∀ c ∈ cs, isWord c = true

theorem IsWord.visible {cs : List Char} (word : IsWord cs) : ∀ c ∈ cs, isBlank c = false :=
  fun c h => isBlank_of_isWord (word.inside c h)

theorem takeSome?_word {name rest : List Char} (named : IsWord name)
    (stops : ∀ c ∈ rest.head?, isWord c = false) :
    takeSome? isWord (name ++ rest) = some (name, rest) :=
  takeSome?_eq_some_iff.mpr ⟨named.nonempty, rfl, named.inside, stops⟩

/-- Blanks end where something visible follows. -/
theorem takeSome?_gap {gap next : List Char} (apart : gap ≠ []) (blank : Blanks gap)
    (nonempty : next ≠ []) (visible : ∀ c ∈ next, isBlank c = false) (rest : List Char) :
    takeSome? isBlank (gap ++ (next ++ rest)) = some (gap, next ++ rest) := by
  refine takeSome?_eq_some_iff.mpr ⟨apart, rfl, blank, ?_⟩
  cases next with
  | nil => exact absurd rfl nonempty
  | cons c next => exact stops_at (visible c List.mem_cons_self)

theorem dropPrefix?_append (needle rest : List Char) :
    dropPrefix? needle (needle ++ rest) = some rest :=
  dropPrefix?_eq_some_iff.mpr rfl

/-! ## Heads of functions -/

/-- The head of a function: `def` after an indentation, a name, and parameters in parentheses. -/
inductive FunctionPattern : List Char → Statement → Prop where
  | head {indent gap name space params rest : List Char} (indented : Blanks indent)
      (apart : gap ≠ []) (blank : Blanks gap) (named : IsWord name) (spaced : Blanks space)
      (closed : ')' ∉ params) :
      FunctionPattern
        (indent ++ ("def".toList ++ (gap ++ (name ++ (space ++ ('(' :: (params ++ ')' :: rest)))))))
        (.function (!indent.isEmpty) (String.ofList name) (listed params))

theorem functionLine?_eq_some_iff {cs : List Char} {said : Statement} :
    functionLine? cs = some said ↔ FunctionPattern cs said := by
  constructor
  · intro h
    rcases indentation : takeRun isBlank cs with ⟨indent, rest⟩
    simp only [functionLine?, indentation, Option.bind_eq_bind, Option.bind_eq_some_iff,
      Prod.exists, Option.pure_def, Option.some.injEq] at h
    obtain ⟨rest₁, keyword, gap, rest₂, gapped, name, rest₃, named, rest₄, opening, params, rest₅,
      closing, rfl⟩ := h
    obtain ⟨rfl, indented, -⟩ := takeRun_eq_iff.mp indentation
    obtain rfl := dropPrefix?_eq_some_iff.mp keyword
    obtain ⟨apart, rfl, blank, -⟩ := takeSome?_eq_some_iff.mp gapped
    obtain ⟨nonempty, rfl, word, -⟩ := takeSome?_eq_some_iff.mp named
    obtain ⟨space, rfl, spaced, -⟩ := trimStart_eq_iff.mp (dropPrefix?_eq_some_iff.mp opening)
    obtain ⟨rfl, closed⟩ := takeParens?_eq_some_iff.mp closing
    exact .head indented apart blank ⟨nonempty, word⟩ spaced closed
  · rintro @⟨indent, gap, name, space, params, rest, indented, apart, blank, named, spaced, closed⟩
    have indentation (tail : List Char) :
        takeRun isBlank (indent ++ ("def".toList ++ tail)) = (indent, "def".toList ++ tail) :=
      takeRun_eq_iff.mpr ⟨rfl, indented, stops_at rfl⟩
    have naming (tail : List Char) : takeSome? isWord (name ++ (space ++ '(' :: tail)) =
        some (name, space ++ '(' :: tail) :=
      takeSome?_word named (spaced.wordless (stops_at rfl))
    have spacing (tail : List Char) : trimStart (space ++ '(' :: tail) = '(' :: tail :=
      trimStart_eq_iff.mpr ⟨space, rfl, spaced, stops_at rfl⟩
    have opening (tail : List Char) : dropPrefix? ['('] ('(' :: tail) = some tail :=
      dropPrefix?_append ['('] tail
    have closing : takeParens? (params ++ ')' :: rest) = some (params, rest) :=
      takeParens?_eq_some_iff.mpr ⟨rfl, closed⟩
    rw [functionLine?, indentation]
    simp only [dropPrefix?_append, takeSome?_gap apart blank named.nonempty named.visible, naming,
      spacing, opening, closing, Option.bind_eq_bind, Option.bind_some]
    rfl

/-! ## Heads of classes -/

/-- The head of a class: `class`, a name, perhaps bases in parentheses, and a colon. -/
inductive ClassPattern : List Char → Statement → Prop where
  | plain {gap name rest : List Char} (apart : gap ≠ []) (blank : Blanks gap)
      (named : IsWord name) :
      ClassPattern ("class".toList ++ (gap ++ (name ++ ':' :: rest)))
        (.class (String.ofList name) none)
  | derived {gap name bases rest : List Char} (apart : gap ≠ []) (blank : Blanks gap)
      (named : IsWord name) (closed : ')' ∉ bases) :
      ClassPattern ("class".toList ++ (gap ++ (name ++ '(' :: (bases ++ ')' :: ':' :: rest))))
        (.class (String.ofList name) (firstBase bases))

theorem classLine?_eq_some_iff {cs : List Char} {said : Statement} :
    classLine? cs = some said ↔ ClassPattern cs said := by
  constructor
  · intro h
    simp only [classLine?, Option.bind_eq_bind, Option.bind_eq_some_iff, Prod.exists] at h
    obtain ⟨rest₁, keyword, gap, rest₂, gapped, name, rest₃, named, h⟩ := h
    obtain rfl := dropPrefix?_eq_some_iff.mp keyword
    obtain ⟨apart, rfl, blank, -⟩ := takeSome?_eq_some_iff.mp gapped
    obtain ⟨nonempty, rfl, word, -⟩ := takeSome?_eq_some_iff.mp named
    split at h
    · cases h
      exact .plain apart blank ⟨nonempty, word⟩
    · simp only [Option.bind_eq_some_iff, Prod.exists, Option.pure_def, Option.some.injEq] at h
      obtain ⟨bases, rest₅, closing, rest₆, colon, rfl⟩ := h
      obtain ⟨rfl, closed⟩ := takeParens?_eq_some_iff.mp closing
      obtain rfl := dropPrefix?_eq_some_iff.mp colon
      exact .derived apart blank ⟨nonempty, word⟩ closed
    · cases h
  · rintro (@⟨gap, name, rest, apart, blank, named⟩ |
      @⟨gap, name, bases, rest, apart, blank, named, closed⟩)
    · have naming : takeSome? isWord (name ++ ':' :: rest) = some (name, ':' :: rest) :=
        takeSome?_word named (stops_at rfl)
      rw [classLine?, dropPrefix?_append]
      simp only [takeSome?_gap apart blank named.nonempty named.visible, naming,
        Option.bind_eq_bind, Option.bind_some]
      rfl
    · have naming (tail : List Char) : takeSome? isWord (name ++ '(' :: tail) =
          some (name, '(' :: tail) :=
        takeSome?_word named (stops_at rfl)
      have closing : takeParens? (bases ++ ')' :: ':' :: rest) = some (bases, ':' :: rest) :=
        takeParens?_eq_some_iff.mpr ⟨rfl, closed⟩
      have colon : dropPrefix? [':'] (':' :: rest) = some rest := dropPrefix?_append [':'] rest
      rw [classLine?, dropPrefix?_append]
      simp only [takeSome?_gap apart blank named.nonempty named.visible, naming, closing, colon,
        Option.bind_eq_bind, Option.bind_some]
      rfl

/-! ## Imports -/

/-- An import: of names from a module, which is told by its name alone, or of modules, which are
told by the rest of the line. -/
inductive ImportPattern : List Char → Statement → Prop where
  | names {gap source gap' tail : List Char} {c : Char} (apart : gap ≠ []) (blank : Blanks gap)
      (nonempty : source ≠ []) (visible : ∀ c ∈ source, isBlank c = false) (apart' : gap' ≠ [])
      (blank' : Blanks gap') (spaced : isBlank c = true) (more : tail ≠ []) :
      ImportPattern
        ("from".toList ++ (gap ++ (source ++ (gap' ++ ("import".toList ++ c :: tail)))))
        (.imports (String.ofList source))
  | modules {tail : List Char} {c : Char} (spaced : isBlank c = true) (more : tail ≠ []) :
      ImportPattern ("import".toList ++ c :: tail) (.imports (String.ofList (trim tail)))

theorem importTail?_eq_some_iff {cs source : List Char} : importTail? cs = some source ↔
    ∃ c tail, cs = "import".toList ++ c :: tail ∧ isBlank c = true ∧ tail ≠ [] ∧
      source = trim tail := by
  constructor
  · intro h
    rw [importTail?] at h
    split at h
    · rename_i c d rest keyword
      obtain rfl := dropPrefix?_eq_some_iff.mp keyword
      split at h
      · rename_i blank
        exact ⟨c, d :: rest, rfl, blank, List.cons_ne_nil d rest, (Option.some.inj h).symm⟩
      · cases h
    · cases h
  · rintro ⟨c, tail, rfl, blank, more, rfl⟩
    cases tail with
    | nil => exact absurd rfl more
    | cons d rest => rw [importTail?, dropPrefix?_eq_some_iff.mpr rfl]; exact if_pos blank

theorem importLine?_eq_some_iff {cs : List Char} {said : Statement} :
    importLine? cs = some said ↔ ImportPattern cs said := by
  constructor
  · intro h
    rw [importLine?] at h
    split at h
    · rename_i rest₁ keyword
      simp only [Option.bind_eq_bind, Option.bind_eq_some_iff, Prod.exists, Option.pure_def,
        Option.some.injEq] at h
      obtain ⟨gap, rest₂, gapped, source, rest₃, named, gap', rest₄, gapped', imported, tailed,
        rfl⟩ := h
      obtain rfl := dropPrefix?_eq_some_iff.mp keyword
      obtain ⟨apart, rfl, blank, -⟩ := takeSome?_eq_some_iff.mp gapped
      obtain ⟨nonempty, rfl, visible, -⟩ := takeSome?_eq_some_iff.mp named
      obtain ⟨apart', rfl, blank', -⟩ := takeSome?_eq_some_iff.mp gapped'
      obtain ⟨c, tail, rfl, spaced, more, -⟩ := importTail?_eq_some_iff.mp tailed
      exact .names apart blank nonempty (fun c h => by simpa using visible c h) apart' blank' spaced
        more
    · obtain ⟨imported, tailed, rfl⟩ := Option.map_eq_some_iff.mp h
      obtain ⟨c, tail, rfl, spaced, more, rfl⟩ := importTail?_eq_some_iff.mp tailed
      exact .modules spaced more
  · rintro (@⟨gap, source, gap', tail, c, apart, blank, nonempty, visible, apart', blank', spaced,
      more⟩ | @⟨tail, c, spaced, more⟩)
    · have tailed : importTail? ("import".toList ++ c :: tail) = some (trim tail) :=
        importTail?_eq_some_iff.mpr ⟨c, tail, rfl, spaced, more, rfl⟩
      have sourced (rest : List Char) : takeSome? (!isBlank ·) (source ++ (gap' ++ rest)) =
          some (source, gap' ++ rest) := by
        refine takeSome?_eq_some_iff.mpr ⟨nonempty, rfl, fun d h => by simp [visible d h], ?_⟩
        cases gap' with
        | nil => exact absurd rfl apart'
        | cons d gap' => exact stops_at (by simp [blank' d List.mem_cons_self])
      have imported (rest : List Char) : takeSome? isBlank (gap' ++ ("import".toList ++ rest)) =
          some (gap', "import".toList ++ rest) :=
        takeSome?_gap apart' blank' (by decide) (List.forall_iff_forall_mem.mp (by decide)) rest
      rw [importLine?, dropPrefix?_append]
      simp only [takeSome?_gap apart blank nonempty visible, sourced, imported, tailed,
        Option.bind_eq_bind, Option.bind_some]
      rfl
    · have tailed : importTail? ("import".toList ++ c :: tail) = some (trim tail) :=
        importTail?_eq_some_iff.mpr ⟨c, tail, rfl, spaced, more, rfl⟩
      have other : dropPrefix? "from".toList ("import".toList ++ c :: tail) = none := rfl
      rw [importLine?, other, tailed]
      rfl

/-! ## Constants -/

/-- The definition of a constant: a name in capitals and digits, and a sign of equality. -/
inductive ConstantPattern : List Char → Statement → Prop where
  | defined {first : Char} {name space rest : List Char} (capital : isCapital first = true)
      (inside : ∀ c ∈ name, (isCapital c || c.isDigit) = true) (spaced : Blanks space) :
      ConstantPattern (first :: name ++ (space ++ '=' :: rest))
        (.constant (String.ofList (first :: name)))

theorem isWord_of_isCapital_or_isDigit {c : Char} (h : (isCapital c || c.isDigit) = true) :
    isWord c = true := by
  have kinds : c.isUpper = true ∨ c = '_' ∨ c.isDigit = true := by
    simpa only [isCapital, Bool.or_eq_true, beq_iff_eq, or_assoc] using h
  have low : c.toNat < 128 := by
    rcases kinds with upper | rfl | digit
    · have bounds : 'A'.val ≤ c.val ∧ c.val ≤ 'Z'.val := of_decide_eq_true upper
      exact Nat.lt_of_le_of_lt (UInt32.le_iff_toNat_le.mp bounds.2) (by decide)
    · decide
    · exact Nat.lt_of_le_of_lt (Char.isDigit_iff_toNat.mp digit).2 (by decide)
  have parts : c.isAlphanum = (c.isUpper || c.isLower || c.isDigit) := rfl
  rw [isWord, if_pos low, parts]
  rcases kinds with upper | rfl | digit
  · rw [upper, Bool.true_or, Bool.true_or, Bool.true_or]
  · decide
  · rw [digit, Bool.or_true, Bool.true_or]

/-- The name of a constant is a word. -/
theorem isWord_constant {first : Char} {name : List Char} (capital : isCapital first = true)
    (inside : ∀ c ∈ name, (isCapital c || c.isDigit) = true) : IsWord (first :: name) where
  nonempty := List.cons_ne_nil first name
  inside := List.forall_mem_cons.mpr
    ⟨isWord_of_isCapital_or_isDigit (by rw [capital, Bool.true_or]),
      fun c h => isWord_of_isCapital_or_isDigit (inside c h)⟩

theorem constantLine?_eq_some_iff {cs : List Char} {said : Statement} :
    constantLine? cs = some said ↔ ConstantPattern cs said := by
  constructor
  · intro h
    rcases naming : takeRun (fun c => isCapital c || c.isDigit) cs with ⟨name, rest⟩
    simp only [constantLine?, naming, Option.bind_eq_bind, Option.bind_eq_some_iff] at h
    obtain ⟨first, start, h⟩ := h
    obtain ⟨rfl, inside, -⟩ := takeRun_eq_iff.mp naming
    split at h
    · cases h
    · rename_i capital
      obtain ⟨name, rfl⟩ := List.head?_eq_some_iff.mp start
      simp only [Option.bind_eq_some_iff, Option.pure_def, Option.some.injEq] at h
      obtain ⟨rest₁, equals, rfl⟩ := h
      obtain ⟨space, rfl, spaced, -⟩ := trimStart_eq_iff.mp (dropPrefix?_eq_some_iff.mp equals)
      exact .defined (by simpa using capital)
        (fun c h => inside c (List.mem_cons_of_mem _ h)) spaced
  · rintro @⟨first, name, space, rest, capital, inside, spaced⟩
    have whole : ∀ c ∈ first :: name, (isCapital c || c.isDigit) = true :=
      List.forall_mem_cons.mpr ⟨by rw [capital, Bool.true_or], inside⟩
    have stops : ∀ c ∈ (space ++ '=' :: rest).head?, (isCapital c || c.isDigit) = false := by
      intro c start
      have wordless : isWord c = false := spaced.wordless (stops_at rfl) c start
      cases named : isCapital c || c.isDigit with
      | false => rfl
      | true => rw [isWord_of_isCapital_or_isDigit named] at wordless; cases wordless
    have naming : takeRun (fun c => isCapital c || c.isDigit)
        (first :: name ++ (space ++ '=' :: rest)) = (first :: name, space ++ '=' :: rest) :=
      takeRun_eq_iff.mpr ⟨rfl, whole, stops⟩
    have spacing : trimStart (space ++ '=' :: rest) = '=' :: rest :=
      trimStart_eq_iff.mpr ⟨space, rfl, spaced, stops_at rfl⟩
    have equals : dropPrefix? ['='] ('=' :: rest) = some rest := dropPrefix?_append ['='] rest
    rw [constantLine?, naming]
    simp [capital, spacing, equals]

end Python

end Synopsis
