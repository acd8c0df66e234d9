import Synopsis.Proofs.Python.Numbering
import Synopsis.Proofs.Python.Patterns

/-!
# Heads of functions are read back

A head of a function that stands on a line of its own is recorded on that line, and nothing else is:
its name, its parameters in order, and whether it is indented. What stands in the lines around it,
and what follows the head on its line, is left open. Nothing is said of heads over several lines.
-/

namespace Synopsis

namespace Text

/-- What stands on a line of its own is the piece after as many others as
there are separators before it. -/
theorem getElem?_splitOn_of_own {sep : Char} {before line after : List Char}
    (above : before = [] ∨ ∃ text, before = text ++ [sep])
    (below : after = [] ∨ ∃ text, after = sep :: text) (plain : sep ∉ line) :
    (splitOn sep (before ++ (line ++ after)))[before.count sep]? = some line := by
  have single : splitOn sep line = [line] := splitOn_of_notMem plain
  obtain ⟨others, starts⟩ : ∃ others, splitOn sep (line ++ after) = line :: others := by
    rcases below with rfl | ⟨text, rfl⟩
    · exact ⟨[], by rw [List.append_nil, single]⟩
    · exact ⟨splitOn sep text, by rw [splitOn_between, single]; rfl⟩
  rcases above with rfl | ⟨text, rfl⟩
  · rw [List.nil_append, starts]
    rfl
  · have pieces : text.count sep + 1 = (splitOn sep text).length := (length_splitOn sep text).symm
    rw [List.append_assoc, List.singleton_append, splitOn_between, starts, List.count_append,
      List.count_singleton_self, pieces, List.getElem?_append_right (Nat.le_refl _), Nat.sub_self]
    rfl

theorem dropTrailing_append_cons {c d : Char} (different : d ≠ c) (cs rest : List Char) :
    dropTrailing c (cs ++ d :: rest) = cs ++ d :: dropTrailing c rest := by
  rw [dropTrailing, dropTrailing, List.reverse_append, List.reverse_cons, List.append_assoc,
    List.dropWhile_append]
  split
  · rename_i gone
    rw [List.isEmpty_iff.mp gone, List.singleton_append,
      List.dropWhile_cons_of_neg (by simpa using different)]
    simp
  · simp

end Text

namespace Python

open Synopsis.Text

/-! ## Lists of parameters -/

/-- A parameter as it may stand between commas. -/
structure IsParameter (param : String) : Prop where
  nonempty : param ≠ ""
  trimmed : Trimmed param.toList
  no_comma : ',' ∉ param.toList
  closed : ')' ∉ param.toList
  single : '\n' ∉ param.toList

instance (param : String) : Decidable (IsParameter param) :=
  decidable_of_iff
    (param ≠ "" ∧ Trimmed param.toList ∧ ',' ∉ param.toList ∧ ')' ∉ param.toList ∧
      '\n' ∉ param.toList)
    ⟨fun ⟨nonempty, trimmed, no_comma, closed, single⟩ =>
      ⟨nonempty, trimmed, no_comma, closed, single⟩,
      fun ⟨nonempty, trimmed, no_comma, closed, single⟩ =>
        ⟨nonempty, trimmed, no_comma, closed, single⟩⟩

theorem listed_between (first second : List Char) :
    listed (first ++ ',' :: second) = listed first ++ listed second := by
  simp only [listed, splitOn_between, List.map_append, List.filter_append]

theorem listed_blank {c : Char} (blank : isBlank c = true) (apart : c ≠ ',') (cs : List Char) :
    listed (c :: cs) = listed cs := by
  rw [listed, listed, splitOn, if_neg (mt beq_iff_eq.mp apart)]
  cases pieces : splitOn ',' cs with
  | nil => exact absurd pieces (splitOn_ne_nil ',' cs)
  | cons piece pieces =>
    have trimmed : trim (c :: piece) = trim piece := by
      rw [trim, trim, trimStart, List.dropWhile_cons_of_pos blank, ← trimStart]
    simp only [List.map_cons, trimmed]

theorem IsParameter.listed_eq {param : String} (h : IsParameter param) :
    listed param.toList = [param] := by
  have single : splitOn ',' param.toList = [param.toList] := splitOn_of_notMem h.no_comma
  have nonempty : param.toList.isEmpty = false := by
    simpa using h.nonempty
  simp [listed, single, h.trimmed.trim_eq, nonempty]

/-- Parameters with commas between them are read back. -/
theorem listed_join {params : List String} (parameters : ∀ param ∈ params, IsParameter param) :
    listed (join ", " params).toList = params := by
  induction params with
  | nil => rfl
  | cons param params ih =>
    obtain ⟨own, others⟩ := List.forall_mem_cons.mp parameters
    cases params with
    | nil => rw [join, String.intercalate_singleton, own.listed_eq]
    | cons next rest =>
      have chars : (join ", " (param :: next :: rest)).toList =
          param.toList ++ ',' :: ' ' :: (join ", " (next :: rest)).toList := by
        simp [join, String.intercalate_cons_cons]
      rw [chars, listed_between, listed_blank (by rfl) (by decide), own.listed_eq, ih others]
      rfl

/-! ## Lines -/

/-- The head of a function does not look like an import, which comes first. -/
theorem importLine?_of_functionPattern {cs : List Char} {said : Statement}
    (pattern : FunctionPattern cs said) : importLine? cs = none := by
  have start : ∃ c, cs.head? = some c ∧ (isBlank c = true ∨ c = 'd') := by
    obtain @⟨indent, gap, name, space, params, rest, indented, -, -, -, -, -⟩ := pattern
    cases indent with
    | nil => exact ⟨'d', rfl, Or.inr rfl⟩
    | cons c indent => exact ⟨c, rfl, Or.inl (indented c List.mem_cons_self)⟩
  have other {said : Statement} (pattern : ImportPattern cs said) :
      cs.head? = some 'f' ∨ cs.head? = some 'i' := by
    cases pattern with
    | names => exact Or.inl rfl
    | modules => exact Or.inr rfl
  obtain ⟨c, here, first⟩ := start
  rw [Option.eq_none_iff_forall_ne_some]
  intro said read
  rcases other (importLine?_eq_some_iff.mp read) with there | there
  · cases here.symm.trans there
    exact absurd first (by decide)
  · cases here.symm.trans there
    exact absurd first (by decide)

theorem statement?_of_functionPattern {cs : List Char} {said : Statement}
    (pattern : FunctionPattern cs said) : statement? cs = some said := by
  rw [statement?, importLine?_of_functionPattern pattern, Option.none_or,
    functionLine?_eq_some_iff.mpr pattern, Option.some_or]

/-- A head of a function and what follows it on its line. -/
structure FunctionHead where
  indent : String
  name : String
  params : List String
  rest : String
  indented : ∀ c ∈ indent.toList, isBlank c = true ∧ c ≠ '\n'
  named : IsWord name.toList
  parameters : ∀ param ∈ params, IsParameter param
  single : '\n' ∉ rest.toList

namespace FunctionHead

/-- The head as it is written. -/
def line (head : FunctionHead) : String :=
  head.indent ++ "def " ++ head.name ++ "(" ++ join ", " head.params ++ ")" ++ head.rest

/-- The record of the head on the line of a number. -/
def recordOn (head : FunctionHead) (number : Nat) : FunctionRecord :=
  { name := head.name, params := head.params, line := number, isMethod := head.indent != "" }

variable (head : FunctionHead)

/-- The characters of the head when `rest` follows it. -/
def withRest (rest : List Char) : List Char :=
  head.indent.toList ++ ("def".toList ++ ([' '] ++ (head.name.toList ++ ([] ++
    '(' :: ((join ", " head.params).toList ++ ')' :: rest)))))

theorem toList_line : head.line.toList = head.withRest head.rest.toList := by
  simp [line, withRest]

/-- Carriage returns at the end of the line belong to what follows the head. -/
theorem dropTrailing_withRest (rest : List Char) :
    dropTrailing '\r' (head.withRest rest) = head.withRest (dropTrailing '\r' rest) := by
  have closing (rest : List Char) : head.withRest rest =
      (head.indent.toList ++ ("def".toList ++ ([' '] ++ (head.name.toList ++ ([] ++
        '(' :: (join ", " head.params).toList))))) ++ ')' :: rest := by
    simp [withRest]
  rw [closing, closing, dropTrailing_append_cons (by decide)]

theorem notMem_params {c : Char} (apart : c ∉ ", ".toList)
    (plain : ∀ param ∈ head.params, c ∉ param.toList) : c ∉ (join ", " head.params).toList := by
  intro h
  rcases mem_join_sep h with h | ⟨param, inside, h⟩
  · exact apart h
  · exact plain param inside h

theorem newline_notMem_line : '\n' ∉ head.line.toList := by
  have indent : '\n' ∉ head.indent.toList := fun h => (head.indented _ h).2 rfl
  have name : '\n' ∉ head.name.toList := fun h => by cases head.named.visible _ h
  have params : '\n' ∉ (join ", " head.params).toList :=
    head.notMem_params (by decide) fun param h => (head.parameters param h).single
  simp [line, indent, name, params, head.single]

theorem functionPattern_withRest (rest : List Char) : FunctionPattern (head.withRest rest)
    (.function (head.indent != "") head.name head.params) := by
  have closed : ')' ∉ (join ", " head.params).toList :=
    head.notMem_params (by decide) fun param h => (head.parameters param h).closed
  have indented : (!head.indent.toList.isEmpty) = (head.indent != "") := by
    rw [Bool.eq_iff_iff]
    simp
  have pattern : FunctionPattern (head.withRest rest)
      (.function (!head.indent.toList.isEmpty) (String.ofList head.name.toList)
        (listed (join ", " head.params).toList)) :=
    .head (fun c h => (head.indented c h).1) (List.cons_ne_nil ' ' [])
      (List.forall_mem_singleton.mpr rfl) head.named (List.forall_mem_nil _) closed
  rwa [indented, String.ofList_toList, listed_join head.parameters] at pattern

theorem lineStatement?_line : lineStatement? head.line.toList =
    some (.function (head.indent != "") head.name head.params) := by
  rw [lineStatement?, toList_line, dropTrailing_withRest]
  exact statement?_of_functionPattern (head.functionPattern_withRest _)

end FunctionHead

/-- A head of a function on a line of its own is all that is recorded on this line: its name, its
parameters in order, and whether it is indented. -/
theorem function_head_recorded (head : FunctionHead) {before after : String}
    (above : before = "" ∨ ∃ text, before = text ++ "\n")
    (below : after = "" ∨ ∃ text, after = "\n" ++ text) :
    (facts (before ++ head.line ++ after)).onLine (before.toList.count '\n' + 1) =
      { functions := [head.recordOn (before.toList.count '\n' + 1)] } := by
  have above' : before.toList = [] ∨ ∃ text, before.toList = text ++ ['\n'] := by
    rcases above with rfl | ⟨text, rfl⟩
    · exact Or.inl rfl
    · exact Or.inr ⟨text.toList, by simp⟩
  have below' : after.toList = [] ∨ ∃ text, after.toList = '\n' :: text := by
    rcases below with rfl | ⟨text, rfl⟩
    · exact Or.inl rfl
    · exact Or.inr ⟨text.toList, by simp⟩
  have own := getElem?_splitOn_of_own above' below' head.newline_notMem_line
  have said : saidIn (before ++ head.line ++ after) (before.toList.count '\n' + 1) =
      some (.function (head.indent != "") head.name head.params) := by
    rw [← List.append_assoc, ← String.toList_append, ← String.toList_append] at own
    rw [saidIn_succ own, head.lineStatement?_line]
  rw [onLine_facts, said]
  rfl

/-- A method whose parameters hold spaces and a parenthesis, with more parentheses after them. -/
def sampleHead : FunctionHead where
  indent := "\t "
  name := "größe"
  params := ["self", "by = f(1", "*"]
  rest := " -> (int): pass  # def f():\r"
  indented := List.forall_iff_forall_mem.mp (by decide)
  named.nonempty := by decide
  named.inside := List.forall_iff_forall_mem.mp (by decide +kernel)
  parameters := List.forall_iff_forall_mem.mp (by decide)
  single := by decide

theorem function_head_recorded_sampleHead :
    (facts ("class A:\r\n" ++ sampleHead.line ++ "\nB = 1")).onLine 2 =
      { functions := [sampleHead.recordOn 2] } :=
  @function_head_recorded sampleHead "class A:\r\n" "\nB = 1" (Or.inr ⟨"class A:\r", rfl⟩)
    (Or.inr ⟨"B = 1", rfl⟩)

end Python

end Synopsis
