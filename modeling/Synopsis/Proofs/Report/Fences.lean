import Mathlib.Data.List.Infix
import Mathlib.Data.List.TakeWhile
import Synopsis.Proofs.Report.Parts
import Synopsis.Proofs.Text.Newlines

/-!
# Source code in a report

The source of a file stands in a block of code, between a line of three backticks with the name of
the language and a line of three backticks. A reader takes the first line after the opening that
could close the block for its end. So the block holds the source and what follows is read as before
exactly if no line of the source is such a line. The block is never read beyond the line that is
meant to close it. What comes before the opening is not spoken of, nor are blocks in lists and
quotations.
-/

namespace Synopsis.Markdown

open Text

/-! ## Blocks of code -/

/-- A line that opens a block of code: three backticks and a text without any. -/
def OpensBlock (line : List Char) : Prop := ∃ info, line = "```".toList ++ info ∧ '\x60' ∉ info

/-- A line that closes such a block: blanks, three of them at most, then three backticks or more,
and then nothing but blanks and tabs. -/
def ClosesBlock (line : List Char) : Prop :=
  let inner := line.dropWhile (· == ' ')
  line.length ≤ inner.length + 3 ∧ "```".toList <+: inner ∧
    inner.dropWhile (· == '\x60') ⊆ [' ', '\t']

instance (line : List Char) : Decidable (ClosesBlock line) :=
  inferInstanceAs (Decidable (_ ∧ _ ∧ _))

/-- What a reader takes for the code of a block, out of the lines after the opening, and the lines
after the block. -/
def readBlock (lines : List (List Char)) : List (List Char) × List (List Char) :=
  (lines.takeWhile (¬ ClosesBlock ·), (lines.dropWhile (¬ ClosesBlock ·)).drop 1)

theorem closesBlock_fence : ClosesBlock "```".toList := by decide

variable {code rest : List (List Char)}

theorem takeWhile_fence (rest : List (List Char)) :
    ("```".toList :: rest).takeWhile (¬ ClosesBlock ·) = [] :=
  List.takeWhile_cons_of_neg (by simpa using closesBlock_fence)

theorem dropWhile_fence (rest : List (List Char)) :
    ("```".toList :: rest).dropWhile (¬ ClosesBlock ·) = "```".toList :: rest :=
  List.dropWhile_cons_of_neg (by simpa using closesBlock_fence)

/-- Before a closing line, a block holds just the code if none of its lines closes the block. -/
theorem readBlock_eq_iff :
    readBlock (code ++ "```".toList :: rest) = (code, rest) ↔
      ∀ line ∈ code, ¬ ClosesBlock line := by
  constructor
  · intro read line inside
    have whole : (code ++ "```".toList :: rest).takeWhile (¬ ClosesBlock ·) = code :=
      congrArg Prod.fst read
    have taken := (congrArg (line ∈ ·) whole).mpr inside
    simpa using List.mem_takeWhile_imp taken
  · intro free
    have goes : ∀ line ∈ code, decide (¬ ClosesBlock line) = true := fun line inside =>
      decide_eq_true (free line inside)
    rw [readBlock, List.takeWhile_append_of_pos goes, takeWhile_fence,
      List.dropWhile_append_of_pos goes, dropWhile_fence, List.append_nil]
    rfl

theorem prefix_readBlock : (readBlock (code ++ "```".toList :: rest)).1 <+: code := by
  rw [readBlock, List.takeWhile_append, takeWhile_fence, List.append_nil]
  split
  · exact List.prefix_rfl
  · exact List.takeWhile_prefix _

/-! ## The block of a file -/

variable {working generatedAt text : String} {facts : ProjectFacts} {summary : Option String}
  {docs : List FileDoc} {doc : FileDoc}

/-- The source of a file as a report shows it. -/
def shownSource (doc : FileDoc) : String :=
  String.ofList (dropTrailing '\n' doc.content.toList)

theorem opensBlock_language (extension : String) :
    OpensBlock ("```" ++ language extension).toList := by
  refine ⟨(language extension).toList, String.toList_append, ?_⟩
  unfold language
  split <;> decide

theorem infix_codeLines {working root : String} {own : List String}
    (h : IsSection working root true doc own) : codeLines doc <:+: own := by
  obtain ⟨way, -, rfl⟩ := h
  exact ⟨_, ["---", ""], rfl⟩

theorem infix_documentationPart {own : List String} {sections : List (List String)}
    (inside : own ∈ sections) : own <:+: documentationPart sections := by
  have filled : sections.isEmpty = false := by
    simpa using List.ne_nil_of_mem inside
  rw [documentationPart, filled]
  exact (List.infix_of_mem_flatten inside).trans (List.suffix_append _ _).isInfix

/-- The source of a file in the text of a report: under its heading, between the two fences. -/
theorem exists_block (made : report working facts summary docs true generatedAt = .ok text)
    (listed : doc ∈ docs) :
    ∃ front back, text = front ++
      ("#### Source\n\n" ++ ("```" ++ language doc.record.extension) ++ "\n") ++
        (shownSource doc ++ "\n```\n" ++ back) := by
  obtain ⟨all, told, rfl⟩ := report_eq_ok made
  obtain ⟨first, entries, sections, last, each, rfl⟩ := lines_eq_ok told
  obtain ⟨own, inside, documented⟩ := exists_of_mem_forall₂ each listed
  have within : codeLines doc <:+: first ++ structureLines facts ++ entries ++
      dependencyLines facts.dependencies ++ documentationPart sections ++ last :=
    ((infix_codeLines documented).trans (infix_documentationPart inside)).trans
      ⟨_, last, rfl⟩
  obtain ⟨front, back, whole⟩ := printed_of_isInfix within
  refine ⟨front, "\n" ++ back, ?_⟩
  have block : printed (codeLines doc) =
      "#### Source\n\n" ++ ("```" ++ language doc.record.extension) ++ "\n" ++
        (shownSource doc ++ "\n```\n" ++ "\n") := by
    simp only [codeLines, printed_cons, shownSource, String.append_assoc]
    rfl
  rw [whole, block]
  simp only [String.append_assoc]

/-- The lines from the source on: those of the source, the closing fence and those after it. -/
theorem textLines_source (source back : String) :
    textLines (source ++ "\n```\n" ++ back).toList =
      closedLines source.toList ++ "```".toList :: textLines back.toList := by
  have chars : (source ++ "\n```\n" ++ back).toList =
      source.toList ++ '\n' :: ("```".toList ++ '\n' :: back.toList) := by
    simp
  have fence : closedLines "```".toList = ["```".toList] :=
    closedLines_of_unbroken (by decide)
  rw [chars, textLines_between, textLines_between, fence]
  rfl

/-- Whatever the source of a file is: its block is opened as such, it is never read beyond the line
that is meant to close it, and a reader finds in it the lines of the source, and after it what
follows in the report, exactly if no line of the source could close a block. -/
theorem source_read_iff (made : report working facts summary docs true generatedAt = .ok text)
    (listed : doc ∈ docs) :
    ∃ front opening back, text = front ++ ("#### Source\n\n" ++ opening ++ "\n") ++
        (shownSource doc ++ "\n```\n" ++ back) ∧
      OpensBlock opening.toList ∧
      let read := readBlock (textLines (shownSource doc ++ "\n```\n" ++ back).toList)
      let source := closedLines (shownSource doc).toList
      read.1 <+: source ∧
        (read = (source, textLines back.toList) ↔ ∀ line ∈ source, ¬ ClosesBlock line) := by
  obtain ⟨front, back, whole⟩ := exists_block made listed
  refine ⟨front, _, back, whole, opensBlock_language doc.record.extension, ?_⟩
  rw [textLines_source]
  exact ⟨prefix_readBlock, readBlock_eq_iff⟩

/-- A file with this source, of which nothing else is known. -/
def sourceDoc (source : String) : FileDoc :=
  { record := { path := "/p/a.py", name := "a.py", extension := ".py", lines := 1, size := 0 }
    content := source }

theorem exists_sourceReport (source : String) :
    ∃ text, report "/" emptyFacts none [sourceDoc source] true "" = .ok text := ⟨_, rfl⟩

/-- Fences that are too short, too far right or followed by a word are read as source. -/
theorem source_read_fences :
    let doc := sourceDoc "``\n    ```\r\n```js\n a ```\n\n"
    ∃ text, report "/" emptyFacts none [doc] true "" = .ok text ∧ doc ∈ [doc] ∧
      ∃ front opening back, text = front ++ ("#### Source\n\n" ++ opening ++ "\n") ++
          (shownSource doc ++ "\n```\n" ++ back) ∧
        readBlock (textLines (shownSource doc ++ "\n```\n" ++ back).toList) =
          (["``".toList, "    ```".toList, "```js".toList, " a ```".toList],
            textLines back.toList) := by
  intro doc
  obtain ⟨text, made⟩ := exists_sourceReport "``\n    ```\r\n```js\n a ```\n\n"
  have listed : doc ∈ [doc] := List.mem_singleton_self doc
  obtain ⟨front, opening, back, whole, -, -, read⟩ := source_read_iff made listed
  have source : closedLines (shownSource doc).toList =
      ["``".toList, "    ```".toList, "```js".toList, " a ```".toList] := by
    decide
  rw [source] at read
  exact ⟨text, made, listed, front, opening, back, whole, read.mpr (by decide)⟩

/-- A fence in the source ends the block: what follows it in the source is read as report, and the
line that is meant to close the block opens another one. -/
theorem fence_not_read :
    let doc := sourceDoc "x = \"\"\"\n```\n\"\"\"\n"
    closedLines (shownSource doc).toList =
        ["x = \"\"\"".toList, "```".toList, "\"\"\"".toList] ∧
      ∃ text front back, report "/" emptyFacts none [doc] true "" = .ok text ∧
        text = front ++ "#### Source\n\n```python\n" ++ (shownSource doc ++ "\n```\n" ++ back) ∧
        readBlock (textLines (shownSource doc ++ "\n```\n" ++ back).toList) =
          (["x = \"\"\"".toList], "\"\"\"".toList :: "```".toList :: textLines back.toList) ∧
        OpensBlock "```".toList := by
  intro doc
  obtain ⟨text, made⟩ := exists_sourceReport "x = \"\"\"\n```\n\"\"\"\n"
  obtain ⟨front, back, whole⟩ := exists_block made (List.mem_singleton_self doc)
  have source : closedLines (shownSource doc).toList =
      ["x = \"\"\"".toList, "```".toList, "\"\"\"".toList] := by
    decide
  refine ⟨source, text, front, back, made, whole, ?_, [], rfl, List.not_mem_nil⟩
  have free : ∀ line ∈ ["x = \"\"\"".toList], ¬ ClosesBlock line := by decide
  rw [textLines_source, source]
  exact readBlock_eq_iff.mpr free

end Synopsis.Markdown
