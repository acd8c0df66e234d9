import Synopsis.Proofs.Disk.Spelling
import Synopsis.Proofs.Text.Lines
import Synopsis.Report.Console

/-!
# Summaries in reports for the console

A summary is a text of which nothing is known. In a report it stands under a heading of its own, at
one place, line by line after two blanks. Whatever ends a line anywhere ends a line of the summary
too, so none of its lines comes to stand at the left, where rules, headings and dividers are. The
title of a report is indented as well, and a summary may hold a line that looks like it.
-/

namespace Synopsis

namespace Text

theorem newlinePieces_of_notMem {line : String} (plain : '\n' ∉ line.toList) :
    newlinePieces line = [line] := by
  rw [newlinePieces, splitOn_of_notMem plain, List.map_singleton, String.ofList_toList]

/-- The lines of joined texts are those of the texts. -/
theorem newlinePieces_join {texts : List String} (nonempty : texts ≠ []) :
    newlinePieces (join "\n" texts) = texts.flatMap newlinePieces := by
  induction texts with
  | nil => exact absurd rfl nonempty
  | cons text rest ih =>
    cases rest with
    | nil => simp [join, String.intercalate_singleton]
    | cons next rest =>
      have joined : (join "\n" (text :: next :: rest)).toList =
          text.toList ++ '\n' :: (join "\n" (next :: rest)).toList := by
        simp [join, String.intercalate_cons_cons]
      rw [newlinePieces, joined, splitOn_between, List.map_append, ← newlinePieces, ← newlinePieces,
        ih (List.cons_ne_nil next rest)]
      rfl

/-- Whatever ends a line anywhere, no line has a newline in it. -/
theorem newline_notMem_of_mem_splitLines {line cs : List Char} (h : line ∈ splitLines cs) :
    '\n' ∉ line := by
  intro newline
  have inner := singleLine_of_mem_splitLines h '\n' newline
  cases inner

end Text

namespace Report

open Text

/-- A line that starts with two blanks. -/
def IsIndented (line : String) : Prop := "  ".toList <+: line.toList

instance (line : String) : Decidable (IsIndented line) :=
  inferInstanceAs (Decidable (_ <+: _))

/-- The lines of a report that are not indented. -/
def outerLines (report : String) : List String :=
  (newlinePieces report).filter (¬ IsIndented ·)

variable {text other : String} {summary : Option String}
  {report : Option String → Except SizeOverflow String}

/-! ## The lines of a summary -/

theorem isIndented_of_mem_indented {line : String} (h : line ∈ indented text) :
    IsIndented line := by
  obtain ⟨own, -, rfl⟩ := List.mem_map.mp h
  rw [IsIndented, String.toList_append]
  exact List.prefix_append _ _

theorem newlinePieces_of_mem_indented {line : String} (h : line ∈ indented text) :
    newlinePieces line = [line] := by
  obtain ⟨own, inside, rfl⟩ := List.mem_map.mp h
  refine newlinePieces_of_notMem ?_
  simpa using newline_notMem_of_mem_splitLines inside

/-- The section of a text: a heading, a divider, the lines of the text and an empty line. -/
def summaryLines (text : String) : List String := "AI Summary" :: divider :: indented text ++ [""]

theorem lines_summarySection (nonempty : text ≠ "") :
    (summarySection (some text)).flatMap Section.lines = summaryLines text := by
  simp [summarySection, sectionIf, nonempty, Section.lines, summaryLines]

theorem newlinePieces_summaryLines (text : String) :
    (summaryLines text).flatMap newlinePieces = summaryLines text := by
  have heading : newlinePieces "AI Summary" = ["AI Summary"] := by decide +kernel
  have under : newlinePieces divider = [divider] := by decide +kernel
  have own : (indented text).flatMap newlinePieces = indented text := by
    rw [List.flatMap_congr fun line inside => newlinePieces_of_mem_indented inside,
      List.flatMap_singleton']
  have last : newlinePieces "" = [""] := by decide +kernel
  simp only [summaryLines, List.flatMap_cons, List.flatMap_append, heading, under, own, last,
    List.flatMap_nil, List.cons_append, List.nil_append, List.append_nil]

/-! ## Reports around a summary -/

/-- What stands before and after the section of a summary is the same for all summaries. -/
def Frames (report : Option String → Except SizeOverflow String) : Prop :=
  (∃ fault, ∀ summary, report summary = .error fault) ∨
    ∃ title front back, ∀ summary,
      report summary = .ok (join "\n" (layout title (front ++ summarySection summary ++ back)))

theorem projectSections_eq (facts : ProjectFacts) (summary : Option String) :
    projectSections facts summary =
      (projectSections facts none).map (summarySection summary ++ ·) := by
  unfold projectSections
  cases statistics facts with
  | error fault => rfl
  | ok counts =>
    have none : summarySection .none = [] := rfl
    simp only [bind, Except.bind, pure, Except.pure, Except.map, none, List.nil_append,
      List.append_assoc]

theorem frames_ofProject (facts : ProjectFacts) : Frames (ofProject facts) := by
  cases others : projectSections facts none with
  | error fault =>
    refine Or.inl ⟨fault, fun summary => ?_⟩
    rw [ofProject, projectSections_eq, others]
    rfl
  | ok back =>
    refine Or.inr ⟨"Project: " ++ facts.name, [], back, fun summary => ?_⟩
    rw [ofProject, projectSections_eq, others]
    rfl

theorem frames_ofFile (record : FileRecord) (showTree : Bool) :
    Frames fun summary => ofFile record summary showTree := by
  cases told : fileInfo record with
  | error fault =>
    refine Or.inl ⟨fault, fun summary => ?_⟩
    simp only [ofFile, told]
    rfl
  | ok info =>
    refine Or.inr ⟨"File: " ++ record.name, [info],
      factSections record.facts ++ errorSection record.parseError ++
        treeSection showTree record.tree, fun summary => ?_⟩
    simp only [ofFile, told, List.append_assoc]
    rfl

/-- The lines of a report before and after those of its summary. -/
theorem Frames.pieces (frames : Frames report) :
    (∃ fault, ∀ summary, report summary = .error fault) ∨
      ∃ front back, (report none).map newlinePieces = .ok (front ++ back) ∧
        ∀ text ≠ "", (report (some text)).map newlinePieces =
          .ok (front ++ summaryLines text ++ back) := by
  refine frames.imp_right ?_
  rintro ⟨title, before, after, shown⟩
  have cut (middle : List Section) :
      newlinePieces (join "\n" (layout title (before ++ middle ++ after))) =
        ([rule, "  " ++ title, rule, ""] ++ before.flatMap Section.lines).flatMap newlinePieces ++
          (middle.flatMap Section.lines).flatMap newlinePieces ++
          (after.flatMap Section.lines ++ [rule]).flatMap newlinePieces := by
    rw [newlinePieces_join (by simp [layout])]
    simp only [layout, List.flatMap_append, List.append_assoc]
  refine ⟨([rule, "  " ++ title, rule, ""] ++ before.flatMap Section.lines).flatMap newlinePieces,
    (after.flatMap Section.lines ++ [rule]).flatMap newlinePieces, ?_, fun text nonempty => ?_⟩
  · rw [shown, Except.map, cut, summarySection, List.flatMap_nil, List.flatMap_nil, List.append_nil]
  · rw [shown, Except.map, cut, lines_summarySection nonempty, newlinePieces_summaryLines]

theorem outerLines_summaryLines (text : String) :
    (summaryLines text).filter (¬ IsIndented ·) = ["AI Summary", divider, ""] := by
  have own : (indented text).filter (¬ IsIndented ·) = [] :=
    List.filter_eq_nil_iff.mpr fun line inside outside =>
      of_decide_eq_true outside (isIndented_of_mem_indented inside)
  have heading : ¬ IsIndented "AI Summary" := by decide +kernel
  have under : ¬ IsIndented divider := by decide +kernel
  have last : ¬ IsIndented "" := by decide +kernel
  rw [summaryLines, List.filter_append, List.filter_cons_of_pos (by simpa using heading),
    List.filter_cons_of_pos (by simpa using under), own, List.filter_cons_of_pos
      (by simpa using last)]
  rfl

/-! ## Any two summaries -/

/-- Two texts as the summary of a report. -/
structure Confines (report : Option String → Except SizeOverflow String) (text other : String) :
    Prop where
  /-- Both give a report with the same lines but for indented ones, or none for the same reason. -/
  same : (report (some text)).map outerLines = (report (some other)).map outerLines
  /-- Beside the report without a summary there is a section more, of indented lines. -/
  added : ∀ plain, report none = .ok plain → ∃ front lines back,
    newlinePieces plain = front ++ back ∧
      (report (some text)).map newlinePieces =
        .ok (front ++ ("AI Summary" :: divider :: lines ++ [""]) ++ back) ∧
      ∀ line ∈ lines, IsIndented line

theorem Frames.confines (frames : Frames report) (nonempty : text ≠ "") (nonempty' : other ≠ "") :
    Confines report text other := by
  rcases frames.pieces with ⟨fault, fails⟩ | ⟨front, back, without, shown⟩
  · exact ⟨by rw [fails, fails], fun plain told => by rw [fails] at told; cases told⟩
  · constructor
    · have outer (text : String) (nonempty : text ≠ "") :
          (report (some text)).map outerLines = .ok (front.filter (¬ IsIndented ·) ++
            ["AI Summary", divider, ""] ++ back.filter (¬ IsIndented ·)) := by
        have cut : (report (some text)).map outerLines =
            ((report (some text)).map newlinePieces).map (List.filter (¬ IsIndented ·)) := by
          cases report (some text) <;> rfl
        rw [cut, shown text nonempty, Except.map, List.filter_append, List.filter_append,
          outerLines_summaryLines]
      rw [outer text nonempty, outer other nonempty']
    · intro plain told
      rw [told] at without
      exact ⟨front, indented text, back, Except.ok.inj without, shown text nonempty,
        fun _ => isIndented_of_mem_indented⟩

/-- Whatever two texts a summary may be, reports of a project, and of a file with or without its
syntax tree, have the same lines at the left for both, and a summary adds none there but the
heading, the divider and the empty line of its section. -/
theorem summaries_stay_indented {text other : String} (nonempty : text ≠ "")
    (nonempty' : other ≠ "") :
    (∀ facts, Confines (ofProject facts) text other) ∧
      ∀ record showTree, Confines (fun summary => ofFile record summary showTree) text other :=
  ⟨fun facts => (frames_ofProject facts).confines nonempty nonempty',
    fun record showTree => (frames_ofFile record showTree).confines nonempty nonempty'⟩

/-- A file without anything in it. -/
def emptyFile : FileRecord :=
  { path := "/p/a.js", name := "a.js", extension := ".js", lines := 1, size := 0 }

/-- A text that would end the report and begin another one if its line ends were not seen. -/
def forgedSummary : String :=
  "All.\r\x0b" ++ rule ++ "\u2028Statistics\r\n" ++ divider ++ "\u0085"

theorem summaries_stay_indented_forgedSummary :
    forgedSummary ≠ "" ∧ "-" ≠ "" ∧
      Confines (fun summary => ofFile emptyFile summary false) forgedSummary "-" := by
  have nonempty : forgedSummary ≠ "" := by decide +kernel
  have nonempty' : "-" ≠ "" := by decide
  exact ⟨nonempty, nonempty', (summaries_stay_indented nonempty nonempty').2 emptyFile false⟩

end Report

end Synopsis
