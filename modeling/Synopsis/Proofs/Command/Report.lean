import Synopsis.Proofs.Command.Answers

/-!
# The questions and the files of a report

A report documents the readable ones among the first files that it may document. It asks about the
project, then about the first of those files, and gives to each the answer to its own question.
After a failed answer about the project nothing else is asked; a failed answer about a file leaves
the others as they are. Everything has been asked when the report is written, whether that succeeds
or not.
-/

namespace Synopsis

/-- The files of a project are those that it is made from. -/
theorem Project.files_of_facts {w : Workspace} {root : Location} {files : List String}
    {facts : ProjectFacts} (h : Project.facts w root files = .ok facts) : facts.files = files := by
  simp only [Project.facts, bind, Except.bind] at h
  repeat' split at h
  all_goals cases h
  rfl

namespace Markdown

variable {working : String} {facts : ProjectFacts} {docs : List FileDoc}

theorem exists_shownPaths (working root : String) (h : ∀ doc ∈ docs, doc.record.path ≠ "") :
    ∃ paths, docs.mapM (shownPath working root) = .ok paths := by
  induction docs with
  | nil => exact ⟨[], rfl⟩
  | cons doc docs ih =>
    obtain ⟨paths, hpaths⟩ := ih fun other hother => h other (List.mem_cons_of_mem doc hother)
    have named : ¬ (doc.record.path == "") = true := by simpa using h doc List.mem_cons_self
    rw [List.mapM_cons, hpaths, shownPath, Path.relative?, if_neg named]
    exact ⟨_, rfl⟩

/-- There is a report when the size of the project has a text and every file has a path. -/
theorem exists_report {size : String} (hsize : sizeText facts.totalSize = .ok size)
    (h : ∀ doc ∈ docs, doc.record.path ≠ "") (working : String) (summary : Option String)
    (includeCode : Bool) (generatedAt : String) :
    ∃ text, report working facts summary docs includeCode generatedAt = .ok text := by
  obtain ⟨paths, hpaths⟩ := exists_shownPaths working facts.root h
  rw [report, lines, documentation, hsize, hpaths]
  exact ⟨_, rfl⟩

end Markdown

namespace Command

variable {world after : World} {root : Location} {settings : Settings} {facts : ProjectFacts}

/-! ## The files of a report -/

/-- The files of a project are those that are scanned in its root. -/
theorem scan_of_analyze {depth : Int}
    (analyzed : (analyze root settings depth).run.run world = (.ok facts, after)) :
    world.workspace.scan (Location.text root) depth settings.scan.excludePaths =
      .ok facts.files := by
  obtain ⟨w, _, got, rest⟩ := run_bind_eq_ok.mp analyzed
  cases got
  obtain ⟨files, _, scanned, rest⟩ := run_bind_eq_ok.mp rest
  obtain ⟨scan, rfl⟩ := run_lift_eq_ok.mp scanned
  obtain ⟨_, _, -, rest⟩ := run_bind_eq_ok.mp rest
  obtain ⟨_, _, -, rest⟩ := run_bind_eq_ok.mp rest
  obtain ⟨w, _, got, rest⟩ := run_bind_eq_ok.mp rest
  obtain ⟨found, _, aggregated, rest⟩ := run_bind_eq_ok.mp rest
  obtain ⟨known, -⟩ := run_lift_eq_ok.mp aggregated
  obtain ⟨_, _, -, rest⟩ := run_bind_eq_ok.mp rest
  cases rest
  rw [scan, Project.files_of_facts known]

/-- Whether a path opens a file. -/
def readable (world : World) (path : String) : Bool := (world.workspace.contentOf path).isOk

/-- The record and the content of the file at a path. What is told in the meantime may be found in
the file of the journal. -/
structure Holds (world : World) (path : String) (entry : FileRecord × String) : Prop where
  record : entry.1 = extractFile path entry.2 false
  content : ∀ place bytes,
    Disk.openPath world.workspace.disk world.workspace.working path = .ok place →
    world.OffJournal place → world.workspace.contentOf path = .ok bytes →
    entry.2 = Text.ofFileReplacing bytes

theorem run_extract (path text : String) (withTree : Bool) (world : World) :
    ∃ after, (extract path text withTree).run.run world =
      (.ok (extractFile path text withTree), after) := by
  unfold extract
  dsimp only
  split
  · split
    · exact ⟨_, rfl⟩
    · exact ⟨_, rfl⟩
  · exact ⟨_, rfl⟩

/-- A file is parsed when it can be read, from what was in it at first. -/
theorem run_parseFile {first : World} (alike : World.Alike first.OffJournal first world)
    (path : String) :
    (readable first path = false ∧ ∃ after, (parseFile path).run.run world = (.ok none, after)) ∨
    (readable first path = true ∧ ∃ entry after,
      (parseFile path).run.run world = (.ok (some entry), after) ∧ Holds first path entry) := by
  rw [parseFile, run_bind_ok (run_workspace world)]
  rcases Workspace.contentOf_alike alike path with
    ⟨fault, unread, unread'⟩ | ⟨place, bytes, bytes', opened, read, read', same⟩
  · refine Or.inl ⟨by rw [readable, unread]; rfl, ?_⟩
    rw [unread']
    exact ⟨_, rfl⟩
  · refine Or.inr ⟨by rw [readable, read]; rfl, ?_⟩
    obtain ⟨after, extracted⟩ := run_extract path (Text.ofFileReplacing bytes') false world
    refine ⟨(extractFile path (Text.ofFileReplacing bytes') false, Text.ofFileReplacing bytes'),
      after, ?_, ⟨rfl, ?_⟩⟩
    · rw [read']
      dsimp only
      rw [run_bind_ok extracted, run_pure]
    · intro place' bytes'' opened' off read''
      cases opened.symm.trans opened'
      cases read.symm.trans read''
      rw [same off]

/-- The files that can be read are parsed in their order, and no others. -/
theorem run_mapM_parseFile {first : World} (journaled : first.Journaled) (paths : List String)
    (later : World.Later first world) :
    ∃ found after, (paths.mapM parseFile).run.run world = (.ok found, after) ∧
      List.Forall₂ (Holds first) (paths.filter (readable first)) (found.filterMap id) := by
  induction paths generalizing world with
  | nil => exact ⟨[], world, rfl, .nil⟩
  | cons path paths ih =>
    have kept := (keeps_parseFile path world : OnlyNotices world _).later
    rcases run_parseFile (later journaled).2 path with
      ⟨unread, mid, skipped⟩ | ⟨read, entry, mid, parsed, holds⟩
    · rw [skipped] at kept
      obtain ⟨found, after, run, h⟩ := ih (later.trans kept)
      refine ⟨none :: found, after, ?_, ?_⟩
      · rw [List.mapM_cons, run_bind_ok skipped, run_bind_ok run, run_pure]
      · rw [List.filter_cons_of_neg (by simp [unread])]
        exact h
    · rw [parsed] at kept
      obtain ⟨found, after, run, h⟩ := ih (later.trans kept)
      refine ⟨some entry :: found, after, ?_, ?_⟩
      · rw [List.mapM_cons, run_bind_ok parsed, run_bind_ok run, run_pure]
      · rw [List.filter_cons_of_pos read]
        exact .cons holds h

/-- The files that a report may document, out of the first ones up to a limit. -/
def candidates (files : List String) (limit : Int) : List String :=
  leading limit (files.filter isDocumented)

theorem run_parseFiles {first : World} (journaled : first.Journaled) (files : List String)
    (limit : Int) (later : World.Later first world) :
    ∃ parsed after, (parseFiles files limit).run.run world = (.ok parsed, after) ∧
      List.Forall₂ (Holds first) ((candidates files limit).filter (readable first)) parsed := by
  obtain ⟨found, after, run, h⟩ := run_mapM_parseFile journaled (candidates files limit) later
  exact ⟨_, after, by rw [parseFiles, ← candidates, run_bind_ok run, run_pure], h⟩

/-- What a report documents has a path. -/
theorem path_nonempty {first : World} {paths : List String} {parsed : List (FileRecord × String)}
    (h : List.Forall₂ (Holds first) paths parsed) (named : ∀ path ∈ paths, path ≠ "") :
    ∀ entry ∈ parsed, entry.1.path ≠ "" := by
  induction h with
  | nil => exact fun entry hentry => by cases hentry
  | @cons path entry paths parsed holds _ ih =>
    intro other hother
    rcases List.mem_cons.mp hother with rfl | hother
    · rw [holds.record]
      exact named path List.mem_cons_self
    · exact ih (fun other hother => named other (List.mem_cons_of_mem path hother)) other hother

theorem candidates_nonempty {files : List String} {limit : Int} :
    ∀ path ∈ candidates files limit, path ≠ "" := by
  intro path hpath hempty
  have documented := (List.mem_filter.mp (leading_subset limit _ hpath)).2
  rw [hempty] at documented
  revert documented
  decide

/-! ## The report -/

/-- The files of a report. The file at place `i` has the answer to the question `i + 1`, if as many
were asked. -/
def documented (session : Session) (count : Nat) (parsed : List (FileRecord × String)) :
    List Markdown.FileDoc :=
  parsed.mapIdx fun i (record, content) =>
    { record, content, summary := if i + 1 < count then session.answerTo (i + 1) else none }

theorem docsOf_summaries (session : Session) (count : Nat) (parsed : List (FileRecord × String)) :
    docsOf parsed (summaries session count parsed.length) = documented session count parsed := by
  refine List.ext_getElem (by simp [docsOf, summaries, documented]) fun i hi hi' => ?_
  simp [docsOf, summaries, documented]

/-- The number of files with a summary that is not empty. -/
def countSummarized (docs : List Markdown.FileDoc) : Nat :=
  docs.countP fun doc => doc.summary.getD "" != ""

theorem countP_summaries (session : Session) (count : Nat) (parsed : List (FileRecord × String)) :
    ((summaries session count parsed.length).countP fun summary => summary.getD "" != "") =
      countSummarized (documented session count parsed) := by
  have summaryOf : (documented session count parsed).map (·.summary) =
      summaries session count parsed.length := by
    refine List.ext_getElem (by simp [summaries, documented]) fun i hi hi' => ?_
    simp [summaries, documented]
  rw [← summaryOf, List.countP_map]
  rfl

/-- Writes the text of a report and gives the numbers of files. -/
def deliver (output text : String) (documented summarized : Nat) : Command ExportOutcome := do
  let place ← write output text
  tell (.exported (Location.text place))
  return ⟨place, documented, summarized⟩

theorem run_publish {output text : String} {includeCode : Bool} {session : Session} {count : Nat}
    {parsed : List (FileRecord × String)}
    (rendered : Markdown.report world.workspace.workingText facts (session.answerTo 0)
      (documented session count parsed) includeCode world.now.timestamp = .ok text) :
    (publish output includeCode facts (session.answerTo 0) parsed
        (summaries session count parsed.length)).run.run world =
      (deliver output text parsed.length
        (countSummarized (documented session count parsed))).run.run world := by
  rw [← docsOf_summaries] at rendered
  have length : (docsOf parsed (summaries session count parsed.length)).length = parsed.length := by
    simp [docsOf, summaries]
  rw [publish, run_bind_ok (run_get world), run_bind_ok (run_lift_eq_ok.mpr ⟨rendered, rfl⟩),
    length, countP_summaries]
  rfl

variable {options : ExportOptions} {folder : Location} {scanned : World}

/-- What a report does before it asks. -/
theorem run_report (wanted : options.useModel = true)
    (settled : world.session.runner = some .arranged) (journaled : world.Journaled)
    (located : world.workspace.locate options.path = .ok root)
    (configured : world.workspace.settings (Location.text root) = .ok (folder, settings))
    (enabled : settings.summarizer.enabled = true)
    (analyzed : (analyze root settings exportDepth).run.run world = (.ok facts, scanned)) :
    ∃ parsed asking, OnlyNotices world asking ∧
      List.Forall₂ (Holds world)
        ((candidates facts.files settings.report.maxFiles).filter (readable world)) parsed ∧
      (report options).run.run world =
        (summarizeAll (some .arranged) facts settings.report.maxSummaries parsed >>= fun found =>
          publish options.output options.includeCode facts found.1 parsed found.2).run.run
            asking := by
  have told : OnlyNotices world _ := keeps_analyze root settings exportDepth world
  rw [analyzed] at told
  obtain ⟨parsed, mid, parsing, holds⟩ :=
    run_parseFiles journaled facts.files settings.report.maxFiles told.later
  have told' : OnlyNotices scanned _ :=
    keeps_parseFiles facts.files settings.report.maxFiles scanned
  rw [parsing] at told'
  have told'' : OnlyNotices mid _ := keeps_tell (.parsed parsed.length) mid
  have before := (Lasting.trans told (Lasting.trans told' told'') : OnlyNotices world _)
  generalize hlast : ((tell (.parsed parsed.length)).run.run mid).2 = last at before
  have telling : (tell (.parsed parsed.length)).run.run mid = (.ok (), last) := Prod.ext rfl hlast
  have settled' : last.session.runner = some .arranged := by rw [before.session]; exact settled
  refine ⟨parsed, last.withSession last.session, ?_, holds, ?_⟩
  · exact Lasting.trans before ⟨last.later_withSession _, rfl⟩
  · rw [report, run_bind_ok (run_workspace world),
      run_bind_ok (run_lift_eq_ok.mpr ⟨located, rfl⟩),
      run_bind_ok (run_lift_eq_ok.mpr ⟨configured, rfl⟩), run_bind_ok analyzed,
      run_bind_ok parsing, run_bind_ok telling, wanted, run_bind_ok (run_runner enabled settled')]

/-- A project that is asked about has a report. -/
theorem exists_rendered {limit : Int} {session : Session} {questions : List Question}
    {parsed : List (FileRecord × String)}
    (h : Questions (subjectsOf session facts limit parsed) questions)
    (named : ∀ entry ∈ parsed, entry.1.path ≠ "") (count : Nat) (working : String)
    (includeCode : Bool) (generatedAt : String) :
    ∃ text, Markdown.report working facts (session.answerTo 0) (documented session count parsed)
      includeCode generatedAt = .ok text := by
  cases h with
  | cons hproject _ =>
    obtain ⟨size, hsize⟩ := Subject.exists_question_iff.mp ⟨_, hproject⟩
    refine Markdown.exists_report hsize ?_ _ _ _ _
    intro doc hdoc
    obtain ⟨i, hi, rfl⟩ := List.mem_mapIdx.mp hdoc
    exact named _ (List.getElem_mem hi)

/-- How a report that asks comes about: one question for each subject, in turn, and then the text
with the answers is written. -/
structure Answered (options : ExportOptions) (world : World) (facts : ProjectFacts) (limit : Int)
    (parsed : List (FileRecord × String)) (questions : List Question) (before : World)
    (text : String) : Prop where
  subjects : Questions (subjectsOf world.session facts limit parsed) questions
  asks : Asked questions world before
  /-- The text documents the files in their order, each with its own answer. -/
  rendered : Markdown.report world.workspace.workingText facts (world.session.answerTo 0)
    (documented world.session questions.length parsed) options.includeCode world.now.timestamp =
      .ok text
  /-- Nothing is left to do but to write. -/
  run : (report options).run.run world = (deliver options.output text parsed.length
    (countSummarized (documented world.session questions.length parsed))).run.run before

/-- Where answers are arranged, a report asks about the project and, when there is an answer, about
the first of its files in turn. It documents the readable candidates, each with the answer to its
own question. Only a size of `2 ^ 1023` bytes or more can end it before the text is written. -/
theorem report_answered (wanted : options.useModel = true)
    (settled : world.session.runner = some .arranged) (journaled : world.Journaled)
    (located : world.workspace.locate options.path = .ok root)
    (configured : world.workspace.settings (Location.text root) = .ok (folder, settings))
    (enabled : settings.summarizer.enabled = true)
    (analyzed : (analyze root settings exportDepth).run.run world = (.ok facts, scanned)) :
    world.workspace.scan (Location.text root) exportDepth settings.scan.excludePaths =
        .ok facts.files ∧
      ∃ parsed, List.Forall₂ (Holds world)
          ((candidates facts.files settings.report.maxFiles).filter (readable world)) parsed ∧
        ((∃ questions before text,
            Answered options world facts settings.report.maxSummaries parsed questions before
              text) ∨
          ((∃ subject ∈ subjectsOf world.session facts settings.report.maxSummaries parsed,
              2 ^ 1023 ≤ subject.size) ∧
            ∃ after, (report options).run.run world = (.error (.summary (.size ⟨⟩)), after))) := by
  refine ⟨scan_of_analyze analyzed, ?_⟩
  obtain ⟨parsed, asking, told, holds, run⟩ :=
    run_report wanted settled journaled located configured enabled analyzed
  have answers : asking.session.answerTo = world.session.answerTo := by
    rw [told.session]
    rfl
  have subjects : subjectsOf asking.session facts settings.report.maxSummaries parsed =
      subjectsOf world.session facts settings.report.maxSummaries parsed := by
    rw [subjectsOf, subjectsOf, answers]
  refine ⟨parsed, holds, ?_⟩
  rcases exists_questions (subjectsOf world.session facts settings.report.maxSummaries parsed) with
    ⟨questions, h⟩ | ⟨subject, hmem, fault, hfault⟩
  · obtain ⟨before, summarized, asks⟩ := run_summarizeAll asking (subjects ▸ h)
    rw [run_bind_ok summarized, answers, summaries, answers, ← summaries] at run
    have asks := told.asked.trans asks
    have named := path_nonempty holds fun path hpath =>
      candidates_nonempty path (List.mem_of_mem_filter hpath)
    obtain ⟨text, rendered⟩ := exists_rendered h named questions.length
      world.workspace.workingText options.includeCode world.now.timestamp
    have alike := (asks.later journaled).2
    refine Or.inl ⟨questions, before, text, h, asks, rendered, ?_⟩
    rw [run]
    refine run_publish ?_
    rw [Workspace.workingText, ← alike.working, ← alike.now]
    exact rendered
  · obtain ⟨after, failed⟩ := run_summarizeAll_error asking (subjects ▸ hmem) hfault
    exact Or.inr ⟨⟨subject, hmem, Subject.size_of_question hfault⟩, after,
      run.trans (run_bind_error failed)⟩

/-- A project with a link that leads nowhere, and answers of which the second one is a failure. -/
def answeredProject : World :=
  { workspace :=
      { disk := .folder [("p", .folder [("b.rb", .file "x = 1\n".toUTF8),
          ("a.go", .file "package a\n".toUTF8), ("n.txt", .file .empty), ("c.go", .link "gone")])]
        working := ["p"] }
    now := .day ⟨2024, 5, 17⟩
    session :=
      { runner := some .arranged
        replies := [.ok "All.", .error "offline", .ok "One."] } }

theorem analyze_answeredProject : ∃ folder settings,
    answeredProject.workspace.settings (Location.text ["p"]) = .ok (folder, settings) ∧
      settings.summarizer.enabled = true ∧
      ∃ facts scanned, (analyze ["p"] settings exportDepth).run.run answeredProject =
        (.ok facts, scanned) := by
  have ready : (answeredProject.workspace.settings (Location.text ["p"])).toOption.any (fun found =>
      found.2.summarizer.enabled &&
        ((analyze ["p"] found.2 exportDepth).run.run answeredProject).1.isOk) = true := by
    decide +kernel
  cases configured : answeredProject.workspace.settings (Location.text ["p"]) with
  | error failure =>
    rw [configured] at ready
    cases ready
  | ok found =>
    rw [configured] at ready
    obtain ⟨enabled, analyzed⟩ := Bool.and_eq_true_iff.mp ready
    exact ⟨found.1, found.2, rfl, enabled, exists_run_of_isOk _ _ analyzed⟩

theorem report_answered_answeredProject :
    ∃ (settings : Settings) (facts : ProjectFacts) (parsed : List (FileRecord × String))
      (questions : List Question) (before : World) (text : String),
      answeredProject.workspace.scan (Location.text ["p"]) exportDepth settings.scan.excludePaths =
          .ok facts.files ∧
        List.Forall₂ (Holds answeredProject)
          ((candidates facts.files settings.report.maxFiles).filter (readable answeredProject))
          parsed ∧
        Answered {} answeredProject facts settings.report.maxSummaries parsed questions before
          text := by
  obtain ⟨folder, settings, configured, enabled, facts, scanned, analyzed⟩ :=
    analyze_answeredProject
  have wanted : ({} : ExportOptions).useModel = true := rfl
  have journaled : answeredProject.Journaled := fun journal h => by cases h
  have located : answeredProject.workspace.locate ({} : ExportOptions).path = .ok ["p"] := by
    decide +kernel
  obtain ⟨scan, parsed, holds, answered | ⟨-, after, failed⟩⟩ :=
    report_answered wanted rfl journaled located configured enabled analyzed
  · obtain ⟨questions, before, text, answered⟩ := answered
    exact ⟨settings, facts, parsed, questions, before, text, scan, holds, answered⟩
  · have succeeds : ((report {}).run.run answeredProject).1.isOk = true := by decide +kernel
    rw [failed] at succeeds
    cases succeeds

end Command

end Synopsis
