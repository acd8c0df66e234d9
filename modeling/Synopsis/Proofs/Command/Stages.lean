import Synopsis.Proofs.Command.Run
import Synopsis.Proofs.Output

/-!
# The stages of a command

A command finds out about its subject, asks and makes a text of what it knows, and writes the text
at the end. Until then no file but the journal is touched, and nobody is asked before everything is
found out. This holds in whatever stage a command fails. What the commands find out and what their
texts say is left open here.
-/

namespace Synopsis

namespace World

/-- Nothing was done but to tell and to ask: the worlds differ in their sessions and in the file of
the journal, and without a journal no file differs. -/
structure Untouched (world after : World) : Prop where
  alike : Alike world.OffJournal world after
  still : world.journal = none → after.workspace = world.workspace

/-- The same, as a relation that lasts. -/
structure Idle (world after : World) : Prop where
  later : Later world after
  still : world.journal = none → after.journal = none ∧ after.workspace = world.workspace

theorem Idle.untouched {world after : World} (idle : Idle world after)
    (journaled : world.Journaled) : Untouched world after :=
  ⟨(idle.later journaled).2, fun h => (idle.still h).2⟩

/-- A world that a command can work in. -/
structure Ready (world : World) : Prop where
  standing : world.workspace.Standing
  journaled : world.Journaled

theorem Ready.idle {world after : World} (ready : world.Ready) (idle : Idle world after) :
    after.Ready := by
  obtain ⟨journaled, alike⟩ := idle.later ready.journaled
  obtain ⟨entries, folder⟩ := ready.standing.folder
  have shape : after.workspace.disk.bare = world.workspace.disk.bare := alike.disks.shape.symm
  refine ⟨⟨?_, ?_⟩, journaled⟩
  · rw [← Entry.isTree_bare, shape, Entry.isTree_bare]
    exact ready.standing.tree
  · have isFolder : (after.workspace.disk.at? after.workspace.working).map Entry.isFolder =
        some true := by
      rw [← Entry.map_isFolder_bare, shape, Entry.map_isFolder_bare, ← alike.working, folder]
      rfl
    obtain ⟨entry, hentry, isFolder⟩ := Option.map_eq_some_iff.mp isFolder
    obtain ⟨entries, rfl⟩ := Entry.isFolder_iff.mp isFolder
    exact ⟨entries, hentry⟩

end World

namespace Command

instance : Talking World.Idle where
  refl world := ⟨.refl world, fun h => ⟨h, rfl⟩⟩
  trans h h' := by
    refine ⟨h.later.trans h'.later, fun none => ?_⟩
    obtain ⟨none, first⟩ := h.still none
    obtain ⟨none, second⟩ := h'.still none
    exact ⟨none, second.trans first⟩
  talk part world := by
    refine ⟨world.later_withSession _, fun none => ?_⟩
    rw [run_talk, World.withSession]
    simp only [none, and_self]

/-- The stages of a command: what it finds out, the draft that it makes of that, the text of the
draft and the path to write it to, and how it ends. -/
structure Stages (α : Type) where
  Known : Type
  Draft : Type
  survey : Command Known
  compose : Known → Command Draft
  text : Draft → String
  output : Option String
  finish : Draft → Command α

/-- The stages in turn. -/
def Stages.run {α : Type} (stages : Stages α) : Command α :=
  stages.survey >>= fun known => stages.compose known >>= stages.finish

/-- A project is scanned before it is asked about. -/
def summaryStages (options : SummaryOptions) : Stages Outcome where
  Known := Settings × ProjectFacts
  Draft := String
  survey := do
    let w ← workspace
    let root ← lift .disk (w.locate options.path)
    let (_, settings) ← lift id (w.settings (Location.text root))
    let depth := (options.depth.or settings.scan.maxDepth).getD summaryDepth
    let facts ← analyze root settings depth
    return (settings, facts)
  compose := fun (settings, facts) => do
    let runner ← runner settings options.useModel
    let summary ← summarize runner (.project facts)
    lift .size (Report.ofProject facts summary)
  text := id
  output := options.output.bind Endpoint.nonempty?
  finish text := do return ⟨text, ← writeIf options.output text⟩

/-- A file is read and parsed before it is asked about. -/
def fileStages (options : FileOptions) : Stages Outcome where
  Known := Settings × FileRecord × String
  Draft := String
  survey := do
    let w ← workspace
    let place ← lift .disk (w.locate options.path)
    let content := Text.ofFileReplacing (← lift .disk (w.contentOf (Location.text place)))
    let (_, settings) ← lift id (w.settings (Location.text place.dropLast))
    let record ← extract (Location.text place) content options.showTree
    return (settings, record, content)
  compose := fun (settings, record, content) => do
    let runner ← runner settings options.useModel
    let summary ← summarize runner (.file record content)
    lift .size (Report.ofFile record summary options.showTree)
  text := id
  output := options.output.bind Endpoint.nonempty?
  finish text := do return ⟨text, ← writeIf options.output text⟩

/-- A project is scanned and its files are parsed before anything is asked. -/
def reportStages (options : ExportOptions) : Stages ExportOutcome where
  Known := Settings × ProjectFacts × List (FileRecord × String)
  Draft := String × Nat × Nat
  survey := do
    let w ← workspace
    let root ← lift .disk (w.locate options.path)
    let (_, settings) ← lift id (w.settings (Location.text root))
    let facts ← analyze root settings exportDepth
    let parsed ← parseFiles facts.files settings.report.maxFiles
    tell (.parsed parsed.length)
    return (settings, facts, parsed)
  compose := fun (settings, facts, parsed) => do
    let runner ← runner settings options.useModel
    let (summary, summaries) ← summarizeAll runner facts settings.report.maxSummaries parsed
    let world ← get
    let docs := docsOf parsed summaries
    let text ← lift .report (Markdown.report world.workspace.workingText facts summary docs
      options.includeCode world.now.timestamp)
    return (text, docs.length, summaries.countP fun summary => summary.getD "" != "")
  text draft := draft.1
  output := some options.output
  finish := fun (text, documented, summarized) => do
    let place ← write options.output text
    tell (.exported (Location.text place))
    return ⟨place, documented, summarized⟩

theorem summary_eq_stages (options : SummaryOptions) :
    summary options = (summaryStages options).run := by
  simp [summary, Stages.run, summaryStages, conclude]

theorem describe_eq_stages (options : FileOptions) :
    describe options = (fileStages options).run := by
  simp [describe, Stages.run, fileStages, conclude]

theorem report_eq_stages (options : ExportOptions) :
    report options = (reportStages options).run := by
  simp [report, Stages.run, reportStages, publish]

/-! ## What the stages leave -/

variable {α : Type} {stages : Stages α} {world after : World}

namespace Stages

/-- Stages in which only the last one writes, and only the one before it asks. -/
structure Orderly (stages : Stages α) : Prop where
  tells : Keeps OnlyNotices stages.survey
  surveys : Keeps World.Idle stages.survey
  composes : ∀ known, Keeps World.Idle (stages.compose known)
  keeps : stages.output = none → ∀ draft, ∃ a, stages.finish draft = pure a
  writes : ∀ path, stages.output = some path → ∀ draft, ∃ close : Location → Command α,
    stages.finish draft = write path (stages.text draft) >>= close ∧
      ∀ place, Keeps World.Idle (close place) ∧
        ∀ world, ∃ a after, (close place).run.run world = (.ok a, after)

/-- The draft that a command makes before it writes. -/
structure Drafted (stages : Stages α) (world : World) (draft : stages.Draft) (before : World) :
    Prop where
  made : ∃ known surveyed, stages.survey.run.run world = (.ok known, surveyed) ∧
    (stages.compose known).run.run surveyed = (.ok draft, before)
  untouched : world.Untouched before

/-- How a command can end, and what it leaves. -/
inductive Course (stages : Stages α) (world : World) : Except Failure α → World → Prop
  /-- Something could not be found out. Nobody was asked, and nothing was written. -/
  | unsurveyed {failure : Failure} {after : World} :
      stages.survey.run.run world = (.error failure, after) →
      after.session = { world.session with notices := after.session.notices } →
      world.Untouched after → Course stages world (.error failure) after
  /-- There is no draft. Nothing was written. -/
  | uncomposed {known : stages.Known} {surveyed : World} {failure : Failure} {after : World} :
      stages.survey.run.run world = (.ok known, surveyed) →
      (stages.compose known).run.run surveyed = (.error failure, after) →
      world.Untouched after → Course stages world (.error failure) after
  /-- Nothing was to be written. -/
  | kept {draft : stages.Draft} {before : World} {a : α} :
      stages.Drafted world draft before → stages.output = none →
      Course stages world (.ok a) before
  /-- The path to write to names no place. Nothing was written. -/
  | unlocated {draft : stages.Draft} {before : World} {path : String} {fault : Disk.Fault} :
      stages.Drafted world draft before → stages.output = some path →
      world.workspace.locate path = .error fault →
      Course stages world (.error (.disk fault)) before
  /-- The text could not be written. Folders for it may be left. -/
  | unwritten {draft : stages.Draft} {before : World} {path : String} {target : Location}
      {fault : Disk.Fault} {disk : Entry} :
      stages.Drafted world draft before → stages.output = some path →
      world.workspace.locate path = .ok target →
      before.workspace.Prepared path target disk →
      Course stages world (.error (.disk fault))
        { before with workspace := { before.workspace with disk } }
  /-- The text was written without its escape sequences, and nothing was touched any more. -/
  | written {draft : stages.Draft} {before : World} {path : String} {target : Location}
      {kept : List Char} {disk : Entry} {a : α} {after : World} :
      stages.Drafted world draft before → stages.output = some path →
      world.workspace.locate path = .ok target →
      Stripped (stages.text draft).toList kept →
      before.workspace.Wrote path target (String.ofList kept).toUTF8 disk →
      World.Untouched { before with workspace := { before.workspace with disk } } after →
      Course stages world (.ok a) after

/-- A journal is still kept in a file after a text was written. -/
theorem journaled_of_extends {disk : Entry} (journaled : world.Journaled)
    (grows : Disk.Extends world.workspace.disk disk) :
    World.Journaled { world with workspace := { world.workspace with disk } } := by
  intro journal hjournal
  obtain ⟨bytes, present⟩ := journaled journal hjournal
  obtain ⟨later, hlater, kind⟩ := grows _ _ present
  cases later <;> cases kind
  exact ⟨_, hlater⟩

/-- Orderly stages end in one of these ways. -/
theorem Orderly.course (orderly : stages.Orderly) (ready : world.Ready) :
    Course stages world (stages.run.run.run world).1 (stages.run.run.run world).2 := by
  have told := orderly.tells world
  have idle := orderly.surveys world
  rw [Stages.run]
  rcases survey : stages.survey.run.run world with ⟨failure | known, surveyed⟩
  · rw [run_bind_error survey]
    rw [survey] at told idle
    exact .unsurveyed survey told.session (idle.untouched ready.journaled)
  rw [run_bind_ok survey]
  rw [survey] at idle
  have idle' := Lasting.trans idle (orderly.composes known surveyed)
  rcases compose : (stages.compose known).run.run surveyed with ⟨failure | draft, before⟩
  · rw [run_bind_error compose]
    rw [compose] at idle'
    exact .uncomposed survey compose (idle'.untouched ready.journaled)
  rw [run_bind_ok compose]
  rw [compose] at idle'
  have untouched := idle'.untouched ready.journaled
  have drafted : stages.Drafted world draft before :=
    ⟨⟨known, surveyed, survey, compose⟩, untouched⟩
  have ready' := ready.idle idle'
  cases output : stages.output with
  | none =>
    obtain ⟨a, finish⟩ := orderly.keeps output draft
    rw [finish, run_pure]
    exact .kept drafted output
  | some path =>
    obtain ⟨close, finish, closes⟩ := orderly.writes path output draft
    rw [finish, run_bind, run_write]
    have located := Workspace.locate_alike untouched.alike path
    rcases Workspace.writeOutput_cases ready'.standing path (stages.text draft) with
      ⟨fault, unlocated, failed⟩ | ⟨target, disk, found, ⟨fault, failed, prepared⟩ |
        ⟨kept, wrote, stripped, written⟩⟩
    · rw [failed]
      exact .unlocated drafted output (located.trans unlocated)
    · rw [failed]
      exact .unwritten drafted output (located.trans found) prepared
    · rw [wrote]
      obtain ⟨idle, succeeds⟩ := closes target
      obtain ⟨a, after, closing⟩ := succeeds
        { before with workspace := { before.workspace with disk } }
      have closed := idle { before with workspace := { before.workspace with disk } }
      simp only [Except.mapError, closing] at closed ⊢
      exact .written drafted output (located.trans found) stripped written
        (closed.untouched (journaled_of_extends ready'.journaled written.written.grows))

end Stages

/-! ## The three commands -/

theorem keeps_summary_survey {R : World → World → Prop} [Telling R] (options : SummaryOptions) :
    Keeps R (summaryStages options).survey :=
  .bind .workspace fun _ => .bind (.lift _ _) fun _ => .bind (.lift _ _) fun _ =>
    .bind (keeps_analyze _ _ _) fun _ => .pure _

theorem keeps_file_survey {R : World → World → Prop} [Telling R] (options : FileOptions) :
    Keeps R (fileStages options).survey :=
  .bind .workspace fun _ => .bind (.lift _ _) fun _ => .bind (.lift _ _) fun _ =>
    .bind (.lift _ _) fun _ => .bind (keeps_extract _ _ _) fun _ => .pure _

theorem keeps_report_survey {R : World → World → Prop} [Telling R] (options : ExportOptions) :
    Keeps R (reportStages options).survey :=
  .bind .workspace fun _ => .bind (.lift _ _) fun _ => .bind (.lift _ _) fun _ =>
    .bind (keeps_analyze _ _ _) fun _ => .bind (keeps_parseFiles _ _) fun _ =>
    .bind (keeps_tell _) fun _ => .pure _

/-- Without a path, an outcome is only a text. -/
theorem finish_unwritten {output : Option String} (h : output.bind Endpoint.nonempty? = none)
    (text : String) :
    (do return ⟨text, ← writeIf output text⟩ : Command Outcome) = pure ⟨text, none⟩ := by
  simp [writeIf, h]

theorem finish_written {output : Option String} {path : String}
    (h : output.bind Endpoint.nonempty? = some path) (text : String) :
    (do return ⟨text, ← writeIf output text⟩ : Command Outcome) =
      write path text >>= fun place => pure ⟨text, some place⟩ := by
  simp [writeIf, h]

theorem orderly_summary (options : SummaryOptions) : (summaryStages options).Orderly where
  tells := keeps_summary_survey options
  surveys := keeps_summary_survey options
  composes := fun (_, _) =>
    .bind (keeps_runner _ _) fun _ => .bind (keeps_summarize _ _) fun _ => .lift _ _
  keeps output text := ⟨_, finish_unwritten output text⟩
  writes _ output text := ⟨_, finish_written output text, fun _ =>
    ⟨.pure _, fun world => ⟨_, world, rfl⟩⟩⟩

theorem orderly_file (options : FileOptions) : (fileStages options).Orderly where
  tells := keeps_file_survey options
  surveys := keeps_file_survey options
  composes := fun (_, _, _) =>
    .bind (keeps_runner _ _) fun _ => .bind (keeps_summarize _ _) fun _ => .lift _ _
  keeps output text := ⟨_, finish_unwritten output text⟩
  writes _ output text := ⟨_, finish_written output text, fun _ =>
    ⟨.pure _, fun world => ⟨_, world, rfl⟩⟩⟩

theorem orderly_report (options : ExportOptions) : (reportStages options).Orderly where
  tells := keeps_report_survey options
  surveys := keeps_report_survey options
  composes := fun (_, _, _) =>
    .bind (keeps_runner _ _) fun _ => .bind (keeps_summarizeAll (keeps_summarize _) _ _ _) fun _ =>
      .bind Lasting.refl fun _ => .bind (.lift _ _) fun _ => .pure _
  keeps output draft := by cases output
  writes _ output draft := by
    cases output
    exact ⟨_, rfl, fun _ => ⟨.bind (keeps_tell _) fun _ => .pure _, fun world => ⟨_, _, rfl⟩⟩⟩

/-- A command goes through the stages, and ends in one of the ways in which they can. -/
structure Follows (c : Command α) (stages : Stages α) (world : World) : Prop where
  staged : c = stages.run
  course : stages.Course world (c.run.run world).1 (c.run.run world).2

theorem Stages.Orderly.follows (orderly : stages.Orderly) {c : Command α} (staged : c = stages.run)
    (ready : world.Ready) : Follows c stages world :=
  ⟨staged, staged ▸ orderly.course ready⟩

/-- Whatever is asked for, whoever answers and however it ends: a command finds out about its
subject before it asks, touches no file but the journal until there is a text, and then writes this
text where the path for it leads, below folders that are made if they are missing. -/
theorem commands_write_last (ready : world.Ready) :
    (∀ options, Follows (summary options) (summaryStages options) world) ∧
      (∀ options, Follows (describe options) (fileStages options) world) ∧
      ∀ options, Follows (report options) (reportStages options) world :=
  ⟨fun options => (orderly_summary options).follows (summary_eq_stages options) ready,
    fun options => (orderly_file options).follows (describe_eq_stages options) ready,
    fun options => (orderly_report options).follows (report_eq_stages options) ready⟩

/-- A project with a link for a folder, and a journal beside it. -/
def publishedProject : World :=
  { workspace :=
      { disk := .folder [("p", .folder [("a.go", .file "package a\n".toUTF8),
          ("docs", .link "/site")]), ("site", .folder []), ("log", .file .empty)]
        working := ["p"] }
    now := .day ⟨2024, 5, 17⟩
    session := { runner := some .arranged, replies := [.ok "All.", .error "offline"] }
    journal := some ⟨["log"], .info⟩ }

theorem commands_write_last_publishedProject :
    publishedProject.Ready ∧
      Follows (summary { path := "." }) (summaryStages { path := "." }) publishedProject ∧
      Follows (describe { path := "b.go" }) (fileStages { path := "b.go" }) publishedProject ∧
      Follows (report { output := "docs/en/all.md" }) (reportStages { output := "docs/en/all.md" })
        publishedProject ∧
      (((report { output := "docs/en/all.md" }).run.run publishedProject).2.workspace.disk.fileAt?
        ["site", "en", "all.md"]).isSome = true := by
  have tree : publishedProject.workspace.disk.IsTree := by
    simp only [publishedProject, Entry.IsTree, Entry.AreTrees]
    decide
  have ready : publishedProject.Ready := by
    refine ⟨⟨tree, _, rfl⟩, fun journal h => ?_⟩
    cases h
    exact ⟨.empty, rfl⟩
  obtain ⟨summaries, descriptions, reports⟩ := commands_write_last ready
  exact ⟨ready, summaries _, descriptions _, reports _, by decide +kernel⟩

end Command

end Synopsis
