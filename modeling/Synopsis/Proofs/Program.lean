import Synopsis.Program
import Synopsis.Proofs.Command.Faults

/-!
# What the program makes of a refusal

The system may refuse a file, a folder or a path. Whatever it refuses while the work is done ends
the program with status one and one line that says so, below the notices that were told before. The
file of the journal is opened before the work begins, and if it is refused, the failure is passed
on. What a command passes over, since it can do without, is no refusal here.
-/

namespace Synopsis

open Command

/-! ## Refusals while a job is done -/

/-- What the system refuses when a project is looked up: the settings, or the root of the scan. -/
inductive Unscanned (world : World) (path : String) (depth : Settings → Int) : Failure → Prop
  | settings {root : Location} {failure : Failure} :
      world.workspace.locate path = .ok root →
      world.workspace.settings (Location.text root) = .error failure → failure.OfSystem →
      Unscanned world path depth failure
  | root {root folder : Location} {settings : Settings} {fault : Scan.Fault} :
      world.workspace.locate path = .ok root →
      world.workspace.settings (Location.text root) = .ok (folder, settings) →
      world.workspace.scan (Location.text root) (depth settings) settings.scan.excludePaths =
        .error fault →
      (Failure.scan fault).OfSystem → Unscanned world path depth (.scan fault)

/-- What the system refuses when a file is looked up: its content, or the settings. -/
inductive Unread (world : World) (path : String) : Failure → Prop
  | content {place : Location} {fault : Disk.Fault} :
      world.workspace.locate path = .ok place →
      world.workspace.contentOf (Location.text place) = .error fault → fault.isSystem = true →
      Unread world path (.disk fault)
  | settings {place : Location} {bytes : ByteArray} {failure : Failure} :
      world.workspace.locate path = .ok place →
      world.workspace.contentOf (Location.text place) = .ok bytes →
      world.workspace.settings (Location.text place.dropLast) = .error failure →
      failure.OfSystem → Unread world path failure

/-- There is a draft, and the system refuses to write its text. -/
inductive Command.Stages.Unwritten {α : Type} (stages : Stages α) (world : World) : Failure → Prop
  | intro {known : stages.Known} {surveyed : World} {draft : stages.Draft} {before : World}
      {path : String} {fault : Disk.Fault} :
      stages.survey.run.run world = (.ok known, surveyed) →
      (stages.compose known).run.run surveyed = (.ok draft, before) →
      stages.output = some path →
      (before.workspace.writeOutput path (stages.text draft)).2 = .error fault →
      fault.isSystem = true → stages.Unwritten world (.disk fault)

/-- The depth of the scan for a summary. -/
def summaryDepthOf (options : SummaryOptions) (settings : Settings) : Int :=
  (options.depth.or settings.scan.maxDepth).getD summaryDepth

/-- What the system refuses to a job that is done in a world. -/
def Struck (world : World) (failure : Failure) : Job → Prop
  | .summary options => Unscanned world options.path (summaryDepthOf options) failure ∨
      (summaryStages options).Unwritten world failure
  | .describe options => Unread world options.path failure ∨
      (fileStages options).Unwritten world failure
  | .report options => Unscanned world options.path (fun _ => exportDepth) failure ∨
      (reportStages options).Unwritten world failure

namespace Command

variable {α : Type} {stages : Stages α} {world : World} {failure : Failure}

theorem ofSystem_of_unscanned {path : String} {depth : Settings → Int}
    (unscanned : Unscanned world path depth failure) : failure.OfSystem := by
  cases unscanned with
  | settings _ _ refused => exact refused
  | root _ _ _ refused => exact refused

theorem ofSystem_of_unread {path : String} (unread : Unread world path failure) :
    failure.OfSystem := by
  cases unread with
  | content _ _ isSystem => exact .disk isSystem
  | settings _ _ _ refused => exact refused

theorem Stages.Unwritten.ofSystem (unwritten : stages.Unwritten world failure) :
    failure.OfSystem := by
  cases unwritten with
  | intro _ _ _ _ isSystem => exact .disk isSystem

/-- Orderly stages fail for what the system refuses when they cannot find out or cannot write. -/
theorem Stages.Orderly.fails_iff (orderly : stages.Orderly)
    (composes : ∀ known, Unrefused (stages.compose known)) (refused : failure.OfSystem) :
    Fails stages.run world failure ↔
      Fails stages.survey world failure ∨ stages.Unwritten world failure := by
  rw [Stages.run, fails_bind_iff]
  refine or_congr_right ?_
  constructor
  · rintro ⟨known, surveyed, survey, failed⟩
    rcases fails_bind_iff.mp failed with uncomposed | ⟨draft, before, compose, failed⟩
    · exact absurd refused (composes known surveyed failure uncomposed)
    cases output : stages.output with
    | none =>
      obtain ⟨a, finish⟩ := orderly.keeps output draft
      rw [finish] at failed
      exact absurd failed (not_fails_of_isOk rfl)
    | some path =>
      obtain ⟨close, finish, closes⟩ := orderly.writes path output draft
      rw [finish] at failed
      rcases fails_bind_iff.mp failed with first | ⟨place, mid, -, unclosed⟩
      · obtain ⟨fault, unwritten, rfl⟩ := fails_write_iff.mp first
        cases refused with
        | disk isSystem => exact .intro survey compose output unwritten isSystem
      · obtain ⟨a, closed, closing⟩ := (closes place).2 mid
        have isOk : ((close place).run.run mid).1.isOk = true := by
          rw [closing]
          rfl
        exact absurd unclosed (not_fails_of_isOk isOk)
  · rintro ⟨survey, compose, output, unwritten, -⟩
    rename_i known surveyed draft before path fault
    obtain ⟨close, finish, -⟩ := orderly.writes path output draft
    refine ⟨known, surveyed, survey, fails_bind_iff.mpr (Or.inr ⟨draft, before, compose, ?_⟩)⟩
    rw [finish, fails_bind_iff, fails_write_iff]
    exact Or.inl ⟨fault, unwritten, rfl⟩

/-- What is found out about a project is refused by the system with its settings or its scan. -/
theorem fails_survey_iff (path : String) (depth : Settings → Int)
    (rest : Settings → ProjectFacts → Command α)
    (unrefused : ∀ settings facts, Unrefused (rest settings facts)) (refused : failure.OfSystem) :
    Fails (do
        let w ← workspace
        let root ← lift .disk (w.locate path)
        let (_, settings) ← lift id (w.settings (Location.text root))
        let facts ← analyze root settings (depth settings)
        rest settings facts) world failure ↔ Unscanned world path depth failure := by
  rw [fails_workspace_bind_iff, fails_locate_bind_iff refused]
  constructor
  · rintro ⟨root, located, failed⟩
    rcases fails_lift_bind_iff.mp failed with ⟨_, unsettled, rfl⟩ | ⟨found, settled, failed⟩
    · exact .settings located unsettled refused
    rcases fails_bind_iff.mp failed with unanalyzed | ⟨facts, mid, -, failed⟩
    · obtain ⟨fault, unscanned, rfl⟩ := (fails_analyze_iff refused).mp unanalyzed
      exact .root located settled unscanned refused
    · exact absurd refused (unrefused _ _ mid failure failed)
  · intro unscanned
    cases unscanned with
    | settings located unsettled _ =>
      exact ⟨_, located, fails_lift_bind_iff.mpr (Or.inl ⟨failure, unsettled, rfl⟩)⟩
    | root located settled unscanned _ =>
      refine ⟨_, located, fails_lift_bind_iff.mpr (Or.inr ⟨_, settled, fails_bind_iff.mpr ?_⟩)⟩
      exact Or.inl ((fails_analyze_iff refused).mpr ⟨_, unscanned, rfl⟩)

theorem fails_summary_survey_iff {options : SummaryOptions} (refused : failure.OfSystem) :
    Fails (summaryStages options).survey world failure ↔
      Unscanned world options.path (summaryDepthOf options) failure :=
  fails_survey_iff options.path (summaryDepthOf options)
    (fun settings facts => pure (settings, facts)) (fun _ _ => .pure _) refused

theorem fails_report_survey_iff {options : ExportOptions} (refused : failure.OfSystem) :
    Fails (reportStages options).survey world failure ↔
      Unscanned world options.path (fun _ => exportDepth) failure :=
  fails_survey_iff options.path (fun _ => exportDepth)
    (fun settings facts => do
      let parsed ← parseFiles facts.files settings.report.maxFiles
      tell (.parsed parsed.length)
      return (settings, facts, parsed))
    (fun _ _ => .bind (unrefused_parseFiles _ _) fun _ => .bind (.talk _) fun _ => .pure _) refused

/-- What is found out about a file is refused by the system with the file or its settings. -/
theorem fails_file_survey_iff {options : FileOptions} (refused : failure.OfSystem) :
    Fails (fileStages options).survey world failure ↔ Unread world options.path failure := by
  rw [fileStages, fails_workspace_bind_iff, fails_locate_bind_iff refused]
  constructor
  · rintro ⟨place, located, failed⟩
    rcases fails_lift_bind_iff.mp failed with ⟨fault, unread, rfl⟩ | ⟨bytes, content, failed⟩
    · cases refused with
      | disk isSystem => exact .content located unread isSystem
    rcases fails_lift_bind_iff.mp failed with ⟨_, unsettled, rfl⟩ | ⟨found, -, failed⟩
    · exact .settings located content unsettled refused
    · have unrefused : Unrefused (do
          let record ← extract (Location.text place) (Text.ofFileReplacing bytes) options.showTree
          return (found.2, record, Text.ofFileReplacing bytes)) :=
        .bind (unrefused_extract _ _ _) fun _ => .pure _
      exact absurd refused (unrefused world failure failed)
  · intro unread
    cases unread with
    | content located unread _ =>
      exact ⟨_, located, fails_lift_bind_iff.mpr (Or.inl ⟨_, unread, rfl⟩)⟩
    | settings located content unsettled _ =>
      refine ⟨_, located, fails_lift_bind_iff.mpr (Or.inr ⟨_, content, ?_⟩)⟩
      exact fails_lift_bind_iff.mpr (Or.inl ⟨failure, unsettled, rfl⟩)

end Command

theorem Struck.ofSystem {world : World} {failure : Failure} {job : Job}
    (struck : Struck world failure job) : failure.OfSystem := by
  cases job with
  | summary options => exact struck.elim ofSystem_of_unscanned Stages.Unwritten.ofSystem
  | describe options => exact struck.elim ofSystem_of_unread Stages.Unwritten.ofSystem
  | report options => exact struck.elim ofSystem_of_unscanned Stages.Unwritten.ofSystem

namespace Program

variable {world : World} {job : Job} {failure : Failure}

/-- A command in orderly stages is refused something when it finds out or when it writes, and not
when its outcome is printed. -/
theorem fails_printed_iff {α : Type} {c : Command α} {stages : Stages α} {print : α → String}
    {Unfound : Prop} (staged : c = stages.run) (orderly : stages.Orderly)
    (composes : ∀ known, Unrefused (stages.compose known)) (refused : failure.OfSystem)
    (surveys : Fails stages.survey world failure ↔ Unfound) :
    Fails (do return print (← c)) world failure ↔ Unfound ∨ stages.Unwritten world failure := by
  have printed : ¬ ∃ a mid, c.run.run world = (.ok a, mid) ∧
      Fails (pure (print a) : Command String) mid failure := by
    rintro ⟨a, mid, -, failed⟩
    exact not_fails_of_isOk rfl failed
  rw [fails_bind_iff, or_iff_left printed, staged, orderly.fails_iff composes refused, surveys]

/-- A job fails for what the system refuses exactly if the system refuses something to it. -/
theorem fails_perform_iff (refused : failure.OfSystem) :
    Fails (perform job) world failure ↔ Struck world failure job := by
  rw [perform, fails_workspace_bind_iff]
  cases job with
  | summary options =>
    exact fails_printed_iff (summary_eq_stages options) (orderly_summary options)
      (unrefused_summary_compose options) refused (fails_summary_survey_iff refused)
  | describe options =>
    exact fails_printed_iff (describe_eq_stages options) (orderly_file options)
      (unrefused_file_compose options) refused (fails_file_survey_iff refused)
  | report options =>
    exact fails_printed_iff (report_eq_stages options) (orderly_report options)
      (unrefused_report_compose options) refused (fails_report_survey_iff refused)

/-! ## Refusals to the program -/

variable {invocation : Invocation} {opened : World} {fault : Disk.Fault}

/-- The system refuses the file of the journal. -/
def JournalRefused (invocation : Invocation) (world : World) (fault : Disk.Fault) : Prop :=
  fault.isSystem = true ∧ ∃ path, invocation.logFile = some path ∧
    journalSlot world.workspace path = .error fault

/-- The work is done in the second world: the first one, with a journal if one is wanted. -/
inductive Opened (invocation : Invocation) (world : World) : World → Prop
  | plain : invocation.logFile = none → Opened invocation world world
  | journal {path : String} {opened : World} : invocation.logFile = some path →
      (openJournal path (leastLevel invocation.verbose)).run.run world = (.ok (), opened) →
      Opened invocation world opened

/-- What the system refuses when an invocation is carried out, be it the file of the journal. -/
inductive Refused (invocation : Invocation) (world : World) : Failure → Prop
  | journal {fault : Disk.Fault} : JournalRefused invocation world fault →
      Refused invocation world (.disk fault)
  | work {opened : World} {failure : Failure} : Opened invocation world opened →
      Struck opened failure invocation.job → Refused invocation world failure

/-- Whatever the system refuses ends the program with status one and is told in one line, and no
such failure is passed on. -/
structure Guarded (arguments : List String) (invocation : Invocation) (world : World) : Prop where
  told : ∀ failure, Refused invocation world failure → ∃ after, run arguments world =
    (.ok ⟨1, "", noticeText (leastLevel invocation.verbose) after.session.notices ++
      "Error: " ++ failure.message ++ "\n"⟩, after)
  contained : ∀ failure, failure.OfSystem → (run arguments world).1 ≠ .error failure

theorem run_openJournal_error {path : String} {least : Level}
    (refused : journalSlot world.workspace path = .error fault) :
    (openJournal path least).run.run world = (.error (.disk fault), world) := by
  rw [openJournal, run_bind_ok (run_workspace world), refused]
  exact run_bind_error (run_lift_error _ _ _)

theorem run_openJournal_ok {path : String} {least : Level} {slot : Location}
    (found : journalSlot world.workspace path = .ok slot) :
    ∃ opened, (openJournal path least).run.run world = (.ok (), opened) := by
  rw [openJournal, run_bind_ok (run_workspace world), found, run_bind_ok (run_lift_ok _ _ _)]
  exact ⟨_, rfl⟩

/-- A journal is opened, or its file is refused. -/
theorem opened_or_refused (invocation : Invocation) (world : World) :
    (∃ opened, Opened invocation world opened) ∨ ∃ path fault, invocation.logFile = some path ∧
      journalSlot world.workspace path = .error fault := by
  cases logged : invocation.logFile with
  | none => exact Or.inl ⟨world, .plain logged⟩
  | some path =>
    cases found : journalSlot world.workspace path with
    | error fault => exact Or.inr ⟨path, fault, rfl, found⟩
    | ok slot =>
      obtain ⟨opened, opening⟩ := run_openJournal_ok found
      exact Or.inl ⟨opened, .journal logged opening⟩

/-- A failure to open the journal is passed on, whatever it is. -/
theorem carryOut_of_refused {path : String} (logged : invocation.logFile = some path)
    (refused : journalSlot world.workspace path = .error fault) :
    carryOut invocation world = (.error (.disk fault), world) := by
  simp only [carryOut, logged, run_openJournal_error refused]

theorem carryOut_of_opened (opening : Opened invocation world opened) :
    carryOut invocation world =
      concluded (leastLevel invocation.verbose) ((perform invocation.job).run.run opened) := by
  cases opening with
  | plain unlogged => simp only [carryOut, unlogged]
  | journal logged opening => simp only [carryOut, logged, opening]

/-- A failure is told in one line if it is one that users are told of. -/
theorem concluded_of_fails {least : Level} {c : Command String} (failed : Fails c world failure)
    (reported : failure.isReported = true) : ∃ after, concluded least (c.run.run world) =
      (.ok ⟨1, "", noticeText least after.session.notices ++ "Error: " ++ failure.message ++ "\n"⟩,
        after) := by
  obtain ⟨after, failed⟩ := failed
  exact ⟨after, by rw [failed, concluded, if_pos reported]⟩

theorem not_reported_of_concluded {least : Level} {ended : Except Failure String × World}
    (passed : (concluded least ended).1 = .error failure) : failure.isReported = false := by
  rcases ended with ⟨other | text, after⟩
  · by_cases reported : other.isReported = true
    · rw [concluded, if_pos reported] at passed
      cases passed
    · rw [concluded, if_neg reported] at passed
      cases passed
      simpa using reported
  · cases passed

/-- What the system refuses to the job is told in one line. -/
theorem carryOut_of_struck (opening : Opened invocation world opened)
    (struck : Struck opened failure invocation.job) : ∃ after, carryOut invocation world =
      (.ok ⟨1, "", noticeText (leastLevel invocation.verbose) after.session.notices ++
        "Error: " ++ failure.message ++ "\n"⟩, after) := by
  have refused := struck.ofSystem
  have failed : Fails (perform invocation.job) opened failure :=
    (fails_perform_iff refused).mpr struck
  rw [carryOut_of_opened opening]
  exact concluded_of_fails failed refused.isReported

/-- Only the file of the journal is refused in such a way that the failure is passed on. -/
theorem journalRefused_of_escaped (refused : failure.OfSystem)
    (escaped : (carryOut invocation world).1 = .error failure) :
    ∃ fault, JournalRefused invocation world fault := by
  rcases opened_or_refused invocation world with
    ⟨opened, opening⟩ | ⟨path, fault, logged, unopened⟩
  · rw [carryOut_of_opened opening] at escaped
    have unreported := not_reported_of_concluded escaped
    rw [refused.isReported] at unreported
    cases unreported
  · rw [carryOut_of_refused logged unopened] at escaped
    cases escaped
    cases refused with
    | disk isSystem => exact ⟨fault, isSystem, path, logged, unopened⟩

/-- The program deals with whatever the system refuses as long as it does not refuse the file of the
journal. That failure is passed on. -/
theorem guarded_iff (arguments : List String) (invocation : Invocation) (world : World)
    (read : Invocation.read arguments = .ok invocation) :
    (Guarded arguments invocation world ↔ ∀ fault, ¬ JournalRefused invocation world fault) ∧
      ∀ fault, JournalRefused invocation world fault →
        run arguments world = (.error (.disk fault), world) := by
  have begun : run arguments world = carryOut invocation world := by rw [run, read]
  have passed : ∀ fault, JournalRefused invocation world fault →
      run arguments world = (.error (.disk fault), world) := by
    rintro fault ⟨-, path, logged, refused⟩
    rw [begun, carryOut_of_refused logged refused]
  refine ⟨⟨?_, ?_⟩, passed⟩
  · intro guarded fault refused
    have escaped : (run arguments world).1 = .error (.disk fault) := by rw [passed fault refused]
    exact guarded.contained _ (.disk refused.1) escaped
  · intro unrefused
    constructor
    · intro failure refused
      rw [begun]
      cases refused with
      | journal refused => exact absurd refused (unrefused _)
      | work opening struck => exact carryOut_of_struck opening struck
    · intro failure refused escaped
      rw [begun] at escaped
      obtain ⟨fault, refused⟩ := journalRefused_of_escaped refused escaped
      exact unrefused fault refused

/-- A project of one file in which nobody has made a folder for journals. -/
def journallessProject : World :=
  { workspace := { disk := .folder [("p", .folder [("a.py", .file .empty)])], working := ["p"] }
    now := .day ⟨2024, 5, 17⟩ }

theorem guarded_iff_journallessProject :
    Guarded ["module", "b.py"] ⟨false, none, .describe { path := "b.py" }⟩ journallessProject ∧
      run ["--log-file", "logs/run.log", "summary", "."] journallessProject =
        (.error (.disk (.system .missing "/p/logs/run.log")), journallessProject) := by
  constructor
  · refine (guarded_iff _ _ journallessProject rfl).1.mpr ?_
    rintro fault ⟨-, path, ⟨⟩, -⟩
  · refine (guarded_iff _ ⟨false, some "logs/run.log", .summary { path := "." }⟩ _ rfl).2 _ ?_
    exact ⟨rfl, "logs/run.log", rfl, by decide +kernel⟩

/-- A journal in a folder that is missing is refused, and the failure is passed on. -/
theorem journallessProject_unguarded :
    Invocation.read ["--log-file", "logs/run.log", "summary", "."] =
        .ok ⟨false, some "logs/run.log", .summary { path := "." }⟩ ∧
      ¬ Guarded ["--log-file", "logs/run.log", "summary", "."]
        ⟨false, some "logs/run.log", .summary { path := "." }⟩ journallessProject := by
  have escaped : (run ["--log-file", "logs/run.log", "summary", "."] journallessProject).1 =
      .error (.disk (.system .missing "/p/logs/run.log")) := by decide +kernel
  exact ⟨rfl, fun guarded => guarded.contained _ (.disk rfl) escaped⟩

/-- A missing file that is to be described is told of. -/
example : (run ["module", "b.py"] journallessProject).1 =
    .ok ⟨1, "", "Error: [Errno 2] No such file or directory: '/p/b.py'\n"⟩ := by decide +kernel

end Program

end Synopsis
