import Synopsis.Proofs.Command.History
import Synopsis.Proofs.Command.Report

/-!
# The limits of a report

Whoever answers, and however the questions are answered, a report reads no more files than the first
limit leaves of those that it may document, and asks at most about the project and about as many of
the files read as the second limit leaves. A negative limit leaves all but so many, and so is no
bound by itself. Which answers make a summary is left open here.
-/

namespace Synopsis

/-- The questions about a subject: one, unless a size has no text. -/
def Subject.asks (subject : Subject) : List Question := subject.question.toOption.toList

namespace Runner

/-- The questions among those asked that reach arranged answers. -/
def reached : Runner → List Question → List Question
  | .arranged, asked => asked
  | .endpoint _, _ => []

/-- The requests for the questions asked. -/
def sent : Runner → List Question → List Request
  | .arranged, _ => []
  | .endpoint e, asked => asked.filterMap fun question => (e.request question).toOption

theorem reached_append (who : Runner) (asked more : List Question) :
    who.reached (asked ++ more) = who.reached asked ++ who.reached more := by
  cases who <;> rfl

theorem sent_append (who : Runner) (asked more : List Question) :
    who.sent (asked ++ more) = who.sent asked ++ who.sent more := by
  cases who with
  | arranged => rfl
  | endpoint e => exact List.filterMap_append

theorem reached_nil (who : Runner) : who.reached [] = [] := by
  cases who <;> rfl

theorem sent_nil (who : Runner) : who.sent [] = [] := by
  cases who <;> rfl

end Runner

namespace Command

/-- In the meantime these questions were asked, of one who answers, and no others of anybody. -/
structure Heard (who : Runner) (asked : List Question) (world after : World) : Prop where
  questions : after.session.questions = world.session.questions ++ who.reached asked
  requests : after.session.requests = world.session.requests ++ who.sent asked

namespace Heard

variable {who : Runner} {asked more : List Question} {world mid after : World}

theorem trans (h : Heard who asked world mid) (h' : Heard who more mid after) :
    Heard who (asked ++ more) world after where
  questions := by rw [h'.questions, h.questions, who.reached_append, List.append_assoc]
  requests := by rw [h'.requests, h.requests, who.sent_append, List.append_assoc]

/-- Nothing was asked where the session has the same questions and requests. -/
theorem unheard (who : Runner) (questions : after.session.questions = world.session.questions)
    (requests : after.session.requests = world.session.requests) : Heard who [] world after where
  questions := by rw [questions, who.reached_nil, List.append_nil]
  requests := by rw [requests, who.sent_nil, List.append_nil]

instance : Telling (Heard who []) where
  refl _ := unheard who rfl rfl
  trans h h' := h.trans h'
  tell _ _ := unheard who rfl rfl

end Heard

variable {world : World}

/-! ## Asking -/

theorem heard_ask (who : Runner) (question : Question) (session : Session) :
    ((Session.ask who question).run session).2.questions =
        session.questions ++ who.reached [question] ∧
      ((Session.ask who question).run session).2.requests =
        session.requests ++ who.sent [question] := by
  cases who with
  | arranged => exact ⟨rfl, (List.append_nil _).symm⟩
  | endpoint e =>
    simp only [Session.ask, Session.askEndpoint, Runner.reached, Runner.sent]
    cases requested : e.request question with
    | error fault =>
      rw [List.filterMap_cons_none (by rw [requested]; rfl), List.filterMap_nil]
      exact ⟨(List.append_nil _).symm, (List.append_nil _).symm⟩
    | ok request =>
      rw [List.filterMap_cons_some (by rw [requested]; rfl), List.filterMap_nil]
      exact ⟨(List.append_nil _).symm, rfl⟩

/-- About a subject its question is asked and nothing else, whatever the answer is. -/
theorem heard_summarize (who : Runner) (subject : Subject) (world : World) :
    Heard who subject.asks world ((summarize (some who) subject).run.run world).2 := by
  have talked : ((summarize (some who) subject).run.run world).2 =
      world.withSession ((Summary.of who subject).run.run world.session).2 := by
    rw [summarize, run_bind_ok (run_talk _ _)]
    cases ((Summary.of who subject).run.run world.session).1 <;> rfl
  rw [talked]
  cases question : subject.question with
  | error fault =>
    rw [Summary.run_of_error question, Subject.asks, question]
    exact Heard.unheard who rfl rfl
  | ok question' =>
    obtain ⟨questions, requests⟩ := heard_ask who question' world.session
    rw [Subject.asks, question]
    rcases answered : (Session.ask who question').run world.session with ⟨fault | text, later⟩
    · rw [answered] at questions requests
      cases tolerated : fault.isTolerated with
      | true =>
        rw [Summary.run_of_refused question answered tolerated]
        exact ⟨questions, requests⟩
      | false =>
        rw [Summary.run_of_failed question answered tolerated]
        exact ⟨questions, requests⟩
    · rw [answered] at questions requests
      rw [Summary.run_of_ok question answered]
      exact ⟨questions, requests⟩

/-- About subjects in turn it is asked until one of them fails. -/
theorem heard_mapM_summarize (who : Runner) (subjects : List Subject) (world : World) :
    ∃ about, about <+: subjects ∧ Heard who (about.flatMap Subject.asks) world
      ((subjects.mapM (summarize (some who))).run.run world).2 := by
  induction subjects generalizing world with
  | nil => exact ⟨[], List.prefix_rfl, Heard.unheard who rfl rfl⟩
  | cons subject subjects ih =>
    have first := heard_summarize who subject world
    rw [List.mapM_cons]
    rcases run : (summarize (some who) subject).run.run world with ⟨failure | summary, mid⟩
    · refine ⟨[subject], ⟨subjects, rfl⟩, ?_⟩
      rw [run] at first
      rw [List.flatMap_singleton, run_bind_error run]
      exact first
    · obtain ⟨about, front, rest⟩ := ih mid
      refine ⟨subject :: about, List.cons_prefix_cons.mpr ⟨rfl, front⟩, ?_⟩
      rw [run] at first
      rw [List.flatMap_cons, run_bind_ok run, after_bind_pure]
      exact first.trans rest

/-- What a report asks about: nothing, or the project and then some of its files, the first ones of
those that the limit leaves. -/
inductive AskedAbout (limit : Int) (parsed : List (FileRecord × String)) : List Subject → Prop
  | nothing : AskedAbout limit parsed []
  | project (facts : ProjectFacts) {files : List Subject} :
      files <+: leadingFiles limit parsed → AskedAbout limit parsed (.project facts :: files)

theorem AskedAbout.length_tail_le {limit : Int} {parsed : List (FileRecord × String)}
    {about : List Subject} (asked : AskedAbout limit parsed about) :
    about.tail.length ≤ allowed limit parsed.length := by
  cases asked with
  | nothing => exact Nat.zero_le _
  | @project facts files front =>
    have fewer := front.length_le
    rwa [leadingFiles, List.length_map, length_leading] at fewer

theorem heard_summarizeAll (asker : Option Runner) (facts : ProjectFacts) (limit : Int)
    (parsed : List (FileRecord × String)) (world : World) :
    ∃ who about, AskedAbout limit parsed about ∧ Heard who (about.flatMap Subject.asks) world
      ((summarizeAll asker facts limit parsed).run.run world).2 := by
  cases asker with
  | none => exact ⟨.arranged, [], .nothing, Heard.unheard _ rfl rfl⟩
  | some who =>
    have first := heard_summarize who (.project facts) world
    have alone : AskedAbout limit parsed [.project facts] := .project facts List.nil_prefix
    rw [summarizeAll]
    rcases run : (summarize (some who) (.project facts)).run.run world with
      ⟨failure | summary, mid⟩
    · refine ⟨who, [.project facts], alone, ?_⟩
      rw [run] at first
      rw [List.flatMap_singleton, run_bind_error run]
      exact first
    rw [run] at first
    rw [run_bind_ok run]
    cases summary with
    | none =>
      refine ⟨who, [.project facts], alone, ?_⟩
      rw [List.flatMap_singleton]
      exact first
    | some summary =>
      obtain ⟨about, front, rest⟩ := heard_mapM_summarize who (leadingFiles limit parsed) mid
      refine ⟨who, .project facts :: about, .project facts front, ?_⟩
      dsimp only
      rw [List.flatMap_cons, after_bind_pure, summarizeFiles_eq, after_bind_pure]
      exact first.trans rest

theorem keeps_settle (who : Runner) (settings : Settings) (useModel : Bool) :
    Keeps (Heard who []) (runner settings useModel) := by
  unfold runner
  split
  · refine .bind (fun world => ?_) fun _ => .pure _
    rw [run_talk]
    cases settled : world.session.runner with
    | none =>
      rw [Session.run_settleRunner_of_none settled]
      exact Heard.unheard who rfl rfl
    | some answers =>
      rw [Session.run_settleRunner settled]
      exact Heard.unheard who rfl rfl
  · exact .pure _

/-! ## Reading -/

/-- No more files are read than the limit leaves. -/
theorem length_of_run_parseFiles {files : List String} {limit : Int}
    {parsed : List (FileRecord × String)} {world after : World}
    (h : (parseFiles files limit).run.run world = (.ok parsed, after)) :
    parsed.length ≤ allowed limit (files.filter isDocumented).length := by
  obtain ⟨found, mid, read, h⟩ := run_bind_eq_ok.mp h
  cases h
  calc (found.filterMap id).length ≤ found.length := List.length_filterMap_le id found
    _ = (leading limit (files.filter isDocumented)).length := length_of_run_mapM read
    _ = allowed limit (files.filter isDocumented).length := length_leading _ _

/-- No more summaries are made than files are asked about. -/
theorem summarized_of_run_summarizeAll {who : Option Runner} {facts : ProjectFacts} {limit : Int}
    {parsed : List (FileRecord × String)} {world after : World} {summary : Option String}
    {summaries : List (Option String)}
    (h : (summarizeAll who facts limit parsed).run.run world = (.ok (summary, summaries), after)) :
    (summaries.countP fun summary => summary.getD "" != "") ≤ allowed limit parsed.length := by
  have unmade (n : Nat) :
      (List.replicate n (none : Option String)).countP (fun summary => summary.getD "" != "") = 0 :=
    List.countP_eq_zero.mpr fun summary inside => by simp [List.eq_of_mem_replicate inside]
  obtain ⟨first, mid, -, h⟩ := run_bind_eq_ok.mp h
  cases first with
  | none =>
    cases h
    rw [unmade]
    exact Nat.zero_le _
  | some text =>
    obtain ⟨made, last, run, h⟩ := run_bind_eq_ok.mp h
    cases h
    rw [summarizeFiles_eq] at run
    obtain ⟨found, last, run, h⟩ := run_bind_eq_ok.mp run
    cases h
    rw [List.countP_append, unmade, Nat.add_zero, ← length_leading]
    calc _ ≤ found.length := List.countP_le_length
      _ = (leadingFiles limit parsed).length := length_of_run_mapM run
      _ = (leading limit parsed).length := List.length_map _

/-! ## The report -/

/-- What a command asks about and how it ends. -/
def Spends {α : Type} (P : List Subject → Except Failure α → Prop) (c : Command α)
    (world : World) : Prop :=
  ∃ who about, P about (c.run.run world).1 ∧
    Heard who (about.flatMap Subject.asks) world (c.run.run world).2

/-- A first step that asks nothing. -/
theorem Spends.after {α β : Type} {P : List Subject → Except Failure α → Prop} {c : Command β}
    {f : β → Command α} (silent : ∀ who, Keeps (Heard who []) c)
    (failing : ∀ failure, P [] (.error failure))
    (rest : ∀ b mid, c.run.run world = (.ok b, mid) → Spends P (f b) mid) :
    Spends P (c >>= f) world := by
  have quiet (who : Runner) : Heard who [] world (c.run.run world).2 := silent who world
  rcases run : c.run.run world with ⟨failure | b, mid⟩
  · rw [run] at quiet
    refine ⟨.arranged, [], ?_, ?_⟩
    · rw [run_bind_error run]
      exact failing failure
    · rw [run_bind_error run]
      exact quiet .arranged
  · rw [run] at quiet
    obtain ⟨who, about, ended, heard⟩ := rest b mid run
    refine ⟨who, about, ?_, ?_⟩
    · rw [run_bind_ok run]
      exact ended
    · rw [run_bind_ok run]
      exact (quiet who).trans heard

/-- The files of a project that a report may document. -/
def documentable (world : World) (root : Location) (settings : Settings) : List String :=
  ((world.workspace.scan (Location.text root) exportDepth settings.scan.excludePaths).toOption.getD
    []).filter isDocumented

/-- A report within some limits, out of so many files: what it reads, what it asks about, and how it
ends. -/
structure Within (limits : ExportSettings) (available : Nat)
    (parsed : List (FileRecord × String)) (about : List Subject)
    (result : Except Failure ExportOutcome) : Prop where
  read : parsed.length ≤ allowed limits.maxFiles available
  asked : AskedAbout limits.maxSummaries parsed about
  modules : about.tail.length ≤ allowed limits.maxSummaries parsed.length
  documented : ∀ outcome, result = .ok outcome → outcome.documented ≤ parsed.length
  summarized : ∀ outcome, result = .ok outcome →
    outcome.summarized ≤ allowed limits.maxSummaries parsed.length

theorem within_of_error (limits : ExportSettings) (available : Nat) (failure : Failure) :
    Within limits available [] [] (.error failure) where
  read := Nat.zero_le _
  asked := .nothing
  modules := Nat.zero_le _
  documented := nofun
  summarized := nofun

/-- Asking and writing, when so many files have been read. -/
theorem within_of_parsed {limits : ExportSettings} {available : Nat}
    {parsed : List (FileRecord × String)}
    (read : parsed.length ≤ allowed limits.maxFiles available) (asker : Option Runner)
    (facts : ProjectFacts) (output : String) (includeCode : Bool) (world : World) :
    Spends (Within limits available parsed) (summarizeAll asker facts limits.maxSummaries parsed >>=
      fun found => publish output includeCode facts found.1 parsed found.2) world := by
  obtain ⟨who, about, asked, heard⟩ :=
    heard_summarizeAll asker facts limits.maxSummaries parsed world
  refine ⟨who, about, ⟨read, asked, asked.length_tail_le, fun outcome h => ?_, fun outcome h => ?_⟩,
    ?_⟩
  · obtain ⟨found, mid, -, published⟩ := run_bind_eq_ok.mp (Prod.ext h rfl)
    obtain ⟨_, _, -, -, -, documented, -⟩ := run_publish_eq_ok.mp published
    rw [documented, docsOf, List.length_map, List.length_zip]
    exact Nat.min_le_left _ _
  · obtain ⟨found, mid, summarized, published⟩ := run_bind_eq_ok.mp (Prod.ext h rfl)
    obtain ⟨_, _, -, -, -, -, counted⟩ := run_publish_eq_ok.mp published
    rw [counted]
    exact summarized_of_run_summarizeAll summarized
  · rcases run : (summarizeAll asker facts limits.maxSummaries parsed).run.run world with
      ⟨failure | found, mid⟩
    · rw [run] at heard
      rw [run_bind_error run]
      exact heard
    · have silent : Keeps (Heard who [])
          (publish output includeCode facts found.1 parsed found.2) :=
        .bind Lasting.refl fun _ => .bind (.lift _ _) fun _ =>
          .bind (fun _ => by rw [run_write]; exact Heard.unheard who rfl rfl) fun _ =>
          .bind (keeps_tell _) fun _ => .pure _
      rw [run] at heard
      rw [run_bind_ok run, ← List.append_nil (about.flatMap Subject.asks)]
      exact heard.trans (silent mid)

/-- A report reads and asks within its limits, whoever answers and however it ends: it reads no more
files than the first one leaves, and then asks at most about the project and about as many files as
the second one leaves. A limit that is not negative bounds both by itself. -/
theorem report_within_limits {options : ExportOptions} {root folder : Location}
    {settings : Settings}
    (located : world.workspace.locate options.path = .ok root)
    (configured : world.workspace.settings (Location.text root) = .ok (folder, settings)) :
    ∃ who parsed about, Within settings.report
      (documentable world root settings).length parsed about
        ((report options).run.run world).1 ∧
      Heard who (about.flatMap Subject.asks) world ((report options).run.run world).2 ∧
      (0 ≤ settings.report.maxFiles → (parsed.length : Int) ≤ settings.report.maxFiles) ∧
      (0 ≤ settings.report.maxSummaries →
        (about.tail.length : Int) ≤ settings.report.maxSummaries) := by
  have failing (failure : Failure) : ∃ parsed, Within settings.report
      (documentable world root settings).length parsed [] (.error failure) :=
    ⟨[], within_of_error _ _ failure⟩
  have spends : Spends (fun about result => ∃ parsed, Within settings.report
      (documentable world root settings).length parsed about result) (report options) world := by
    refine .after (fun who => .workspace) failing fun w _ got => ?_
    cases got
    refine .after (fun who => .lift _ _) failing fun place _ lifted => ?_
    obtain ⟨same, rfl⟩ := run_lift_eq_ok.mp lifted
    cases located.symm.trans same
    refine .after (fun who => .lift _ _) failing fun found _ lifted => ?_
    obtain ⟨same, rfl⟩ := run_lift_eq_ok.mp lifted
    cases configured.symm.trans same
    refine .after (fun who => keeps_analyze _ _ _) failing fun facts scanned analyzed => ?_
    have scan := scan_of_analyze analyzed
    refine .after (fun who => keeps_parseFiles _ _) failing fun parsed reading parsing => ?_
    have read := length_of_run_parseFiles parsing
    refine .after (fun who => keeps_tell _) failing fun _ telling _ => ?_
    refine .after (fun who => keeps_settle who _ _) failing fun asker asking _ => ?_
    have files : (facts.files.filter isDocumented).length =
        (documentable world root settings).length := by
      rw [documentable, scan]
      rfl
    rw [files] at read
    obtain ⟨who, about, within, heard⟩ :=
      within_of_parsed read asker facts options.output options.includeCode asking
    exact ⟨who, about, ⟨parsed, within⟩, heard⟩
  obtain ⟨who, about, ⟨parsed, within⟩, heard⟩ := spends
  refine ⟨who, parsed, about, within, heard, fun nonnegative => ?_, fun nonnegative => ?_⟩
  · exact Int.le_trans (Int.ofNat_le.mpr within.read) (allowed_le nonnegative _)
  · exact Int.le_trans (Int.ofNat_le.mpr within.modules) (allowed_le nonnegative _)

/-- A project with three files and with limits, where every question is answered. -/
def limitedProject (limits : String) : World where
  workspace :=
    { disk := .folder [("p", .folder [("a.go", .file .empty), ("b.go", .file .empty),
        ("c.go", .file .empty), (".briefly.yml", .file limits.toUTF8)])]
      working := ["p"] }
  now := .day ⟨2024, 5, 17⟩
  session :=
    { runner := some .arranged
      replies := [.ok "All.", .ok "A.", .ok "B.", .ok "C."] }

/-- The limits that a project is found to have. -/
def limitsOf (world : World) : Option (Int × Int) :=
  (world.workspace.settings (Location.text ["p"])).toOption.map fun (_, settings) =>
    (settings.report.maxFiles, settings.report.maxSummaries)

/-- The numbers of files that a report documents and summarizes, and of the questions asked. -/
def spentOn (world : World) : Option (Nat × Nat) × Nat :=
  let (result, after) := (report {}).run.run world
  (result.toOption.map fun outcome => (outcome.documented, outcome.summarized),
    after.session.questions.length)

theorem limitsOf_eq_some {world : World} {files summaries : Int}
    (limits : limitsOf world = some (files, summaries)) : ∃ folder settings,
      world.workspace.settings (Location.text ["p"]) = .ok (folder, settings) ∧
        settings.report.maxFiles = files ∧ settings.report.maxSummaries = summaries := by
  unfold limitsOf at limits
  cases configured : world.workspace.settings (Location.text ["p"]) with
  | error failure =>
    rw [configured] at limits
    cases limits
  | ok found =>
    rw [configured] at limits
    cases limits
    exact ⟨found.1, found.2, rfl, rfl, rfl⟩

/-- Two files of three may be read, and about one of them it may be asked. -/
theorem report_within_limits_limitedProject :
    let world := limitedProject "export:\n  max_files: 2\n  max_summaries: 1\n"
    ∃ (settings : Settings) (who : Runner) (parsed : List (FileRecord × String))
      (about : List Subject), Within settings.report (documentable world ["p"] settings).length
          parsed about ((report {}).run.run world).1 ∧
        Heard who (about.flatMap Subject.asks) world ((report {}).run.run world).2 ∧
        parsed.length ≤ 2 ∧ about.tail.length ≤ 1 := by
  intro world
  have located : world.workspace.locate ({} : ExportOptions).path = .ok ["p"] := by decide +kernel
  have limits : limitsOf world = some (2, 1) := by decide +kernel
  obtain ⟨folder, settings, configured, files, summaries⟩ := limitsOf_eq_some limits
  obtain ⟨who, parsed, about, within, heard, read, asked⟩ :=
    report_within_limits located configured
  rw [files] at read
  rw [summaries] at asked
  exact ⟨settings, who, parsed, about, within, heard, Int.ofNat_le.mp (read (by decide)),
    Int.ofNat_le.mp (asked (by decide))⟩

/-- Limits below zero let a report document two files of three and ask about one of these. -/
theorem limitedProject_below_zero :
    let world := limitedProject "export:\n  max_files: -1\n  max_summaries: -1\n"
    limitsOf world = some (-1, -1) ∧ spentOn world = (some (2, 1), 2) := by
  constructor
  · decide +kernel
  · decide +kernel

end Command

end Synopsis
