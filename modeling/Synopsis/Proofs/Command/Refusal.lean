import Synopsis.Proofs.Command.Asking

/-!
# Questions that are refused

When whoever answers refuses every question of a session, a command ends as it does without a model:
with the same text, and with the same file where it wrote. Only the session and the journal tell the
two apart. A command that fails without a model is not spoken of.
-/

namespace Synopsis

namespace Session

/-- The session after some questions. -/
def afterAsking (runner : Runner) (asked : List Question) (session : Session) : Session :=
  asked.foldl (fun session question => ((ask runner question).run session).2) session

/-- Whatever was asked before, a question gives a fault that summaries tolerate. -/
def Refuses (runner : Runner) (session : Session) : Prop :=
  ∀ asked question, ∃ fault, ((ask runner question).run (session.afterAsking runner asked)).1 =
    .error fault ∧ fault.isTolerated = true

theorem afterAsking_notices (runner : Runner) (asked : List Question) (session : Session)
    (notices : List Notice) :
    afterAsking runner asked { session with notices } =
      { afterAsking runner asked session with notices } := by
  induction asked generalizing session with
  | nil => rfl
  | cons question asked ih =>
    rw [afterAsking, List.foldl_cons, ask_notices]
    exact ih _

theorem Refuses.notices {runner : Runner} {session : Session} (refuses : session.Refuses runner)
    (notices : List Notice) : Refuses runner { session with notices } := by
  intro asked question
  rw [afterAsking_notices, ask_notices]
  exact refuses asked question

/-- Arranged answers that are all failures refuse every question. -/
theorem refuses_arranged {session : Session}
    (failures : ∀ reply ∈ session.replies, ∃ reason, reply = .error reason) :
    session.Refuses .arranged := by
  intro asked question
  induction asked generalizing session with
  | nil =>
    change ∃ fault, session.nextReply = .error fault ∧ _
    unfold nextReply
    cases hreplies : session.replies with
    | nil => exact ⟨_, rfl, rfl⟩
    | cons reply replies =>
      obtain ⟨reason, rfl⟩ := failures reply (by rw [hreplies]; exact List.mem_cons_self)
      exact ⟨_, rfl, rfl⟩
  | cons first asked ih =>
    exact ih fun reply hreply => failures reply (List.mem_of_mem_drop hreply)

end Session

/-- A world in which whoever answers refuses every question. -/
structure World.Refusing (runner : Runner) (world : World) : Prop where
  journaled : world.Journaled
  settled : world.session.runner = some runner
  refuses : world.session.Refuses runner

theorem World.Refusing.told {runner : Runner} {world after : World}
    (refusing : world.Refusing runner) (told : Command.OnlyNotices world after) :
    after.Refusing runner where
  journaled := (told.later refusing.journaled).1
  settled := by rw [told.session]; exact refusing.settled
  refuses := by rw [told.session]; exact refusing.refuses.notices _

namespace Command

variable {α β : Type} {runner : Runner} {world after : World} {settings : Settings}
  {subject : Subject} {question : Question}

/-! ## Asking in vain -/

/-- A question that is refused leaves no summary. -/
theorem run_summarize_refused (h : subject.question = .ok question)
    (refuses : world.session.Refuses runner) :
    ((summarize (some runner) subject).run.run world).1 = .ok none := by
  obtain ⟨fault, refused, tolerated⟩ := refuses [] question
  have answered : (Session.ask runner question).run world.session =
      (.error fault, ((Session.ask runner question).run world.session).2) := Prod.ext refused rfl
  rw [summarize, run_bind_ok (run_talk _ _), Summary.run_of_refused h answered tolerated,
    run_lift_ok]

/-- Whether a model is asked in vain or not at all, there is no summary. -/
theorem run_unsummarized (h : subject.question = .ok question)
    (settled : world.session.runner = some runner) (refuses : world.session.Refuses runner)
    (settings : Settings) (useModel : Bool) :
    ∃ who mid other, (Command.runner settings useModel).run.run world = (.ok who, mid) ∧
      (summarize who subject).run.run mid = (.ok none, other) ∧ World.Later world other := by
  by_cases wanted : (useModel && settings.summarizer.enabled) = true
  · obtain ⟨rfl, enabled⟩ := Bool.and_eq_true_iff.mp wanted
    refine ⟨some runner, world.withSession world.session, _, run_runner enabled settled,
      Prod.ext (run_summarize_refused h refuses) rfl, ?_⟩
    exact (world.later_withSession _).trans (keeps_summarize _ _ _)
  · rw [Command.runner, if_neg wanted]
    exact ⟨none, world, world, rfl, rfl, .refl world⟩

/-! ## Writing in alike worlds -/

/-- The files of two worlds agree where no journal is kept, and where a report was written. -/
def SameFiles (place : Option Location) (world other : World) : Prop :=
  World.Alike (fun file => some file = place ∨ world.OffJournal file) world other

section Writing

variable {other : World}

theorem run_write_alike {path text : String} {place : Location}
    (h : World.Alike world.OffJournal world other)
    (written : (write path text).run.run world = (.ok place, after)) :
    ∃ after', (write path text).run.run other = (.ok place, after') ∧
      SameFiles (some place) after after' := by
  obtain ⟨results, alike⟩ := Workspace.writeOutput_alike h path text
  rw [run_write] at written
  rw [run_write, ← results]
  obtain ⟨done, rfl⟩ := Prod.mk.inj written
  cases result : (world.workspace.writeOutput path text).2 with
  | error fault => rw [result] at done; cases done
  | ok place' =>
    rw [result] at done
    cases done
    exact ⟨_, rfl, (alike _ result).mono fun file hfile => hfile.imp_left Option.some.inj⟩

theorem run_writeIf_alike {path : Option String} {text : String} {place : Option Location}
    (h : World.Alike world.OffJournal world other)
    (written : (writeIf path text).run.run world = (.ok place, after)) :
    ∃ after', (writeIf path text).run.run other = (.ok place, after') ∧
      SameFiles place after after' := by
  unfold writeIf at written ⊢
  generalize path.bind Endpoint.nonempty? = target at written ⊢
  cases target with
  | none =>
    cases written
    exact ⟨other, rfl, h.mono fun file hfile => hfile.resolve_left (by simp)⟩
  | some path =>
    obtain ⟨target, mid, written, done⟩ := run_bind_eq_ok.mp written
    obtain ⟨after', written', same⟩ := run_write_alike h written
    cases done
    exact ⟨after', run_bind_ok written', same⟩

theorem run_conclude_alike {output : Option String} {text : Except SizeOverflow String}
    {outcome : Outcome} (h : World.Alike world.OffJournal world other)
    (concluded : (conclude output text).run.run world = (.ok outcome, after)) :
    ∃ after', (conclude output text).run.run other = (.ok outcome, after') ∧
      SameFiles outcome.place after after' := by
  obtain ⟨rendered, written⟩ := run_conclude_eq_ok.mp concluded
  obtain ⟨after', written', same⟩ := run_writeIf_alike h written
  exact ⟨after', run_conclude_eq_ok.mpr ⟨rendered, written'⟩, same⟩

/-- Telling the same afterwards leaves the files the same. -/
theorem SameFiles.tell {place : Option Location} (h : SameFiles place world other)
    (notice : Notice) : SameFiles place ((tell notice).run.run world).2
      ((tell notice).run.run other).2 := by
  rw [run_tell, run_tell]
  exact World.Alike.withSession h (by simp)

end Writing

/-! ## Commands that end alike -/

/-- Where questions are refused, whatever the first command gives is given by the second one, and
the worlds are related afterwards. -/
def Matched (runner : Runner) (Q : α → World → World → Prop) (c d : Command α) : Prop :=
  ∀ ⦃world after a⦄, world.Refusing runner → c.run.run world = (.ok a, after) →
    ∃ other, d.run.run world = (.ok a, other) ∧ Q a after other

variable {Q : α → World → World → Prop}

/-- Two commands that begin with the same telling. -/
theorem Matched.bind {c : Command β} {f g : β → Command α} (told : Keeps OnlyNotices c)
    (h : ∀ b, Matched runner Q (f b) (g b)) : Matched runner Q (c >>= f) (c >>= g) := by
  intro world after a refusing run
  obtain ⟨b, mid, first, rest⟩ := run_bind_eq_ok.mp run
  have kept := told world
  rw [first] at kept
  obtain ⟨other, run', post⟩ := h b (refusing.told kept) rest
  exact ⟨other, run_bind_eq_ok.mpr ⟨b, mid, first, run'⟩, post⟩

/-- Two commands that ask or do not ask, and then go on without a summary. -/
theorem Matched.summarize {k : Option Runner → Option String → Command α}
    (asks : ∀ {world after a}, (k none none).run.run world = (.ok a, after) →
      ∃ question, subject.question = .ok question)
    (ends : ∀ {world other after a} who, World.Alike world.OffJournal world other →
      (k none none).run.run world = (.ok a, after) →
      ∃ after', (k who none).run.run other = (.ok a, after') ∧ Q a after after') :
    Matched runner Q
      (Command.runner settings false >>= fun who => Command.summarize who subject >>= k who)
      (Command.runner settings true >>= fun who => Command.summarize who subject >>= k who) := by
  intro world after a refusing run
  have silent : (k none none).run.run world = (.ok a, after) := run
  obtain ⟨question, h⟩ := asks silent
  obtain ⟨who, mid, other, chosen, refused, later⟩ :=
    run_unsummarized h refusing.settled refusing.refuses settings true
  obtain ⟨after', run', post⟩ := ends who (later refusing.journaled).2 silent
  exact ⟨after', by rw [run_bind_ok chosen, run_bind_ok refused, run'], post⟩

/-! ## The three commands -/

/-- Whatever shows the size of a project fails when that has no text. -/
theorem size_of_ofProject {facts : ProjectFacts} {summary : Option String} {text : String}
    (h : Report.ofProject facts summary = .ok text) :
    ∃ size, sizeText facts.totalSize = .ok size := by
  cases hsize : sizeText facts.totalSize with
  | ok size => exact ⟨size, rfl⟩
  | error fault =>
    rw [Report.ofProject, Report.projectSections, Report.statistics, hsize] at h
    cases h

theorem size_of_ofFile {record : FileRecord} {summary : Option String} {showTree : Bool}
    {text : String} (h : Report.ofFile record summary showTree = .ok text) :
    ∃ size, sizeText record.size = .ok size := by
  cases hsize : sizeText record.size with
  | ok size => exact ⟨size, rfl⟩
  | error fault =>
    rw [Report.ofFile, Report.fileInfo, hsize] at h
    cases h

theorem size_of_report {working : String} {facts : ProjectFacts} {summary : Option String}
    {docs : List Markdown.FileDoc} {includeCode : Bool} {generatedAt text : String}
    (h : Markdown.report working facts summary docs includeCode generatedAt = .ok text) :
    ∃ size, sizeText facts.totalSize = .ok size := by
  cases hsize : sizeText facts.totalSize with
  | ok size => exact ⟨size, rfl⟩
  | error fault =>
    rw [Markdown.report, Markdown.lines, hsize] at h
    cases h

theorem summary_matched (options : SummaryOptions) :
    Matched runner (fun outcome => SameFiles outcome.place)
      (summary { options with useModel := false }) (summary { options with useModel := true }) := by
  refine .bind .workspace fun w => .bind (.lift _ _) fun root => .bind (.lift _ _) fun configured =>
    .bind (keeps_analyze _ _ _) fun facts => ?_
  refine .summarize (fun h => ?_) (fun who alike h => ?_)
  · obtain ⟨size, hsize⟩ := size_of_ofProject (run_conclude_eq_ok.mp h).1
    exact Subject.exists_question_iff.mpr ⟨size, hsize⟩
  · exact run_conclude_alike alike h

theorem describe_matched (options : FileOptions) :
    Matched runner (fun outcome => SameFiles outcome.place)
      (describe { options with useModel := false })
      (describe { options with useModel := true }) := by
  refine .bind .workspace fun w => .bind (.lift _ _) fun place => .bind (.lift _ _) fun bytes =>
    .bind (.lift _ _) fun configured => .bind (keeps_extract _ _ _) fun record => ?_
  refine .summarize (fun h => ?_) (fun who alike h => ?_)
  · obtain ⟨size, hsize⟩ := size_of_ofFile (run_conclude_eq_ok.mp h).1
    exact Subject.exists_question_iff.mpr ⟨size, hsize⟩
  · exact run_conclude_alike alike h

theorem report_matched (options : ExportOptions) :
    Matched runner (fun outcome after other => outcome.summarized = 0 ∧
        SameFiles (some outcome.place) after other)
      (report { options with useModel := false }) (report { options with useModel := true }) := by
  refine .bind .workspace fun w => .bind (.lift _ _) fun root => .bind (.lift _ _) fun configured =>
    .bind (keeps_analyze _ _ _) fun facts => .bind (keeps_parseFiles _ _) fun parsed =>
    .bind (keeps_tell _) fun _ => ?_
  simp only [summarizeAll, bind_assoc]
  refine .summarize (fun h => ?_) (fun who alike h => ?_)
  · obtain ⟨unsummarized, mid, left, h⟩ := run_bind_eq_ok.mp h
    obtain ⟨text, _, rendered, -⟩ := run_publish_eq_ok.mp h
    obtain ⟨size, hsize⟩ := size_of_report rendered
    exact Subject.exists_question_iff.mpr ⟨size, hsize⟩
  · obtain ⟨unsummarized, mid, left, h⟩ := run_bind_eq_ok.mp h
    cases left
    obtain ⟨text, mid, rendered, written, rfl, documented, summarized⟩ := run_publish_eq_ok.mp h
    obtain ⟨mid', written', same⟩ := run_write_alike alike written
    refine ⟨_, ?_, ?_, same.tell _⟩
    · rw [run_bind_ok (run_pure _ _)]
      refine run_publish_eq_ok.mpr ⟨text, mid', ?_, written', rfl, documented, summarized⟩
      rw [← rendered, Workspace.workingText, Workspace.workingText, alike.working, alike.now]
    · simp [summarized, List.countP_replicate]

/-- Where questions are refused, each command that succeeds without a model succeeds with one as
well. It gives the same text, or documents as many files and summarizes none, and leaves the same
files. -/
theorem refusal_changes_nothing (refusing : world.Refusing runner) :
    (∀ (options : SummaryOptions) (outcome : Outcome) (after : World),
      (summary { options with useModel := false }).run.run world = (.ok outcome, after) →
      ∃ other, (summary { options with useModel := true }).run.run world = (.ok outcome, other) ∧
        SameFiles outcome.place after other) ∧
    (∀ (options : FileOptions) (outcome : Outcome) (after : World),
      (describe { options with useModel := false }).run.run world = (.ok outcome, after) →
      ∃ other, (describe { options with useModel := true }).run.run world = (.ok outcome, other) ∧
        SameFiles outcome.place after other) ∧
    (∀ (options : ExportOptions) (outcome : ExportOutcome) (after : World),
      (report { options with useModel := false }).run.run world = (.ok outcome, after) →
      ∃ other, (report { options with useModel := true }).run.run world = (.ok outcome, other) ∧
        outcome.summarized = 0 ∧ SameFiles (some outcome.place) after other) := by
  refine ⟨?_, ?_, ?_⟩
  · exact fun options outcome after run => summary_matched options refusing run
  · exact fun options outcome after run => describe_matched options refusing run
  · exact fun options outcome after run => report_matched options refusing run

/-- A project whose journal is kept beside it, and whose questions are all refused. -/
def refusedProject : World :=
  { workspace :=
      { disk := .folder [("p", .folder [("a.go", .file "package a\n".toUTF8)]),
          ("log", .file .empty)]
        working := ["p"] }
    now := .day ⟨2024, 5, 17⟩
    session := { runner := some .arranged, replies := [.error "offline"] }
    journal := some ⟨["log"], .info⟩ }

theorem refusedProject_refusing : refusedProject.Refusing .arranged where
  journaled journal h := by
    cases h
    exact ⟨.empty, rfl⟩
  settled := rfl
  refuses := Session.refuses_arranged fun reply hreply => by
    rcases List.mem_singleton.mp hreply with rfl
    exact ⟨_, rfl⟩

theorem refusal_changes_nothing_refusedProject :
    refusedProject.Refusing .arranged ∧
    (∃ outcome after other,
      (summary { path := ".", output := some "s.txt", useModel := false }).run.run refusedProject =
        (.ok outcome, after) ∧
      (summary { path := ".", output := some "s.txt" }).run.run refusedProject =
        (.ok outcome, other) ∧
      SameFiles outcome.place after other) ∧
    (∃ outcome after other,
      (describe { path := "a.go", useModel := false }).run.run refusedProject =
        (.ok outcome, after) ∧
      (describe { path := "a.go" }).run.run refusedProject = (.ok outcome, other) ∧
      SameFiles outcome.place after other) ∧
    (∃ outcome after other,
      (report { useModel := false }).run.run refusedProject = (.ok outcome, after) ∧
      (report {}).run.run refusedProject = (.ok outcome, other) ∧
      outcome.summarized = 0 ∧ SameFiles (some outcome.place) after other) := by
  obtain ⟨summaries, descriptions, reports⟩ := refusal_changes_nothing refusedProject_refusing
  refine ⟨refusedProject_refusing, ?_, ?_, ?_⟩
  · obtain ⟨outcome, after, run⟩ := exists_run_of_isOk
      (summary { path := ".", output := some "s.txt", useModel := false }) refusedProject
      (by decide +kernel)
    obtain ⟨other, run', same⟩ :=
      summaries { path := ".", output := some "s.txt" } outcome after run
    exact ⟨outcome, after, other, run, run', same⟩
  · obtain ⟨outcome, after, run⟩ := exists_run_of_isOk
      (describe { path := "a.go", useModel := false }) refusedProject (by decide +kernel)
    obtain ⟨other, run', same⟩ := descriptions { path := "a.go" } outcome after run
    exact ⟨outcome, after, other, run, run', same⟩
  · obtain ⟨outcome, after, run⟩ := exists_run_of_isOk
      (report { useModel := false }) refusedProject (by decide +kernel)
    obtain ⟨other, run', unsummarized, same⟩ := reports {} outcome after run
    exact ⟨outcome, after, other, run, run', unsummarized, same⟩

end Command

end Synopsis
