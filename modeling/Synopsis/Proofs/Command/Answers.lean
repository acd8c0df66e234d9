import Mathlib.Data.List.Forall2
import Synopsis.Proofs.Command.Asking
import Synopsis.Proofs.Sort

/-!
# Answers in turn

Where answers are arranged, the questions about a list of subjects are asked in its order, and the
answers come in the same order: the `n`-th question is given the `n`-th answer, whether those before
it were failures or not. Only a size that has no text keeps a question from being asked.
-/

namespace Synopsis

namespace Command

/-- The second world came of the first one by talking, in which these questions were asked. -/
structure Asked (questions : List Question) (world after : World) : Prop where
  later : World.Later world after
  asks : after.session.questions = world.session.questions ++ questions
  replies : after.session.replies = world.session.replies.drop questions.length

variable {questions : List Question} {question : Question} {subject : Subject}
  {world mid after : World} {fault : SizeOverflow}

theorem OnlyNotices.asked (told : OnlyNotices world after) : Asked [] world after where
  later := told.later
  asks := by rw [told.session, List.append_nil]
  replies := by rw [told.session]; rfl

namespace Asked

theorem trans {more : List Question} (h : Asked questions world mid) (h' : Asked more mid after) :
    Asked (questions ++ more) world after where
  later := h.later.trans h'.later
  asks := by rw [h'.asks, h.asks, List.append_assoc]
  replies := by rw [h'.replies, h.replies, List.drop_drop, List.length_append]

/-- After one question the answers go on with the next one. -/
theorem answerTo (h : Asked [question] world after) :
    after.session.answerTo = fun n => world.session.answerTo (n + 1) := by
  funext n
  rw [Session.answerTo, h.replies, List.getElem?_drop, List.length_singleton, Nat.add_comm]
  rfl

end Asked

/-- The questions about the subjects, one for each. -/
def Questions (subjects : List Subject) (questions : List Question) : Prop :=
  List.Forall₂ (fun subject question => subject.question = .ok question) subjects questions

theorem exists_questions (subjects : List Subject) :
    (∃ questions, Questions subjects questions) ∨
      ∃ subject ∈ subjects, ∃ fault, subject.question = .error fault := by
  induction subjects with
  | nil => exact Or.inl ⟨[], .nil⟩
  | cons subject subjects ih =>
    cases hquestion : subject.question with
    | error fault => exact Or.inr ⟨subject, List.mem_cons_self, fault, hquestion⟩
    | ok question =>
      rcases ih with ⟨questions, h⟩ | ⟨other, hmem, hfault⟩
      · exact Or.inl ⟨question :: questions, .cons hquestion h⟩
      · exact Or.inr ⟨other, List.mem_cons_of_mem _ hmem, hfault⟩

/-! ## One subject -/

theorem run_summarize_arranged (h : subject.question = .ok question) (world : World) :
    ∃ after, (summarize (some .arranged) subject).run.run world =
        (.ok (world.session.answerTo 0), after) ∧ Asked [question] world after := by
  obtain ⟨notices, taken⟩ := Summary.run_of_arranged h world.session
  refine ⟨world.withSession { world.session with
    questions := world.session.questions ++ [question]
    replies := world.session.replies.drop 1
    notices := notices }, ?_, world.later_withSession _, rfl, rfl⟩
  rw [summarize, run_bind_ok (run_talk _ _), taken, run_lift_ok]

theorem run_summarize_error (h : subject.question = .error fault) (world : World) :
    ∃ after, (summarize (some .arranged) subject).run.run world =
      (.error (.summary (.size fault)), after) := by
  refine ⟨world.withSession world.session, ?_⟩
  rw [summarize, run_bind_ok (run_talk _ _), Summary.run_of_error h, run_lift_error]

/-! ## Many subjects -/

/-- All subjects are asked about, and each is given its own answer. -/
theorem run_mapM_summarize {subjects : List Subject} (h : Questions subjects questions)
    (world : World) :
    ∃ after, (subjects.mapM (summarize (some .arranged))).run.run world =
        (.ok ((List.range subjects.length).map world.session.answerTo), after) ∧
      Asked questions world after := by
  induction h generalizing world with
  | nil => exact ⟨world, rfl, (Lasting.refl world : OnlyNotices world world).asked⟩
  | @cons subject question subjects questions hquestion _ ih =>
    obtain ⟨mid, first, asked⟩ := run_summarize_arranged hquestion world
    obtain ⟨after, rest, asked'⟩ := ih mid
    refine ⟨after, ?_, asked.trans asked'⟩
    rw [List.mapM_cons, run_bind_ok first, run_bind_ok rest, run_pure, asked.answerTo,
      List.length_cons, List.range_succ_eq_map, List.map_cons, List.map_map]
    rfl

theorem run_mapM_summarize_error {subjects : List Subject} (hmem : subject ∈ subjects)
    (h : subject.question = .error fault) (world : World) :
    ∃ after, (subjects.mapM (summarize (some .arranged))).run.run world =
      (.error (.summary (.size fault)), after) := by
  induction subjects generalizing world with
  | nil => cases hmem
  | cons first subjects ih =>
    rw [List.mapM_cons]
    cases hquestion : first.question with
    | error fault =>
      obtain ⟨after, failed⟩ := run_summarize_error hquestion world
      exact ⟨after, run_bind_error failed⟩
    | ok question =>
      have hrest : subject ∈ subjects := by
        rcases List.mem_cons.mp hmem with rfl | hrest
        · cases h.symm.trans hquestion
        · exact hrest
      obtain ⟨mid, answered, -⟩ := run_summarize_arranged hquestion world
      obtain ⟨after, failed⟩ := ih hrest mid
      exact ⟨after, by rw [run_bind_ok answered, run_bind_error failed]⟩

/-! ## A project and its files -/

/-- The files that are asked about, when the project is answered. -/
def leadingFiles (limit : Int) (parsed : List (FileRecord × String)) : List Subject :=
  (leading limit parsed).map fun (record, content) => .file record content

/-- What a report asks about: the project, and when there is an answer, the first of its files. -/
def subjectsOf (session : Session) (facts : ProjectFacts) (limit : Int)
    (parsed : List (FileRecord × String)) : List Subject :=
  .project facts :: if (session.answerTo 0).isSome then leadingFiles limit parsed else []

/-- The summaries of `total` files after `count` questions, the first of which was about the
project. -/
def summaries (session : Session) (count total : Nat) : List (Option String) :=
  (List.range total).map fun i => if i + 1 < count then session.answerTo (i + 1) else none

/-- After `count` answers, the other files are left without a summary. -/
theorem summaries_eq (session : Session) {count total : Nat} (h : count ≤ total) :
    (List.range count).map (fun i => session.answerTo (i + 1)) ++
      List.replicate (total - count) none = summaries session (count + 1) total := by
  obtain ⟨left, rfl⟩ := Nat.exists_eq_add_of_le h
  rw [summaries, List.range_add, List.map_append, Nat.add_sub_cancel_left]
  congr 1
  · refine List.map_congr_left fun i hi => ?_
    rw [if_pos (Nat.succ_lt_succ (List.mem_range.mp hi))]
  · symm
    rw [List.map_map]
    refine List.eq_replicate_iff.mpr ⟨by simp, ?_⟩
    rintro _ hmem
    obtain ⟨i, -, rfl⟩ := List.mem_map.mp hmem
    exact if_neg (by simp)

theorem summarizeFiles_eq (runner : Option Runner) (limit : Int)
    (parsed : List (FileRecord × String)) :
    summarizeFiles runner limit parsed =
      (leadingFiles limit parsed).mapM (summarize runner) >>= fun found =>
        pure (found ++
          List.replicate (parsed.length - (leadingFiles limit parsed).length) none) := by
  rw [summarizeFiles, leadingFiles, List.mapM_map, List.length_map]
  rfl

theorem run_summarizeFiles (limit : Int) (parsed : List (FileRecord × String))
    (h : Questions (leadingFiles limit parsed) questions) (world : World) :
    ∃ after, (summarizeFiles (some .arranged) limit parsed).run.run world =
        (.ok ((List.range questions.length).map world.session.answerTo ++
          List.replicate (parsed.length - questions.length) none), after) ∧
      Asked questions world after := by
  obtain ⟨after, run, asked⟩ := run_mapM_summarize h world
  refine ⟨after, ?_, asked⟩
  rw [summarizeFiles_eq, run_bind_ok run, h.length_eq]
  rfl

theorem run_summarizeFiles_error {limit : Int} {parsed : List (FileRecord × String)}
    (hmem : subject ∈ leadingFiles limit parsed) (h : subject.question = .error fault)
    (world : World) :
    ∃ after, (summarizeFiles (some .arranged) limit parsed).run.run world =
      (.error (.summary (.size fault)), after) := by
  obtain ⟨after, failed⟩ := run_mapM_summarize_error hmem h world
  exact ⟨after, by rw [summarizeFiles_eq, run_bind_error failed]⟩

/-- The project is asked about first, and when there is an answer, its first files in turn. -/
theorem run_summarizeAll {facts : ProjectFacts} {limit : Int} {parsed : List (FileRecord × String)}
    (world : World) (h : Questions (subjectsOf world.session facts limit parsed) questions) :
    ∃ after, (summarizeAll (some .arranged) facts limit parsed).run.run world =
        (.ok (world.session.answerTo 0, summaries world.session questions.length parsed.length),
          after) ∧
      Asked questions world after := by
  cases h with
  | @cons _ question _ questions hproject hfiles =>
    obtain ⟨mid, first, asked⟩ := run_summarize_arranged hproject world
    rw [summarizeAll, run_bind_ok first]
    cases hanswer : world.session.answerTo 0 with
    | none =>
      rw [hanswer] at hfiles
      cases hfiles
      have unasked := summaries_eq world.session (Nat.zero_le parsed.length)
      refine ⟨mid, ?_, asked⟩
      change (Except.ok (none, List.replicate parsed.length none), mid) = _
      rw [List.length_singleton, ← unasked]
      rfl
    | some text =>
      rw [hanswer] at hfiles
      obtain ⟨after, run, asked'⟩ := run_summarizeFiles limit parsed hfiles mid
      refine ⟨after, ?_, asked.trans asked'⟩
      have fewer : questions.length ≤ parsed.length := by
        rw [← hfiles.length_eq]
        simpa [leadingFiles] using length_leading_le limit parsed
      rw [asked.answerTo, summaries_eq world.session fewer] at run
      exact run_bind_ok run

theorem run_summarizeAll_error {facts : ProjectFacts} {limit : Int}
    {parsed : List (FileRecord × String)} (world : World)
    (hmem : subject ∈ subjectsOf world.session facts limit parsed)
    (h : subject.question = .error fault) :
    ∃ after, (summarizeAll (some .arranged) facts limit parsed).run.run world =
      (.error (.summary (.size fault)), after) := by
  rw [summarizeAll]
  cases hproject : (Subject.project facts).question with
  | error fault =>
    obtain ⟨after, failed⟩ := run_summarize_error hproject world
    exact ⟨after, run_bind_error failed⟩
  | ok question =>
    obtain ⟨mid, first, -⟩ := run_summarize_arranged hproject world
    rw [run_bind_ok first]
    rcases List.mem_cons.mp hmem with rfl | hmem
    · cases h.symm.trans hproject
    cases hanswer : world.session.answerTo 0 with
    | none =>
      rw [hanswer] at hmem
      cases hmem
    | some text =>
      rw [hanswer] at hmem
      obtain ⟨after, failed⟩ := run_summarizeFiles_error hmem h mid
      exact ⟨after, run_bind_error failed⟩

end Command

end Synopsis
