import Synopsis.Proofs.Command.Run
import Synopsis.Proofs.Subject

/-!
# Asking

What a question does to a session, and what comes of the answer. Notices have no part in it: a
session with other notices asks the same and is answered the same.
-/

namespace Synopsis

namespace Session

theorem run_takeReply (question : Question) (session : Session) :
    (takeReply question).run session = (session.nextReply, { session with
      questions := session.questions ++ [question], replies := session.replies.drop 1 }) := rfl

/-- Notices have no part in asking. -/
theorem ask_notices (runner : Runner) (question : Question) (session : Session)
    (notices : List Notice) :
    (ask runner question).run { session with notices } =
      (((ask runner question).run session).1,
        { ((ask runner question).run session).2 with notices }) := by
  cases runner with
  | arranged => rw [ask, run_takeReply, run_takeReply]; rfl
  | endpoint e =>
    simp only [ask, askEndpoint]
    cases e.request question with
    | error fault => rfl
    | ok request => rfl

theorem run_settleRunner {settings : SummarySettings} {session : Session} {runner : Runner}
    (settled : session.runner = some runner) :
    (settleRunner settings).run session = (runner, session) := by
  unfold settleRunner
  rw [StateT.run_modifyGet, settled]
  rfl

/-- The answer to the `n`-th question from now on where answers are arranged; none where it is a
failure. -/
def answerTo (session : Session) (n : Nat) : Option String :=
  session.replies[n]?.bind Except.toOption

/-- Whether an arranged answer is a failure or not, a summary is made of it. -/
theorem nextReply_cases (session : Session) :
    (∃ text, session.nextReply = .ok text ∧ session.answerTo 0 = some text) ∨
    ∃ fault, session.nextReply = .error fault ∧ fault.isTolerated = true ∧
      session.answerTo 0 = none := by
  unfold nextReply answerTo
  rcases session.replies with _ | ⟨reason | text, replies⟩
  · exact Or.inr ⟨_, rfl, rfl, rfl⟩
  · exact Or.inr ⟨_, rfl, rfl, rfl⟩
  · exact Or.inl ⟨text, rfl, rfl⟩

end Session

namespace Summary

variable {runner : Runner} {subject : Subject} {question : Question} {session after : Session}

/-- A question without a text is not asked. -/
theorem run_of_error {fault : SizeOverflow} (h : subject.question = .error fault) :
    (Summary.of runner subject).run.run session = (.error (.size fault), session) := by
  simp only [Summary.of, ofKind, questionAs, bne_self_eq_false, h]
  rfl

theorem run_of_ok {text : String} (h : subject.question = .ok question)
    (answered : (Session.ask runner question).run session = (.ok text, after)) :
    (Summary.of runner subject).run.run session = (.ok (some text), after) := by
  simp only [Summary.of, ofKind, questionAs, bne_self_eq_false, h]
  change ((accept ((Session.ask runner question).run session).1).run.run
    ((Session.ask runner question).run session).2) = _
  rw [answered]
  rfl

/-- After a tolerated fault there is no summary, and a notice. -/
theorem run_of_refused {fault : Endpoint.Fault} (h : subject.question = .ok question)
    (refused : (Session.ask runner question).run session = (.error fault, after))
    (tolerated : fault.isTolerated = true) :
    (Summary.of runner subject).run.run session = (.ok none,
      { after with notices := after.notices ++ [.unsummarized fault.message] }) := by
  simp only [Summary.of, ofKind, questionAs, bne_self_eq_false, h]
  change ((accept ((Session.ask runner question).run session).1).run.run
    ((Session.ask runner question).run session).2) = _
  rw [refused, accept, if_pos tolerated]
  rfl

/-- Where answers are arranged, a question takes one of them. -/
theorem run_of_arranged (h : subject.question = .ok question) (session : Session) :
    ∃ notices, (Summary.of .arranged subject).run.run session = (.ok (session.answerTo 0),
      { session with
        questions := session.questions ++ [question]
        replies := session.replies.drop 1
        notices := notices }) := by
  have taken : (Session.ask .arranged question).run session = _ :=
    Session.run_takeReply question session
  rcases session.nextReply_cases with ⟨text, reply, answer⟩ | ⟨fault, reply, tolerated, answer⟩
  · rw [reply] at taken
    rw [answer]
    exact ⟨session.notices, run_of_ok h taken⟩
  · rw [reply] at taken
    rw [answer]
    exact ⟨_, run_of_refused h taken tolerated⟩

end Summary

namespace Command

theorem run_runner {settings : Settings} {runner : Runner} {world : World}
    (enabled : settings.summarizer.enabled = true) (settled : world.session.runner = some runner) :
    (Command.runner settings true).run.run world =
      (.ok (some runner), world.withSession world.session) := by
  rw [Command.runner, if_pos (by simpa using enabled), run_bind, run_talk,
    Session.run_settleRunner settled]
  rfl

end Command

end Synopsis
