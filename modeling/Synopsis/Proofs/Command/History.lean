import Synopsis.Proofs.Command.Stages
import Synopsis.Proofs.Endpoint.Payload

/-!
# Histories of calls

A session goes through call after call. The files, the time, the variables and what the network
brings back may be others at every call; who answers and what was sent is carried over. The first
call that gets as far as to ask, and may, settles an endpoint, and all that is ever sent carries
what was resolved then. What the network does with a request is left open here.
-/

namespace Synopsis

/-- The number is zero, whole or not. -/
def Quantity.IsZero : Quantity → Prop
  | .whole n => n = 0
  | .real x => (x == 0.0) = true

theorem Quantity.isSet_datum (q : Quantity) : q.datum.isSet = true ↔ ¬ q.IsZero := by
  cases q <;> simp [datum, Datum.isSet, IsZero, bne]

namespace Endpoint

variable {e : Endpoint} {question : Question} {request : Request}

/-- A request may take the time that the endpoint was given, and a
minute if that is none or zero. -/
structure Bounds (e : Endpoint) (timeout : Quantity) : Prop where
  given : ∀ q, e.timeout = some q → ¬ q.IsZero → timeout = q
  otherwise : (∀ q, e.timeout = some q → q.IsZero) → timeout = .real 60.0

theorem bounds_patience (e : Endpoint) : e.Bounds e.patience where
  given q own nonzero := by rw [patience, own]; exact if_pos (q.isSet_datum.mpr nonzero)
  otherwise zero := by
    rw [patience]
    cases own : e.timeout with
    | none => rfl
    | some q => exact if_neg fun set => q.isSet_datum.mp set (zero q own)

/-- The request goes to the endpoint and carries its key. Its body is a payload of the endpoint,
which conveys the question to who reads it, and it may take the time of the endpoint. -/
structure Carries (e : Endpoint) (request : Request) : Prop where
  url : request.url = e.address
  headers : ∃ key, e.key.bind nonempty? = some key ∧
    request.headers = [("authorization", "Bearer " ++ key), ("content-type", "application/json")]
  body : ∃ question fields, request.body = Json.print (e.payload question) ∧
    Json.parse request.body = .ok (.table fields) ∧ e.Conveys question fields
  timeout : e.Bounds request.timeout

theorem carries_of_request (h : e.request question = .ok request) : e.Carries request := by
  obtain ⟨-, fields, read, conveys⟩ := parse_body h
  obtain ⟨key, keyed, -, -, rfl⟩ := request_eq_ok_iff.mp h
  exact ⟨rfl, ⟨key, keyed, rfl⟩, ⟨question, fields, rfl, read, conveys⟩, bounds_patience e⟩

end Endpoint

/-! ## What is kept of a session -/

/-- A property of sessions in which notices have no part. -/
class Noticeless (P : Session → Prop) : Prop where
  told : ∀ {session : Session} (notices : List Notice), P session → P { session with notices }

namespace Session

/-- Nobody answers yet, and nothing was sent. -/
structure Fresh (session : Session) : Prop where
  unsettled : session.runner = none
  unsent : session.requests = []

/-- An endpoint answers, and all that was sent carries it. -/
structure Faithful (e : Endpoint) (session : Session) : Prop where
  settled : session.runner = some (.endpoint e)
  carried : ∀ request ∈ session.requests, e.Carries request

instance : Noticeless Fresh := ⟨fun _ h => ⟨h.unsettled, h.unsent⟩⟩

instance {e : Endpoint} : Noticeless (Faithful e) := ⟨fun _ h => ⟨h.settled, h.carried⟩⟩

instance {requests : List Request} : Noticeless (requests <+: ·.requests) := ⟨fun _ h => h⟩

instance {P : Session → Prop} [Noticeless P] {known : Variables} :
    Noticeless (fun session => P session ∧ session.«variables» = known) :=
  ⟨fun notices h => ⟨Noticeless.told notices h.1, h.2⟩⟩

theorem run_settleRunner_of_none {settings : SummarySettings} {session : Session}
    (unsettled : session.runner = none) :
    (settleRunner settings).run session =
      let runner := Runner.endpoint (.ofOptions session.«variables» (Endpoint.optionsOf settings))
      (runner, { session with runner := some runner }) := by
  unfold settleRunner
  rw [StateT.run_modifyGet, unsettled]
  rfl

/-- Whatever somebody is asked, the property is kept. -/
def KeptBy (P : Session → Prop) (runner : Runner) : Prop :=
  ∀ question session, P session → P ((ask runner question).run session).2

/-- A question is sent to an endpoint in at most one request, which carries the endpoint. -/
theorem requests_askEndpoint (e : Endpoint) (question : Question) (session : Session) :
    ∃ sent, ((ask (.endpoint e) question).run session).2.requests = session.requests ++ sent ∧
      ∀ request ∈ sent, e.Carries request := by
  simp only [ask, askEndpoint]
  cases requested : e.request question with
  | error fault => exact ⟨[], (List.append_nil _).symm, by simp⟩
  | ok request =>
    refine ⟨[request], rfl, fun other h => ?_⟩
    rw [List.mem_singleton.mp h]
    exact Endpoint.carries_of_request requested

theorem runner_ask (runner : Runner) (question : Question) (session : Session) :
    ((ask runner question).run session).2.runner = session.runner := by
  cases runner with
  | arranged => rfl
  | endpoint e =>
    simp only [ask, askEndpoint]
    cases e.request question with
    | error fault => rfl
    | ok request => rfl

theorem keptBy_faithful (e : Endpoint) : KeptBy (Faithful e) (.endpoint e) := by
  intro question session faithful
  obtain ⟨sent, requests, carries⟩ := requests_askEndpoint e question session
  refine ⟨(runner_ask _ question session).trans faithful.settled, fun request h => ?_⟩
  rw [requests] at h
  exact (List.mem_append.mp h).elim (faithful.carried request) (carries request)

theorem keptBy_requests (requests : List Request) (runner : Runner) :
    KeptBy (requests <+: ·.requests) runner := by
  intro question session sofar
  cases runner with
  | arranged => exact sofar
  | endpoint e =>
    obtain ⟨sent, h, -⟩ := requests_askEndpoint e question session
    exact h ▸ sofar.trans (List.prefix_append _ _)

end Session

/-- A summary does no more to a session than its question, and a notice. -/
theorem Summary.session_of {P : Session → Prop} [Noticeless P] {runner : Runner}
    (kept : Session.KeptBy P runner) (subject : Subject) {session : Session} (h : P session) :
    P ((Summary.of runner subject).run.run session).2 := by
  cases asked : subject.question with
  | error fault =>
    rw [run_of_error asked]
    exact h
  | ok question =>
    have later := kept question session h
    rcases answered : (Session.ask runner question).run session with ⟨fault | text, after⟩
    · rw [answered] at later
      cases tolerated : fault.isTolerated with
      | true =>
        rw [run_of_refused asked answered tolerated]
        exact Noticeless.told _ later
      | false =>
        rw [run_of_failed asked answered tolerated]
        exact later
    · rw [answered] at later
      rw [run_of_ok asked answered]
      exact later

namespace Command

variable {α : Type} {P : Session → Prop} [Noticeless P]

/-- The property of the session is not lost. -/
def Stays (P : Session → Prop) (world after : World) : Prop := P world.session → P after.session

instance : Telling (Stays P) where
  refl _ := id
  trans h h' := h' ∘ h
  tell _ _ h := Noticeless.told _ h

omit [Noticeless P] in
theorem stays_write (path text : String) : Keeps (Stays P) (write path text) := by
  intro world h
  rw [run_write]
  exact h

theorem stays_writeIf (path : Option String) (text : String) :
    Keeps (Stays P) (writeIf path text) := by
  unfold writeIf
  split
  · exact .pure _
  · exact .bind (stays_write _ _) fun _ => .pure _

theorem stays_summarize {who : Option Runner} (kept : ∀ runner ∈ who, Session.KeptBy P runner)
    (subject : Subject) : Keeps (Stays P) (summarize who subject) := by
  cases who with
  | none => exact .pure _
  | some runner =>
    refine .bind (fun world h => ?_) fun _ => .lift _ _
    exact Summary.session_of (kept runner rfl) subject h

/-! ## Calls -/

namespace Stages

variable {stages : Stages α} {useModel : Bool} {settings : stages.Known → Settings} {world : World}

/-- Stages that settle who answers when everything is found out, under the settings found, and ask
nobody else. -/
structure Asking (stages : Stages α) (useModel : Bool) (settings : stages.Known → Settings) :
    Prop where
  surveys : ∀ {R : World → World → Prop} [Telling R], Keeps R stages.survey
  composes : ∀ known, ∃ draft : Option Runner → Command stages.Draft,
    stages.compose known = runner (settings known) useModel >>= draft ∧
      ∀ {R : World → World → Prop} [Telling R] (who : Option Runner),
        (∀ subject, Keeps R (summarize who subject)) → Keeps R (draft who)
  finishes : ∀ {P : Session → Prop} [Noticeless P] draft, Keeps (Stays P) (stages.finish draft)

/-- The settings for summaries, if everything is found out and both the caller and the settings want
summaries. -/
def wanted? (stages : Stages α) (useModel : Bool) (settings : stages.Known → Settings)
    (world : World) : Option SummarySettings :=
  match (stages.survey.run.run world).1 with
  | .error _ => none
  | .ok known =>
    let wanted := (settings known).summarizer
    if useModel && wanted.enabled then some wanted else none

namespace Asking

/-- Nobody is asked when no summaries are wanted. -/
theorem stays_of_unwanted (asking : stages.Asking useModel settings)
    (unwanted : stages.wanted? useModel settings world = none) :
    Stays P world (stages.run.run.run world).2 := by
  have surveyed := asking.surveys (R := Stays P) world
  unfold wanted? at unwanted
  rw [Stages.run]
  rcases survey : stages.survey.run.run world with ⟨failure | known, mid⟩
  · rw [run_bind_error survey]
    rwa [survey] at surveyed
  rw [survey] at surveyed unwanted
  obtain ⟨draft, compose, drafts⟩ := asking.composes known
  have off : ¬ (useModel && (settings known).summarizer.enabled) = true := by
    intro on
    simp only [if_pos on, reduceCtorEq] at unwanted
  have rest : Keeps (Stays P) (stages.compose known >>= stages.finish) := by
    rw [compose, runner, if_neg off, pure_bind]
    exact .bind (drafts _ (stays_summarize (by simp))) asking.finishes
  rw [run_bind_ok survey]
  exact Lasting.trans surveyed (rest mid)

/-- When summaries are wanted, it is settled who answers, and then nobody else is asked. -/
theorem stays_of_wanted {Q : Session → Prop} [Noticeless Q] {wanted : SummarySettings}
    (asking : stages.Asking useModel settings)
    (h : stages.wanted? useModel settings world = some wanted)
    (settled : ∀ session, P session → Q ((Session.settleRunner wanted).run session).2 ∧
      Session.KeptBy Q ((Session.settleRunner wanted).run session).1) :
    P world.session → Q (stages.run.run.run world).2.session := by
  intro before
  have surveyed := asking.surveys (R := Stays P) world before
  unfold wanted? at h
  rcases survey : stages.survey.run.run world with ⟨failure | known, mid⟩
  · rw [survey] at h
    cases h
  rw [survey] at surveyed h
  obtain ⟨on, rfl⟩ : (useModel && (settings known).summarizer.enabled) = true ∧
      (settings known).summarizer = wanted := by simpa using h
  obtain ⟨after, kept⟩ := settled mid.session surveyed
  obtain ⟨draft, compose, drafts⟩ := asking.composes known
  have rest (who : Option Runner) (kept : ∀ runner ∈ who, Session.KeptBy Q runner) :
      Keeps (Stays Q) (draft who >>= stages.finish) :=
    .bind (drafts who (stays_summarize kept)) asking.finishes
  rw [Stages.run, run_bind_ok survey, compose, runner, if_pos on, bind_assoc, bind_assoc,
    run_bind_ok (run_talk _ _), pure_bind]
  exact rest _ (by simpa using kept) _ after

end Asking

end Stages

theorem asking_summary (options : SummaryOptions) :
    (summaryStages options).Asking options.useModel fun (settings, _) => settings where
  surveys := keeps_summary_survey options
  composes := fun (_, _) =>
    ⟨_, rfl, fun _ asks => .bind (asks _) fun _ => .lift _ _⟩
  finishes _ := .bind (stays_writeIf _ _) fun _ => .pure _

theorem asking_file (options : FileOptions) :
    (fileStages options).Asking options.useModel fun (settings, _, _) => settings where
  surveys := keeps_file_survey options
  composes := fun (_, _, _) =>
    ⟨_, rfl, fun _ asks => .bind (asks _) fun _ => .lift _ _⟩
  finishes _ := .bind (stays_writeIf _ _) fun _ => .pure _

theorem asking_report (options : ExportOptions) :
    (reportStages options).Asking options.useModel fun (settings, _, _) => settings where
  surveys := keeps_report_survey options
  composes := fun (_, _, _) =>
    ⟨_, rfl, fun _ asks => .bind (keeps_summarizeAll asks _ _ _) fun _ =>
      .bind Lasting.refl fun _ => .bind (.lift _ _) fun _ => .pure _⟩
  finishes _ := .bind (stays_write _ _) fun _ => .bind (keeps_tell _) fun _ => .pure _

end Command

/-- A call of one of the commands. -/
inductive Call where
  | summary (options : Command.SummaryOptions)
  | describe (options : Command.FileOptions)
  | report (options : Command.ExportOptions)

namespace Call

open Command

/-- The world after a call, whether it fails or not. -/
def after (world : World) : Call → World
  | .summary options => ((Command.summary options).run.run world).2
  | .describe options => ((Command.describe options).run.run world).2
  | .report options => ((Command.report options).run.run world).2

/-- The settings for summaries of a call that gets as far as to ask for them, and may: by its
options and by the settings that it finds. -/
def wanted? (world : World) : Call → Option SummarySettings
  | .summary options =>
    (summaryStages options).wanted? options.useModel (fun (settings, _) => settings) world
  | .describe options =>
    (fileStages options).wanted? options.useModel (fun (settings, _, _) => settings) world
  | .report options =>
    (reportStages options).wanted? options.useModel (fun (settings, _, _) => settings) world

/-- A call goes through stages that ask as they should. -/
theorem staged (call : Call) :
    ∃ (α : Type) (stages : Stages α) (useModel : Bool) (settings : stages.Known → Settings),
      stages.Asking useModel settings ∧ ∀ world,
        call.after world = (stages.run.run.run world).2 ∧
        call.wanted? world = stages.wanted? useModel settings world := by
  cases call with
  | summary options =>
    exact ⟨_, _, _, _, asking_summary options, fun world =>
      ⟨by rw [after, summary_eq_stages], rfl⟩⟩
  | describe options =>
    exact ⟨_, _, _, _, asking_file options, fun world =>
      ⟨by rw [after, describe_eq_stages], rfl⟩⟩
  | report options =>
    exact ⟨_, _, _, _, asking_report options, fun world =>
      ⟨by rw [after, report_eq_stages], rfl⟩⟩

variable {P Q : Session → Prop} [Noticeless P] [Noticeless Q] {call : Call} {world : World}

theorem stays_of_unwanted (unwanted : call.wanted? world = none) :
    P world.session → P (call.after world).session := by
  obtain ⟨α, stages, useModel, settings, asking, staged⟩ := call.staged
  rw [(staged world).2] at unwanted
  rw [(staged world).1]
  exact asking.stays_of_unwanted unwanted

theorem stays_of_wanted {wanted : SummarySettings} (h : call.wanted? world = some wanted)
    (settled : ∀ session, P session → Q ((Session.settleRunner wanted).run session).2 ∧
      Session.KeptBy Q ((Session.settleRunner wanted).run session).1) :
    P world.session → Q (call.after world).session := by
  obtain ⟨α, stages, useModel, settings, asking, staged⟩ := call.staged
  rw [(staged world).2] at h
  rw [(staged world).1]
  exact asking.stays_of_wanted h settled

/-- A property is kept that is kept by whoever answers. -/
theorem stays
    (settled : ∀ wanted session, P session → P ((Session.settleRunner wanted).run session).2 ∧
      Session.KeptBy P ((Session.settleRunner wanted).run session).1) :
    P world.session → P (call.after world).session := by
  cases h : call.wanted? world with
  | none => exact stays_of_unwanted h
  | some wanted => exact stays_of_wanted h (settled wanted)

end Call

/-! ## Histories -/

/-- A call, and where and when it is made. -/
structure Turn where
  call : Call
  workspace : Workspace
  now : Moment
  journal : Option Journal := none
  «variables» : Variables := []
  /-- What the network will bring back. -/
  deliveries : List Delivery := []

namespace Turn

/-- The world in which a session takes the turn. -/
def world (turn : Turn) (session : Session) : World where
  workspace := turn.workspace
  now := turn.now
  journal := turn.journal
  session := { session with
    «variables» := turn.variables
    deliveries := turn.deliveries }

/-- The session after the turn. -/
def next (turn : Turn) (session : Session) : Session :=
  (turn.call.after (turn.world session)).session

/-- The endpoint that the turn would settle: none if it does not get
as far as to ask, or may not. -/
def endpoint? (turn : Turn) (session : Session) : Option Endpoint :=
  (turn.call.wanted? (turn.world session)).map fun settings =>
    .ofOptions turn.variables (Endpoint.optionsOf settings)

variable {turn : Turn} {session : Session} {e : Endpoint}

theorem fresh_next (fresh : session.Fresh) (h : turn.endpoint? session = none) :
    (turn.next session).Fresh :=
  Call.stays_of_unwanted (Option.map_eq_none_iff.mp h) ⟨fresh.unsettled, fresh.unsent⟩

theorem faithful_next_of_fresh (fresh : session.Fresh) (h : turn.endpoint? session = some e) :
    (turn.next session).Faithful e := by
  obtain ⟨wanted, hwanted, rfl⟩ := Option.map_eq_some_iff.mp h
  refine Call.stays_of_wanted (P := fun s => s.Fresh ∧ s.«variables» = turn.variables) hwanted ?_
    ⟨⟨fresh.unsettled, fresh.unsent⟩, rfl⟩
  rintro session ⟨fresh, known⟩
  rw [Session.run_settleRunner_of_none fresh.unsettled, known]
  refine ⟨⟨rfl, ?_⟩, Session.keptBy_faithful _⟩
  simp [fresh.unsent]

theorem faithful_next (faithful : session.Faithful e) : (turn.next session).Faithful e := by
  refine Call.stays (P := Session.Faithful e) (fun wanted session faithful => ?_)
    ⟨faithful.settled, faithful.carried⟩
  rw [Session.run_settleRunner faithful.settled]
  exact ⟨faithful, Session.keptBy_faithful e⟩

/-- What was sent stays on record. -/
theorem requests_next (turn : Turn) (session : Session) :
    session.requests <+: (turn.next session).requests := by
  refine Call.stays (P := fun s => session.requests <+: s.requests) (fun wanted s sofar => ?_)
    (List.prefix_refl _)
  refine ⟨?_, Session.keptBy_requests _ _⟩
  cases settled : s.runner with
  | some runner => rwa [Session.run_settleRunner settled]
  | none => rwa [Session.run_settleRunner_of_none settled]

end Turn

namespace Session

variable {session : Session} {e : Endpoint}

/-- The session after some turns. -/
def after (session : Session) (turns : List Turn) : Session :=
  turns.foldl (fun session turn => turn.next session) session

theorem after_append (session : Session) (before later : List Turn) :
    session.after (before ++ later) = (session.after before).after later :=
  List.foldl_append

theorem requests_after (session : Session) (turns : List Turn) :
    session.requests <+: (session.after turns).requests := by
  induction turns generalizing session with
  | nil => exact List.prefix_refl _
  | cons turn turns ih => exact (turn.requests_next session).trans (ih _)

theorem faithful_after (faithful : session.Faithful e) (turns : List Turn) :
    (session.after turns).Faithful e := by
  induction turns generalizing session with
  | nil => exact faithful
  | cons turn turns ih => exact ih (Turn.faithful_next faithful)

/-- No turn gets as far as to ask, and may. -/
def Quiet (session : Session) : List Turn → Prop
  | [] => True
  | turn :: turns => turn.endpoint? session = none ∧ (turn.next session).Quiet turns

theorem fresh_after (fresh : session.Fresh) {turns : List Turn} (quiet : session.Quiet turns) :
    (session.after turns).Fresh := by
  induction turns generalizing session with
  | nil => exact fresh
  | cons turn turns ih => exact ih (Turn.fresh_next fresh quiet.1) quiet.2

theorem faithful_after_first (fresh : session.Fresh) {before : List Turn} {turn : Turn}
    (quiet : session.Quiet before) (first : turn.endpoint? (session.after before) = some e)
    (later : List Turn) : (session.after (before ++ turn :: later)).Faithful e := by
  rw [after_append]
  exact faithful_after (Turn.faithful_next_of_fresh (fresh_after fresh quiet) first) later

/-- Unless all turns are quiet, there is a first one that is not. -/
theorem quiet_or_first (session : Session) (turns : List Turn) :
    session.Quiet turns ∨ ∃ before turn later e, turns = before ++ turn :: later ∧
      session.Quiet before ∧ turn.endpoint? (session.after before) = some e := by
  induction turns generalizing session with
  | nil => exact Or.inl trivial
  | cons turn turns ih =>
    cases h : turn.endpoint? session with
    | some e => exact Or.inr ⟨[], turn, turns, e, rfl, trivial, h⟩
    | none =>
      rcases ih (turn.next session) with quiet | ⟨before, other, later, e, rfl, quiet, first⟩
      · exact Or.inl ⟨h, quiet⟩
      · exact Or.inr ⟨turn :: before, other, later, e, rfl, ⟨h, quiet⟩, first⟩

/-- Who answers once does so for good. -/
theorem runner_after_of_some (fresh : session.Fresh) {before : List Turn} {runner : Runner}
    (h : (session.after before).runner = some runner) (later : List Turn) :
    (session.after (before ++ later)).runner = some runner := by
  rcases session.quiet_or_first before with quiet | ⟨first, turn, rest, e, rfl, quiet, settles⟩
  · cases (fresh_after fresh quiet).unsettled.symm.trans h
  · rw [← h, (faithful_after_first fresh quiet settles rest).settled, List.append_assoc,
      List.cons_append]
    exact (faithful_after_first fresh quiet settles (rest ++ later)).settled

/-- Before the first turn that gets as far as to ask, and may, nobody answers and nothing is sent.
From then on an endpoint answers, the one that the settings and the variables of this turn name, and
whatever was sent carries it. Who answers stays the same for good, and what was sent on record. -/
theorem endpoint_settled_once (fresh : session.Fresh) :
    (∀ turns, session.Quiet turns → (session.after turns).Fresh) ∧
    (∀ before turn later e, session.Quiet before → turn.endpoint? (session.after before) = some e →
      (session.after (before ++ turn :: later)).Faithful e) ∧
    ∀ before later,
      (∀ runner, (session.after before).runner = some runner →
        (session.after (before ++ later)).runner = some runner) ∧
      (session.after before).requests <+: (session.after (before ++ later)).requests := by
  refine ⟨fun turns quiet => fresh_after fresh quiet, fun before turn later e quiet first =>
    faithful_after_first fresh quiet first later, fun before later => ⟨fun runner h =>
    runner_after_of_some fresh h later, ?_⟩⟩
  rw [after_append]
  exact requests_after _ later

/-- A file at which nobody answers, with a key in the variables. -/
def keyedTurn (path : String) (useModel : Bool) (key : String) : Turn where
  call := .describe { path, useModel }
  workspace :=
    { disk := .folder [("p", .folder [("a.go", .file "package a\n".toUTF8)])], working := ["p"] }
  now := .day ⟨2024, 5, 17⟩
  «variables» := [("OPENAI_API_KEY", key)]

/-- Two calls that do not ask, and two that do. -/
theorem endpoint_settled_once_keyedTurns :
    let before := [keyedTurn "b.go" true "i", keyedTurn "a.go" false "j"]
    let first := keyedTurn "a.go" true "k"
    let later := [keyedTurn "a.go" true "l"]
    ∃ e : Endpoint, Session.Quiet {} before ∧
      first.endpoint? (Session.after {} before) = some e ∧ e.key = some "k" ∧
      (Session.after {} (before ++ first :: later)).Faithful e ∧
      (Session.after {} (before ++ first :: later)).requests.length = 2 := by
  intro before first later
  have quiet : Session.Quiet {} before := by
    refine ⟨Option.isNone_iff_eq_none.mp ?_, Option.isNone_iff_eq_none.mp ?_, trivial⟩
    · decide +kernel
    · decide +kernel
  have keyed : (first.endpoint? (Session.after {} before)).map Endpoint.key = some (some "k") := by
    decide +kernel
  obtain ⟨e, settles, key⟩ := Option.map_eq_some_iff.mp keyed
  exact ⟨e, quiet, settles, key,
    (endpoint_settled_once ⟨rfl, rfl⟩).2.1 before first later e quiet settles, by decide +kernel⟩

end Session

end Synopsis
