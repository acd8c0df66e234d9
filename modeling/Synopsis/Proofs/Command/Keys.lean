import Mathlib.Data.List.Forall2
import Synopsis.Proofs.Command.History

/-!
# Keys stay in the headers

Two worlds that differ at most in the keys of endpoints go through every command alike: it gives the
same text or fails with the same failure, leaves the same disk, tells the same notices, asks the
same questions and sends the same requests but for one header. So nothing of a key is anywhere else.
Whether there is a key at all may be seen, and is the same in both.
-/

namespace Synopsis

namespace Endpoint

/-- The variables are the same but for those that hold a key, and there is a key in both or in
neither. -/
structure SameVariables (known other : Variables) : Prop where
  others : ∀ name, name ∉ keyVariables → Table.get? name known = Table.get? name other
  keyed : (firstValue? keyVariables known).isSome = (firstValue? keyVariables other).isSome

/-- The endpoints are the same but for the key, and there is a key in both or in neither. -/
structure SameButKey (e other : Endpoint) : Prop where
  others : other = { e with key := other.key }
  keyed : (e.key.bind nonempty?).isSome = (other.key.bind nonempty?).isSome

end Endpoint

/-- The requests are the same but for what authorizes them. -/
structure Request.SameButKey (request other : Request) : Prop where
  url : request.url = other.url
  body : request.body = other.body
  timeout : request.timeout = other.timeout
  names : request.headers.map Prod.fst = other.headers.map Prod.fst
  headers : request.headers.filter (·.1 != "authorization") =
    other.headers.filter (·.1 != "authorization")

/-- The same answers, or endpoints that are the same but for the key. -/
inductive Runner.SameButKey : Runner → Runner → Prop
  | arranged : SameButKey .arranged .arranged
  | endpoint {e other : Endpoint} : e.SameButKey other → SameButKey (.endpoint e) (.endpoint other)

/-- The sessions are the same but for the keys that they know and that they have sent. -/
structure Session.SameButKeys (session other : Session) : Prop where
  «variables» : Endpoint.SameVariables session.«variables» other.«variables»
  runner : Option.Rel Runner.SameButKey session.runner other.runner
  replies : session.replies = other.replies
  deliveries : session.deliveries = other.deliveries
  questions : session.questions = other.questions
  requests : List.Forall₂ Request.SameButKey session.requests other.requests
  notices : session.notices = other.notices

/-- The worlds are the same but for the keys of their sessions. -/
structure World.SameButKeys (world other : World) : Prop where
  workspace : world.workspace = other.workspace
  now : world.now = other.now
  journal : world.journal = other.journal
  session : world.session.SameButKeys other.session

/-! ## Endpoints -/

namespace Endpoint

variable {known known' : Variables} {e other : Endpoint}

theorem firstValue?_congr {names : List String}
    (same : ∀ name ∈ names, Table.get? name known = Table.get? name known') :
    firstValue? names known = firstValue? names known' := by
  induction names with
  | nil => rfl
  | cons name names ih =>
    obtain ⟨first, rest⟩ := List.forall_mem_cons.mp same
    simp only [firstValue?] at ih
    rw [firstValue?, firstValue?, List.findSome?_cons, List.findSome?_cons, first, ih rest]

/-- What is found among variables is not empty. -/
theorem firstValue?_bind_nonempty? (names : List String) (known : Variables) :
    (firstValue? names known).bind nonempty? = firstValue? names known := by
  cases found : firstValue? names known with
  | none => rfl
  | some value =>
    obtain ⟨name, -, held⟩ := List.exists_of_findSome?_eq_some found
    obtain ⟨text, -, nonempty⟩ := Option.bind_eq_some_iff.mp held
    have same : text = value := by
      rw [nonempty?] at nonempty
      split at nonempty
      · cases nonempty
      · exact Option.some.inj nonempty
    subst same
    exact nonempty

theorem ofOptions_sameButKey (same : SameVariables known known') (options : EndpointOptions) :
    SameButKey (ofOptions known options) (ofOptions known' options) := by
  have models : firstValue? modelVariables known = firstValue? modelVariables known' :=
    firstValue?_congr fun name inside => same.others name (by revert name; decide)
  have places : firstValue? baseUrlVariables known = firstValue? baseUrlVariables known' :=
    firstValue?_congr fun name inside => same.others name (by revert name; decide)
  constructor
  · simp only [ofOptions, models, places]
  · rw [ofOptions, ofOptions]
    cases options.key with
    | given key => rfl
    | «variables» =>
      simp only [firstValue?_bind_nonempty?]
      exact same.keyed

/-- A question to endpoints that are the same but for the key gives the same fault, or requests that
are the same but for the key. -/
theorem request_sameButKey (same : e.SameButKey other) (question : Question) :
    (∃ fault, e.request question = .error fault ∧ other.request question = .error fault) ∨
      ∃ request request', e.request question = .ok request ∧
        other.request question = .ok request' ∧ request.SameButKey request' := by
  obtain ⟨others, keyed⟩ := same
  have payloads : other.payload question = e.payload question := by rw [others]; rfl
  have addresses : other.address = e.address := by rw [others]; rfl
  have patiences : other.patience = e.patience := by rw [others]; rfl
  rw [request, request, payloads, addresses, patiences]
  cases held : e.key.bind nonempty? with
  | none =>
    rw [held] at keyed
    have unheld : other.key.bind nonempty? = none :=
      Option.isNone_iff_eq_none.mp (Option.isSome_eq_false_iff.mp keyed.symm)
    rw [unheld]
    exact Or.inl ⟨_, rfl, rfl⟩
  | some key =>
    rw [held] at keyed
    obtain ⟨key', held'⟩ := Option.isSome_iff_exists.mp keyed.symm
    rw [held']
    dsimp only
    split
    · exact Or.inl ⟨_, rfl, rfl⟩
    · split
      · exact Or.inl ⟨_, rfl, rfl⟩
      · exact Or.inr ⟨_, _, rfl, rfl, rfl, rfl, rfl, rfl, rfl⟩

end Endpoint

/-! ## Sessions -/

namespace Session

variable {session other : Session} {runner runner' : Runner}

theorem SameButKeys.tell (same : session.SameButKeys other) (notice : Notice) :
    SameButKeys { session with notices := session.notices ++ [notice] }
      { other with notices := other.notices ++ [notice] } :=
  { same with notices := by rw [same.notices] }

/-- Whoever answers gives the same answer without regard to the key. -/
theorem ask_sameButKeys (same : session.SameButKeys other) (alike : runner.SameButKey runner')
    (question : Question) :
    ((ask runner question).run session).1 = ((ask runner' question).run other).1 ∧
      SameButKeys ((ask runner question).run session).2 ((ask runner' question).run other).2 := by
  cases alike with
  | arranged =>
    rw [ask, run_takeReply, run_takeReply]
    refine ⟨by rw [nextReply, nextReply, same.replies],
      { same with replies := ?_, questions := ?_ }⟩
    · rw [same.replies]
    · rw [same.questions]
  | @endpoint e other' alike =>
    have patiences : other'.patience = e.patience := by rw [alike.others]; rfl
    simp only [ask, askEndpoint]
    rcases Endpoint.request_sameButKey alike question with
      ⟨fault, refused, refused'⟩ | ⟨request, request', sent, sent', requests⟩
    · rw [refused, refused']
      exact ⟨rfl, same⟩
    · rw [sent, sent', patiences]
      refine ⟨?_, { same with deliveries := ?_, requests := ?_ }⟩
      · change Endpoint.answer _ (session.deliveries.head?.getD _) =
          Endpoint.answer _ (other.deliveries.head?.getD _)
        rw [same.deliveries]
      · change session.deliveries.drop 1 = other.deliveries.drop 1
        rw [same.deliveries]
      · exact List.rel_append same.requests (.cons requests .nil)

/-- Who answers is settled without regard to the key. -/
theorem settleRunner_sameButKeys (same : session.SameButKeys other) (settings : SummarySettings) :
    Runner.SameButKey ((settleRunner settings).run session).1
        ((settleRunner settings).run other).1 ∧
      SameButKeys ((settleRunner settings).run session).2
        ((settleRunner settings).run other).2 := by
  have runners := same.runner
  cases unsettled : session.runner with
  | none =>
    rw [unsettled] at runners
    cases unsettled' : other.runner with
    | some runner' => rw [unsettled'] at runners; cases runners
    | none =>
      rw [run_settleRunner_of_none unsettled, run_settleRunner_of_none unsettled']
      have alike : Runner.SameButKey
          (.endpoint (.ofOptions session.«variables» (Endpoint.optionsOf settings)))
          (.endpoint (.ofOptions other.«variables» (Endpoint.optionsOf settings))) :=
        .endpoint (Endpoint.ofOptions_sameButKey same.«variables» _)
      exact ⟨alike, { same with runner := .some alike }⟩
  | some runner =>
    rw [unsettled] at runners
    cases settled' : other.runner with
    | none => rw [settled'] at runners; cases runners
    | some runner' =>
      rw [settled'] at runners
      rw [run_settleRunner unsettled, run_settleRunner settled']
      cases runners with
      | some alike => exact ⟨alike, same⟩

end Session

/-- A summary is made, or not made, without regard to the key. -/
theorem Summary.of_sameButKeys {session other : Session} {runner runner' : Runner}
    (same : session.SameButKeys other) (alike : runner.SameButKey runner') (subject : Subject) :
    ((Summary.of runner subject).run.run session).1 =
        ((Summary.of runner' subject).run.run other).1 ∧
      Session.SameButKeys ((Summary.of runner subject).run.run session).2
        ((Summary.of runner' subject).run.run other).2 := by
  cases asked : subject.question with
  | error fault =>
    rw [run_of_error asked, run_of_error asked]
    exact ⟨rfl, same⟩
  | ok question =>
    have answers := Session.ask_sameButKeys same alike question
    rcases answered : (Session.ask runner question).run session with ⟨answer, after⟩
    rcases answered' : (Session.ask runner' question).run other with ⟨answer', after'⟩
    rw [answered, answered'] at answers
    obtain ⟨rfl, later⟩ := answers
    cases answer with
    | ok text =>
      rw [run_of_ok asked answered, run_of_ok asked answered']
      exact ⟨rfl, later⟩
    | error fault =>
      cases tolerated : fault.isTolerated with
      | true =>
        rw [run_of_refused asked answered tolerated, run_of_refused asked answered' tolerated]
        exact ⟨rfl, later.tell _⟩
      | false =>
        rw [run_of_failed asked answered tolerated, run_of_failed asked answered' tolerated]
        exact ⟨rfl, later⟩

theorem World.SameButKeys.withSession {world other : World} {session session' : Session}
    (same : world.SameButKeys other) (later : session.SameButKeys session') :
    (world.withSession session).SameButKeys (other.withSession session') := by
  have disks : (world.withSession session).workspace = (other.withSession session').workspace := by
    simp only [World.withSession, same.workspace, same.now, same.journal, same.session.notices,
      later.notices]
  exact ⟨disks, same.now, same.journal, later⟩

namespace Command

/-! ## Commands -/

/-- Both fail with the same failure, or both give values and these are related. -/
inductive Ends {α β : Type} (R : α → β → Prop) : Except Failure α → Except Failure β → Prop
  | ok {a : α} {b : β} : R a b → Ends R (.ok a) (.ok b)
  | error (failure : Failure) : Ends R (.error failure) (.error failure)

/-- In worlds that are the same but for the keys the commands end alike, and so do the worlds. -/
def Twin {α β : Type} (R : α → β → Prop) (c : Command α) (d : Command β) : Prop :=
  ∀ ⦃world other : World⦄, world.SameButKeys other →
    Ends R (c.run.run world).1 (d.run.run other).1 ∧
      (c.run.run world).2.SameButKeys (d.run.run other).2

/-- The command does not regard the keys. -/
abbrev Blind {α : Type} (c : Command α) : Prop := Twin Eq c c

section Rules

variable {α β γ δ ε : Type} {R : α → β → Prop} {S : γ → δ → Prop}

theorem Ends.eq {result result' : Except Failure α} (h : Ends Eq result result') :
    result = result' := by
  cases h with
  | ok same => rw [same]
  | error failure => rfl

theorem Twin.pure {a : α} {b : β} (related : R a b) :
    Twin R (Pure.pure a : Command α) (Pure.pure b) := fun _ _ same => ⟨.ok related, same⟩

theorem Twin.bind {c : Command α} {d : Command β} {f : α → Command γ} {g : β → Command δ}
    (first : Twin R c d) (rest : ∀ a b, R a b → Twin S (f a) (g b)) :
    Twin S (c >>= f) (d >>= g) := by
  intro world other same
  have ended := first same
  rw [run_bind, run_bind]
  generalize c.run.run world = run, d.run.run other = run' at ended ⊢
  obtain ⟨result, after⟩ := run
  obtain ⟨result', after'⟩ := run'
  obtain ⟨results, later⟩ := ended
  cases results with
  | ok related => exact rest _ _ related later
  | error failure => exact ⟨.error failure, later⟩

/-- First steps that end with the same value. -/
theorem Twin.after {c d : Command α} {f : α → Command γ} {g : α → Command δ} (first : Twin Eq c d)
    (rest : ∀ a, Twin S (f a) (g a)) : Twin S (c >>= f) (d >>= g) := by
  refine Twin.bind first ?_
  rintro a _ rfl
  exact rest a

theorem Twin.lift (wrap : ε → Failure) (result : Except ε α) :
    Blind (Command.lift wrap result) := by
  intro world other same
  cases result with
  | ok a => exact ⟨.ok rfl, same⟩
  | error e => exact ⟨.error _, same⟩

theorem Twin.workspace : Blind Command.workspace := fun _ _ same => ⟨.ok same.workspace, same⟩

theorem Twin.tell (notice : Notice) : Blind (Command.tell notice) := fun _ _ same =>
  ⟨.ok rfl, same.withSession (same.session.tell notice)⟩

theorem Twin.mapM {f g : α → Command γ} (items : List α)
    (each : ∀ item, Twin Eq (f item) (g item)) :
    Twin Eq (items.mapM f) (items.mapM g) := by
  induction items with
  | nil => exact Twin.pure rfl
  | cons item items ih =>
    rw [List.mapM_cons, List.mapM_cons]
    exact .after (each item) fun first => .after ih fun rest => .pure rfl

theorem Twin.forM {f : α → Command PUnit} (items : List α) (each : ∀ item, Blind (f item)) :
    Blind (items.forM f) := by
  induction items with
  | nil => exact Twin.pure rfl
  | cons item items ih => exact .after (each item) fun _ => ih

end Rules

/-! ## The steps that the commands share -/

theorem blind_extract (path text : String) (withTree : Bool) :
    Blind (extract path text withTree) := by
  unfold extract
  dsimp only
  split
  · split
    · exact .after (.tell _) fun _ => .pure rfl
    · exact .pure rfl
  · exact .pure rfl

theorem blind_analyze (root : Location) (settings : Settings) (depth : Int) :
    Blind (analyze root settings depth) := by
  refine .after .workspace fun w => .after (.lift _ _) fun files => ?_
  refine .after (.tell _) fun _ => .after (.tell _) fun _ => ?_
  refine .after .workspace fun w => .after (.lift _ _) fun facts => ?_
  exact .after (.forM _ .tell) fun _ => .pure rfl

theorem blind_parseFiles (files : List String) (limit : Int) : Blind (parseFiles files limit) := by
  refine .after (.mapM _ fun path => ?_) fun found => .pure rfl
  refine .after .workspace fun w => ?_
  split
  · exact .after (.tell _) fun _ => .pure rfl
  · exact .after (blind_extract _ _ _) fun record => .pure rfl

theorem blind_write (path text : String) : Blind (write path text) := by
  intro world other same
  rw [run_write, run_write, same.workspace]
  refine ⟨?_, { same with workspace := rfl }⟩
  cases (other.workspace.writeOutput path text).2 with
  | ok place => exact .ok rfl
  | error fault => exact .error _

theorem blind_conclude (output : Option String) (text : Except SizeOverflow String) :
    Blind (conclude output text) := by
  refine .after (.lift _ _) fun text => .after ?_ fun place => .pure rfl
  unfold writeIf
  split
  · exact .pure rfl
  · exact .after (blind_write _ _) fun place => .pure rfl

/-- Who answers is the same but for the key. -/
theorem twin_runner (settings : Settings) (useModel : Bool) :
    Twin (Option.Rel Runner.SameButKey) (runner settings useModel) (runner settings useModel) := by
  unfold runner
  split
  · refine .bind (R := Runner.SameButKey) ?_ fun a b alike => .pure (.some alike)
    intro world other same
    obtain ⟨alike, later⟩ := Session.settleRunner_sameButKeys same.session settings.summarizer
    rw [run_talk, run_talk]
    exact ⟨.ok alike, same.withSession later⟩
  · exact .pure .none

section Asking

variable {runner runner' : Option Runner} (alike : Option.Rel Runner.SameButKey runner runner')
include alike

theorem twin_summarize (subject : Subject) :
    Twin Eq (summarize runner subject) (summarize runner' subject) := by
  cases alike with
  | none => exact .pure rfl
  | @some who who' alike =>
    refine .after ?_ fun summary => .lift _ summary
    intro world other same
    obtain ⟨summaries, later⟩ := Summary.of_sameButKeys same.session alike subject
    rw [run_talk, run_talk]
    exact ⟨.ok summaries, same.withSession later⟩

theorem twin_summarizeAll (facts : ProjectFacts) (limit : Int)
    (parsed : List (FileRecord × String)) :
    Twin Eq (summarizeAll runner facts limit parsed) (summarizeAll runner' facts limit parsed) := by
  refine .after (twin_summarize alike _) fun summary => ?_
  cases summary with
  | none => exact .pure rfl
  | some summary =>
    refine .after (.after (.mapM _ fun entry => ?_) fun found => .pure rfl) fun all => .pure rfl
    exact twin_summarize alike _

end Asking

theorem blind_publish (output : String) (includeCode : Bool) (facts : ProjectFacts)
    (summary : Option String) (parsed : List (FileRecord × String))
    (summaries : List (Option String)) :
    Blind (publish output includeCode facts summary parsed summaries) := by
  refine .bind (R := World.SameButKeys) (fun world other same => ⟨.ok same, same⟩) ?_
  intro world other same
  rw [same.workspace, same.now]
  refine .after (.lift _ _) fun text => .after (blind_write _ _) fun place => ?_
  exact .after (.tell _) fun _ => .pure rfl

/-! ## The commands -/

theorem blind_summary (options : SummaryOptions) : Blind (summary options) := by
  refine .after .workspace fun w => .after (.lift _ _) fun root =>
    .after (.lift _ _) fun found => ?_
  refine .after (blind_analyze _ _ _) fun facts => ?_
  refine .bind (twin_runner _ _) fun runner runner' alike => ?_
  exact .after (twin_summarize alike _) fun summary => blind_conclude _ _

theorem blind_describe (options : FileOptions) : Blind (describe options) := by
  refine .after .workspace fun w => .after (.lift _ _) fun place => ?_
  refine .after (.lift _ _) fun bytes => .after (.lift _ _) fun found => ?_
  refine .after (blind_extract _ _ _) fun record => ?_
  refine .bind (twin_runner _ _) fun runner runner' alike => ?_
  exact .after (twin_summarize alike _) fun summary => blind_conclude _ _

theorem blind_report (options : ExportOptions) : Blind (report options) := by
  refine .after .workspace fun w => .after (.lift _ _) fun root =>
    .after (.lift _ _) fun found => ?_
  refine .after (blind_analyze _ _ _) fun facts => .after (blind_parseFiles _ _) fun parsed => ?_
  refine .after (.tell _) fun _ => ?_
  refine .bind (twin_runner _ _) fun runner runner' alike => ?_
  exact .after (twin_summarizeAll alike _ _ _) fun summaries => blind_publish _ _ _ _ _ _

/-- Worlds that are the same but for the keys of their sessions stay so through every command, and
the command ends in both with the same values or the same failure. -/
theorem keys_stay_in_headers {world other : World} (same : world.SameButKeys other) :
    (∀ options : SummaryOptions,
      ((summary options).run.run world).1 = ((summary options).run.run other).1 ∧
      ((summary options).run.run world).2.SameButKeys ((summary options).run.run other).2) ∧
    (∀ options : FileOptions,
      ((describe options).run.run world).1 = ((describe options).run.run other).1 ∧
      ((describe options).run.run world).2.SameButKeys ((describe options).run.run other).2) ∧
    ∀ options : ExportOptions,
      ((report options).run.run world).1 = ((report options).run.run other).1 ∧
      ((report options).run.run world).2.SameButKeys ((report options).run.run other).2 := by
  refine ⟨fun options => ?_, fun options => ?_, fun options => ?_⟩
  · obtain ⟨ended, later⟩ := blind_summary options same
    exact ⟨ended.eq, later⟩
  · obtain ⟨ended, later⟩ := blind_describe options same
    exact ⟨ended.eq, later⟩
  · obtain ⟨ended, later⟩ := blind_report options same
    exact ⟨ended.eq, later⟩

/-- A project of a user who has a key among the variables. -/
def keyedProject (key : String) : World where
  workspace := { disk := .folder [("p", .folder [("a.py", .file "x = 1\n".toUTF8)])] }
  now := .day ⟨2024, 5, 17⟩
  session := { «variables» := [("OPENAI_API_KEY", key)], deliveries := [.unreachable "offline"] }

/-- With one key or another a report goes through alike. One request is sent in each case. -/
theorem keys_stay_in_headers_keyedProject :
    (keyedProject "k").SameButKeys (keyedProject "l") ∧
      ((report { path := "/p" }).run.run (keyedProject "k")).1 =
        ((report { path := "/p" }).run.run (keyedProject "l")).1 ∧
      ((report { path := "/p" }).run.run (keyedProject "k")).2.SameButKeys
        ((report { path := "/p" }).run.run (keyedProject "l")).2 ∧
      ((report { path := "/p" }).run.run (keyedProject "k")).2.session.requests.map (·.headers) =
        [[("authorization", "Bearer k"), ("content-type", "application/json")]] := by
  have known : Endpoint.SameVariables [("OPENAI_API_KEY", "k")] [("OPENAI_API_KEY", "l")] := by
    refine ⟨fun name outside => ?_, by decide⟩
    have other : "OPENAI_API_KEY" ≠ name := by
      rintro rfl
      exact outside (by decide)
    simp [Table.get?, other]
  have same : (keyedProject "k").SameButKeys (keyedProject "l") :=
    ⟨rfl, rfl, rfl, known, .none, rfl, rfl, rfl, .nil, rfl⟩
  obtain ⟨-, -, reports⟩ := keys_stay_in_headers same
  exact ⟨same, (reports _).1, (reports _).2, by decide +kernel⟩

end Command

end Synopsis
