import Synopsis.Proofs.Command.History
import Synopsis.Proofs.Text.Blank
import Synopsis.Proofs.Text.Lines

/-!
# What an endpoint is resolved from

The model, the place and the key of an endpoint are the first ones that are given and not empty: by
the settings, then by the variables of this program, then by those of others, and for the model and
the place at last by default. The place loses the slashes at its end, so that a request goes to it,
a slash and the path of completions. An address is passed on without the blanks before it and a mark
`URL:`, and what stands in it from its last hash on is not asked for; a place that starts with
neither a blank nor a mark and holds no hash is passed on as it is. Whether somebody is there is not
spoken of.
-/

namespace Synopsis

namespace Text

/-- A needle ends before a mark that it does not hold. -/
theorem dropPrefix?_append_mark {needle : List Char} {mark : Char} (apart : mark ∉ needle)
    (cs rest : List Char) : dropPrefix? needle (cs ++ mark :: rest) =
      (dropPrefix? needle cs).map (· ++ mark :: rest) := by
  induction needle generalizing cs with
  | nil => simp [dropPrefix?]
  | cons c needle ih =>
    obtain ⟨other, apart⟩ := not_or.mp (mt List.mem_cons.mpr apart)
    cases cs with
    | nil => simp [dropPrefix?, Ne.symm other]
    | cons d cs =>
      rw [List.cons_append, dropPrefix?, dropPrefix?, ih apart]
      split <;> rfl

end Text

namespace Endpoint

/-! ## The first that is given -/

/-- The first text that is given and not empty. -/
def FirstGiven (candidates : List (Option String)) (value : String) : Prop :=
  value ≠ "" ∧ ∃ before after, candidates = before ++ some value :: after ∧
    ∀ other ∈ before, other = none ∨ other = some ""

variable {own : Option String} {candidates : List (Option String)} {value : String}

theorem findSome?_eq_some_iff_firstGiven :
    candidates.findSome? (·.bind nonempty?) = some value ↔ FirstGiven candidates value := by
  rw [List.findSome?_eq_some_iff, FirstGiven]
  simp only [bind_nonempty?_eq_some_iff, bind_nonempty?_eq_none_iff]
  constructor
  · rintro ⟨before, _, after, parts, ⟨rfl, nonempty⟩, others⟩
    exact ⟨nonempty, before, after, parts, others⟩
  · rintro ⟨nonempty, before, after, parts, others⟩
    exact ⟨before, _, after, parts, ⟨rfl, nonempty⟩, others⟩

/-- With a default at the end, something is given. -/
theorem firstGiven_getD {default : String} (nonempty : default ≠ "")
    (candidates : List (Option String)) : FirstGiven (candidates ++ [some default])
      ((candidates.findSome? (·.bind nonempty?)).getD default) := by
  have given : (some default).bind nonempty? = some default :=
    bind_nonempty?_eq_some_iff.mpr ⟨rfl, nonempty⟩
  rw [← findSome?_eq_some_iff_firstGiven, List.findSome?_append, List.findSome?_singleton, given]
  cases candidates.findSome? (·.bind nonempty?) <;> rfl

/-- What is given, or else the first value among some variables. -/
theorem or_firstValue? (own : Option String) (names : List String) (known : Variables) :
    (own.bind nonempty?).or (firstValue? names known) =
      (own :: names.map (Table.get? · known)).findSome? (·.bind nonempty?) := by
  rw [List.findSome?_cons, List.findSome?_map]
  cases own.bind nonempty? <;> rfl

/-! ## Endpoints -/

/-- The endpoint is the one that the settings and the variables name. -/
structure ResolvedFrom (settings : SummarySettings) (known : Variables) (e : Endpoint) : Prop where
  model : FirstGiven [settings.model, Table.get? "BRIEFLY_LLM_MODEL" known,
    Table.get? "OPENAI_MODEL" known, some "gpt-4o-mini"] e.model
  /-- The place is given up to slashes at its end. -/
  baseUrl : ∃ given slashes, FirstGiven [settings.baseUrl, Table.get? "BRIEFLY_LLM_BASE_URL" known,
      Table.get? "OPENAI_BASE_URL" known, some "https://api.openai.com/v1"] given ∧
    given.toList = e.baseUrl.toList ++ List.replicate slashes '/'
  slashless : e.baseUrl.toList.getLast? ≠ some '/'
  key : ∀ key, e.key = some key ↔ FirstGiven [settings.apiKey,
    Table.get? "BRIEFLY_LLM_API_KEY" known, Table.get? "OPENAI_API_KEY" known] key
  temperature : ∀ x, settings.temperature = some x → e.temperature = some (.real x)
  maxTokens : ∀ n, settings.maxTokens = some n → e.maxTokens = some (.whole n)
  timeout : ∀ x, settings.requestTimeout = some x → e.timeout = some (.real x)

variable {settings : SummarySettings} {known : Variables} {e : Endpoint}

theorem key_ofOptions (settings : SummarySettings) (known : Variables) :
    (ofOptions known (optionsOf settings)).key =
      (settings.apiKey.bind nonempty?).or (firstValue? keyVariables known) := by
  rw [ofOptions, optionsOf]
  cases settings.apiKey.bind nonempty? <;> rfl

theorem resolvedFrom_ofOptions (settings : SummarySettings) (known : Variables) :
    ResolvedFrom settings known (ofOptions known (optionsOf settings)) where
  model := by
    have model := firstGiven_getD (by decide : defaultModel ≠ "")
      (settings.model :: modelVariables.map (Table.get? · known))
    rw [← or_firstValue?] at model
    exact model
  baseUrl := by
    have given := firstGiven_getD (by decide : defaultBaseUrl ≠ "")
      (settings.baseUrl :: baseUrlVariables.map (Table.get? · known))
    obtain ⟨slashes, parts⟩ := Text.exists_dropTrailing_append '/'
      (((settings.baseUrl :: baseUrlVariables.map (Table.get? · known)).findSome?
        (·.bind nonempty?)).getD defaultBaseUrl).toList
    refine ⟨_, slashes, given, parts.trans ?_⟩
    rw [← or_firstValue?, Option.getD_or, ofOptions, String.toList_ofList]
    rfl
  slashless := by
    rw [ofOptions, String.toList_ofList]
    exact Text.getLast?_dropTrailing '/' _
  key key := by
    rw [key_ofOptions, or_firstValue?, findSome?_eq_some_iff_firstGiven]
    rfl
  temperature x given := by rw [ofOptions, optionsOf, given]; rfl
  maxTokens n given := by rw [ofOptions, optionsOf, given]; rfl
  timeout x given := by rw [ofOptions, optionsOf, given]; rfl

/-- Nobody is asked without a key. -/
theorem ask_of_keyless {e : Endpoint} (keyless : e.key = none) (question : Question)
    (session : Session) :
    (Session.ask (.endpoint e) question).run session = (.error .noKey, session) := by
  have refused : e.request question = .error .noKey := by rw [request, keyless]; rfl
  simp only [Session.ask, Session.askEndpoint, refused]
  rfl

/-! ## Addresses -/

/-- An address without the blanks before it and a mark. -/
def bareChars (cs : List Char) : List Char :=
  ((Text.dropPrefix? "URL:".toList (Text.trimStart cs)).map Text.trimStart).getD (Text.trimStart cs)

/-- An address without the blanks before it and a mark. -/
def unmarked (url : String) : String := String.ofList (bareChars url.toList)

variable {cs rest : List Char}

theorem bareChars_of_mark (marked : Text.trimStart cs = "URL:".toList ++ rest) :
    bareChars cs = Text.trimStart rest := by
  rw [bareChars, marked, Text.dropPrefix?_eq_some_iff.mpr rfl]
  rfl

theorem bareChars_of_plain (plain : ¬ "URL:".toList <+: Text.trimStart cs) :
    bareChars cs = Text.trimStart cs := by
  have none : Text.dropPrefix? "URL:".toList (Text.trimStart cs) = none :=
    Option.eq_none_iff_forall_ne_some.mpr fun rest marked =>
      plain ⟨rest, (Text.dropPrefix?_eq_some_iff.mp marked).symm⟩
  rw [bareChars, none]
  rfl

theorem suffix_bareChars (cs : List Char) : bareChars cs <:+ Text.trimStart cs := by
  by_cases mark : "URL:".toList <+: Text.trimStart cs
  · obtain ⟨rest, marked⟩ := mark
    rw [bareChars_of_mark marked.symm, ← marked]
    exact (Text.suffix_trimStart rest).trans (List.suffix_append _ rest)
  · rw [bareChars_of_plain mark]

/-- Nothing is removed from an address that starts with neither a blank nor a mark. -/
theorem bareChars_eq_self_iff : bareChars cs = cs ↔
    (∀ c ∈ cs.head?, Text.isBlank c = false) ∧ ¬ "URL:".toList <+: cs := by
  constructor
  · intro same
    have trimmed : Text.trimStart cs = cs := by
      refine (Text.suffix_trimStart cs).eq_of_length_le ?_
      have least := (suffix_bareChars cs).length_le
      rwa [same] at least
    have visible := Text.visible_start cs
    rw [trimmed] at visible
    refine ⟨visible, ?_⟩
    rintro ⟨rest, marked⟩
    have short := (Text.suffix_trimStart rest).length_le
    rw [← bareChars_of_mark (trimmed.trans marked.symm), same, ← marked,
      List.length_append] at short
    have long : "URL:".toList.length = 4 := rfl
    omega
  · rintro ⟨visible, plain⟩
    have trimmed : Text.trimStart cs = cs := by
      cases cs with
      | nil => rfl
      | cons c rest => exact Text.trimStart_cons (visible c rfl) rest
    rw [bareChars_of_plain (by rwa [trimmed]), trimmed]

/-- An address that no bracket closes keeps all but the blanks around it and a mark. -/
theorem bareUrl_of_unclosed {url : String} (trimmed : Text.trim url.toList = cs)
    (unclosed : cs.getLast? ≠ some '>') :
    bareUrl url = ((Text.dropPrefix? "URL:".toList cs).map fun rest =>
      Text.strip (String.ofList rest)).getD (String.ofList cs) := by
  unfold bareUrl
  rw [trimmed]
  extract_lets outer inner
  have kept : inner = cs := by
    unfold inner
    split
    · contradiction
    · rfl
  rw [kept]
  cases Text.dropPrefix? "URL:".toList cs <;> rfl

theorem trim_completions (cs : List Char) :
    Text.trim (cs ++ '/' :: "chat/completions".toList) =
      Text.trimStart cs ++ '/' :: "chat/completions".toList := by
  rw [Text.trim, Text.trimStart_append (by decide), Text.trimEnd_append (by decide)]
  rfl

/-- What is removed of an address stands before the path of completions. -/
theorem address_eq (e : Endpoint) : e.address = unmarked e.baseUrl ++ "/chat/completions" := by
  have parts : (e.baseUrl ++ "/chat/completions").toList =
      e.baseUrl.toList ++ '/' :: "chat/completions".toList := String.toList_append
  have unclosed : (Text.trimStart e.baseUrl.toList ++ '/' :: "chat/completions".toList).getLast? ≠
      some '>' := by
    rw [List.getLast?_append_cons]
    decide
  rw [address, bareUrl_of_unclosed (parts ▸ trim_completions _) unclosed,
    Text.dropPrefix?_append_mark (by decide), unmarked, bareChars]
  cases Text.dropPrefix? "URL:".toList (Text.trimStart e.baseUrl.toList) with
  | none => exact String.ofList_append
  | some rest =>
    rw [Option.map_some, Option.map_some, Option.getD_some, Text.strip, String.toList_ofList,
      trim_completions]
    exact String.ofList_append

theorem withoutFragment_of_notMem (plain : '#' ∉ cs) : withoutFragment cs = cs :=
  if_neg (by simpa using plain)

/-- Only what stands before the last hash stays. -/
theorem withoutFragment_append {front back : List Char} (plain : '#' ∉ back) :
    withoutFragment (front ++ '#' :: back) = front := by
  have skipped : back.reverse.dropWhile (· != '#') = [] := by
    rw [List.dropWhile_eq_nil_iff]
    intro c inside
    simpa using fun same : c = '#' => plain (same ▸ List.mem_reverse.mp inside)
  rw [withoutFragment, if_pos (by simp), List.reverse_append, List.reverse_cons, List.append_assoc,
    List.dropWhile_append, skipped]
  simp

end Endpoint

/-- The address that a request asks for: what stands from its last hash on is not sent. -/
def Request.target (request : Request) : String :=
  String.ofList (Endpoint.withoutFragment request.url.toList)

namespace Endpoint

variable {e : Endpoint}

/-- The request goes to the place of the endpoint and the path of completions, one slash being
between them. Blanks before the place are left away, and a mark. With a hash in the place, the
address that is asked for ends before the last one; without any of these all of the place stays. -/
structure JoinedTo (e : Endpoint) (request : Request) : Prop where
  url : request.url = unmarked e.baseUrl ++ "/chat/completions"
  single : (unmarked e.baseUrl).toList.getLast? ≠ some '/'
  plain : '#' ∉ (unmarked e.baseUrl).toList → request.target = unmarked e.baseUrl ++
    "/chat/completions"
  fragment : ∀ front back, unmarked e.baseUrl = front ++ "#" ++ back → '#' ∉ back.toList →
    request.target = front
  whole : request.target = e.baseUrl ++ "/chat/completions" ↔
    (∀ c ∈ e.baseUrl.toList.head?, Text.isBlank c = false) ∧ ¬ "URL:".toList <+: e.baseUrl.toList ∧
      '#' ∉ e.baseUrl.toList

theorem suffix_unmarked (url : String) : (unmarked url).toList <:+ url.toList := by
  rw [unmarked, String.toList_ofList]
  exact (suffix_bareChars url.toList).trans (Text.suffix_trimStart url.toList)

theorem target_of_notMem {request : Request} (plain : '#' ∉ request.url.toList) :
    request.target = request.url := by
  rw [Request.target, withoutFragment_of_notMem plain, String.ofList_toList]

theorem target_of_append {request : Request} {front back : String}
    (parts : request.url = front ++ "#" ++ back) (plain : '#' ∉ back.toList) :
    request.target = front := by
  have chars : request.url.toList = front.toList ++ '#' :: back.toList := by simp [parts]
  rw [Request.target, chars, withoutFragment_append plain, String.ofList_toList]

/-- A text that holds a hash stands around its last one. -/
theorem exists_last_hash {text : String} (hashed : '#' ∈ text.toList) :
    ∃ front back : String, text = front ++ "#" ++ back ∧ '#' ∉ back.toList := by
  obtain ⟨back, front, parts, first⟩ := List.eq_append_cons_of_mem (List.mem_reverse.mpr hashed)
  refine ⟨String.ofList front.reverse, String.ofList back.reverse, ?_, by simpa using first⟩
  rw [← String.toList_inj, ← List.reverse_inj, parts]
  simp

section Target

variable {request : Request} (url : request.url = unmarked e.baseUrl ++ "/chat/completions")
include url

theorem target_of_unhashed (unhashed : '#' ∉ (unmarked e.baseUrl).toList) :
    request.target = unmarked e.baseUrl ++ "/chat/completions" := by
  rw [target_of_notMem (by simpa [url] using unhashed), url]

/-- The path of completions is part of the fragment. -/
theorem target_of_hashed {front back : String} (parts : unmarked e.baseUrl = front ++ "#" ++ back)
    (last : '#' ∉ back.toList) : request.target = front := by
  have whole : request.url = front ++ "#" ++ (back ++ "/chat/completions") := by
    rw [url, parts, String.append_assoc]
  exact target_of_append whole (by simpa using last)

theorem unhashed_of_target (all : request.target = e.baseUrl ++ "/chat/completions") :
    '#' ∉ (unmarked e.baseUrl).toList := by
  -- Otherwise the address would end within the place, and be longer than the place.
  intro hashed
  obtain ⟨front, back, parts, last⟩ := exists_last_hash hashed
  have one : "#".length = 1 := rfl
  have sizes := congrArg String.length ((target_of_hashed url parts last).symm.trans all)
  have short := (suffix_unmarked e.baseUrl).length_le
  rw [String.length_append] at sizes
  rw [parts, String.length_toList, String.length_toList, String.length_append,
    String.length_append] at short
  omega

theorem target_whole_iff : request.target = e.baseUrl ++ "/chat/completions" ↔
    (∀ c ∈ e.baseUrl.toList.head?, Text.isBlank c = false) ∧ ¬ "URL:".toList <+: e.baseUrl.toList ∧
      '#' ∉ e.baseUrl.toList := by
  have kept : unmarked e.baseUrl = e.baseUrl ↔ (∀ c ∈ e.baseUrl.toList.head?,
      Text.isBlank c = false) ∧ ¬ "URL:".toList <+: e.baseUrl.toList := by
    rw [← bareChars_eq_self_iff, ← String.toList_inj, unmarked, String.toList_ofList]
  rw [← and_assoc, ← kept]
  constructor
  · intro all
    have unhashed := unhashed_of_target url all
    have same : unmarked e.baseUrl = e.baseUrl := (String.append_left_inj "/chat/completions").mp
      ((target_of_unhashed url unhashed).symm.trans all)
    exact ⟨same, same ▸ unhashed⟩
  · rintro ⟨same, unhashed⟩
    have kept : '#' ∉ (unmarked e.baseUrl).toList := by rwa [same]
    exact (target_of_unhashed url kept).trans (congrArg (· ++ "/chat/completions") same)

end Target

theorem joinedTo_of_carries {request : Request} (slashless : e.baseUrl.toList.getLast? ≠ some '/')
    (carries : e.Carries request) : e.JoinedTo request := by
  have url : request.url = unmarked e.baseUrl ++ "/chat/completions" :=
    carries.url.trans (address_eq e)
  refine ⟨url, ?_, target_of_unhashed url, fun _ _ => target_of_hashed url, target_whole_iff url⟩
  obtain ⟨front, parts⟩ := suffix_unmarked e.baseUrl
  intro last
  rw [← parts, List.getLast?_append, last] at slashless
  exact slashless rfl

end Endpoint

open Endpoint

/-- In a session in which nobody answers yet, an endpoint comes to answer that is resolved from the
settings and the variables. Without a key each question to it is refused and nothing is sent, and
all that it is ever sent goes to its place. -/
theorem endpoint_resolved (settings : SummarySettings) {session : Session}
    (unsettled : session.runner = none) :
    ∃ e : Endpoint, (Session.settleRunner settings).run session =
        (.endpoint e, { session with runner := some (.endpoint e) }) ∧
      e.ResolvedFrom settings session.«variables» ∧
      ((∀ key ∈ [settings.apiKey, Table.get? "BRIEFLY_LLM_API_KEY" session.«variables»,
          Table.get? "OPENAI_API_KEY" session.«variables»], key = none ∨ key = some "") →
        ∀ question later, (Session.ask (.endpoint e) question).run later = (.error .noKey, later)) ∧
      ∀ question later, ∃ sent,
        ((Session.ask (.endpoint e) question).run later).2.requests = later.requests ++ sent ∧
        ∀ request ∈ sent, e.JoinedTo request := by
  have resolved := resolvedFrom_ofOptions settings session.«variables»
  refine ⟨_, Session.run_settleRunner_of_none unsettled, resolved, ?_, ?_⟩
  · intro none
    refine ask_of_keyless (Option.eq_none_iff_forall_ne_some.mpr fun key held => ?_)
    obtain ⟨nonempty, before, after, parts, -⟩ := (resolved.key key).mp held
    rcases none (some key) (parts ▸ List.mem_append_right before List.mem_cons_self) with
      absent | empty
    · cases absent
    · exact nonempty (Option.some.inj empty)
  · intro question later
    obtain ⟨sent, requests, carries⟩ := Session.requests_askEndpoint _ question later
    exact ⟨sent, requests, fun request inside =>
      joinedTo_of_carries resolved.slashless (carries request inside)⟩

/-- A variable without a value is no key. -/
theorem endpoint_resolved_emptyKey :
    Session.runner { «variables» := [("OPENAI_API_KEY", "")] } = none ∧
      ∃ e : Endpoint, e.ResolvedFrom {} [("OPENAI_API_KEY", "")] ∧
        (Session.ask (.endpoint e) ⟨"p", none⟩).run {} = (.error .noKey, {}) := by
  have unsettled : Session.runner { «variables» := [("OPENAI_API_KEY", "")] } = none := rfl
  obtain ⟨e, -, resolved, refused, -⟩ := endpoint_resolved {} unsettled
  exact ⟨unsettled, e, resolved, refused (by decide) ⟨"p", none⟩ {}⟩

/-- Settings with a key and a place. -/
def placedSettings (place : String) : SummarySettings :=
  { baseUrl := some place, apiKey := some "k" }

/-- The endpoint of these settings when there are no variables. -/
def placedEndpoint (place : String) : Endpoint := ofOptions [] (optionsOf (placedSettings place))

theorem requests_placedEndpoint {place : String}
    (scheme : hasScheme (placedEndpoint place).address = true) :
    ∃ request, ((Session.ask (.endpoint (placedEndpoint place)) ⟨"p", none⟩).run {}).2.requests =
        [request] ∧ request.url = (placedEndpoint place).address := by
  rcases request_cases _ ⟨"p", none⟩ scheme with ⟨keyless, -⟩ |
    ⟨-, ⟨long, -⟩ | ⟨-, request, requested⟩⟩
  · cases keyless
  · obtain ⟨n, ⟨⟨⟩⟩ | ⟨⟨⟩⟩, long⟩ := long
    exact absurd long (by decide +kernel)
  · refine ⟨request, ?_, (carries_of_request requested).url⟩
    simp only [Session.ask, Session.askEndpoint, requested]
    rfl

/-- A session with this place settles an endpoint whose request goes to something else than all of
its place and the path. -/
def GoesElsewhere (place : String) : Prop :=
  ∃ (e : Endpoint) (request : Request),
    ((Session.settleRunner (placedSettings place)).run {}).1 = .endpoint e ∧
    ((Session.ask (.endpoint e) ⟨"p", none⟩).run {}).2.requests = [request] ∧
    request.target ≠ e.baseUrl ++ "/chat/completions"

theorem goesElsewhere {place : String}
    (scheme : hasScheme (placedEndpoint place).address = true)
    (other : String.ofList (withoutFragment (placedEndpoint place).address.toList) ≠
      (placedEndpoint place).baseUrl ++ "/chat/completions") :
    GoesElsewhere place := by
  obtain ⟨request, requests, url⟩ := requests_placedEndpoint scheme
  exact ⟨placedEndpoint place, request, rfl, requests, by rw [Request.target, url]; exact other⟩

/-- A blank before the place and a mark are not part of the address to which a request goes, and
what stands from a hash on is not either. -/
theorem places_not_whole : GoesElsewhere " http://h/v1" ∧ GoesElsewhere "URL:http://h/v1" ∧
    GoesElsewhere "http://h/v1#x" :=
  ⟨goesElsewhere (by decide +kernel) (by decide +kernel),
    goesElsewhere (by decide +kernel) (by decide +kernel),
    goesElsewhere (by decide +kernel) (by decide +kernel)⟩

end Synopsis
