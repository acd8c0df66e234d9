import Synopsis.Proofs.Settings

/-!
# Settings place by place

Each setting has its place in a settings file, a name within a section, and values that are of use
for it. The setting is made of what the file holds at that place and of nothing else: two files that
hold the same there, or neither of them anything of use, give the same setting, and without anything
of use it is what it is by default. So nothing that is wrong at another place shows. This is said of
files for which there are settings at all; a number that cannot be converted still refuses the whole
file.
-/

namespace Synopsis

namespace Settings

/-- What a setting is a value of. -/
inductive Form where
  | truth | text | number | whole | texts
  deriving DecidableEq, Repr

/-- Whether a value stands for a text: a text itself, a number or a truth value. -/
def isSingle : Datum → Bool
  | .bool _ | .int _ | .float _ | .text _ => true
  | _ => false

/-- Whether a value is of use for a setting of a form. -/
def Form.isUsable : Form → Datum → Bool
  | .truth, .bool _ => true
  | .truth, .text s => ["true", "yes", "1", "false", "no", "0"].contains (Text.lower (Text.strip s))
  | .text, value => isSingle value
  | .number, .int _ | .number, .float _ => true
  | .number, .text s => (Decimal.lenientFloat? s).isSome
  | .whole, .int _ => true
  | .whole, .text s =>
    decide (Decimal.lenientDigits s ≤ Decimal.longestNumeral) && (Decimal.lenientInt? s).isSome
  | .texts, .text _ => true
  | .texts, .list items => items.any isSingle
  | _, _ => false

/-- The settings that a file may hold, by the type of their values. -/
inductive Setting : Type → Type
  | enabled : Setting Bool
  | model : Setting (Option String)
  | baseUrl : Setting (Option String)
  | apiKey : Setting (Option String)
  | temperature : Setting (Option Float)
  | maxTokens : Setting (Option Int)
  | requestTimeout : Setting (Option Float)
  | maxDepth : Setting (Option Int)
  | excludePaths : Setting (List String)
  | maxFiles : Setting Int
  | maxSummaries : Setting Int

namespace Setting

variable {α : Type}

/-- The section and the name under which a file holds the setting. -/
def place : Setting α → String × String
  | enabled => ("summarizer", "enabled")
  | model => ("summarizer", "model")
  | baseUrl => ("summarizer", "base_url")
  | apiKey => ("summarizer", "api_key")
  | temperature => ("summarizer", "temperature")
  | maxTokens => ("summarizer", "max_tokens")
  | requestTimeout => ("summarizer", "request_timeout")
  | maxDepth => ("scan", "max_depth")
  | excludePaths => ("scan", "exclude_paths")
  | maxFiles => ("export", "max_files")
  | maxSummaries => ("export", "max_summaries")

/-- The form of the values of a setting. -/
def form : Setting α → Form
  | enabled => .truth
  | model | baseUrl | apiKey => .text
  | temperature | requestTimeout => .number
  | maxTokens | maxDepth | maxFiles | maxSummaries => .whole
  | excludePaths => .texts

/-- The setting among all settings. -/
def get : Setting α → Settings → α
  | enabled, settings => settings.summarizer.enabled
  | model, settings => settings.summarizer.model
  | baseUrl, settings => settings.summarizer.baseUrl
  | apiKey, settings => settings.summarizer.apiKey
  | temperature, settings => settings.summarizer.temperature
  | maxTokens, settings => settings.summarizer.maxTokens
  | requestTimeout, settings => settings.summarizer.requestTimeout
  | maxDepth, settings => settings.scan.maxDepth
  | excludePaths, settings => settings.scan.excludePaths
  | maxFiles, settings => settings.report.maxFiles
  | maxSummaries, settings => settings.report.maxSummaries

/-- The setting where nothing is said. -/
def default (setting : Setting α) : α := setting.get {}

/-- What a document holds at the place of a setting. What is no table holds nothing. -/
def heldIn (setting : Setting α) (document : Datum) : Option Datum :=
  (document.get? setting.place.1).bind fun fields => fields.get? setting.place.2

/-- A document holds something of use at the place of a setting. -/
def UsableIn (setting : Setting α) (document : Datum) : Prop :=
  ∃ value, setting.heldIn document = some value ∧ setting.form.isUsable value = true

/-- The setting that a value, or nothing, makes. -/
def read : Setting α → Option Datum → Except Fault α
  | enabled, value => .ok ((truthOf value).getD true)
  | model, value | baseUrl, value | apiKey, value => textOf value
  | temperature, value | requestTimeout, value => numberOf value
  | maxTokens, value | maxDepth, value => .ok (wholeOf value)
  | excludePaths, value => textsOf value
  | maxFiles, value => .ok ((wholeOf value).getD 20)
  | maxSummaries, value => .ok ((wholeOf value).getD 10)

/-- There is nothing to settings but these. -/
theorem ext_get {settings other : Settings}
    (same : ∀ {α : Type} (setting : Setting α), setting.get settings = setting.get other) :
    settings = other := by
  obtain ⟨⟨_, _, _, _, _, _, _⟩, ⟨_, _⟩, _, _⟩ := settings
  obtain ⟨⟨_, _, _, _, _, _, _⟩, ⟨_, _⟩, _, _⟩ := other
  cases same enabled; cases same model; cases same baseUrl; cases same apiKey
  cases same temperature; cases same maxTokens; cases same requestTimeout
  cases same maxDepth; cases same excludePaths; cases same maxFiles; cases same maxSummaries
  rfl

end Setting

/-! ## Values of no use -/

variable {value : Datum}

theorem truthOf_eq_none_iff : truthOf (some value) = none ↔ Form.truth.isUsable value = false := by
  cases value <;> simp [truthOf, Form.isUsable]
  grind

theorem textOf_eq_none_iff : textOf (some value) = .ok none ↔ Form.text.isUsable value = false := by
  cases value with
  | int n =>
    refine iff_of_false (fun h => ?_) (by simp [Form.isUsable, isSingle])
    rw [textOf] at h
    split at h <;> cases h
  | _ => simp [textOf, Form.isUsable, isSingle]

theorem numberOf_eq_none_iff :
    numberOf (some value) = .ok none ↔ Form.number.isUsable value = false := by
  cases value with
  | int n =>
    refine iff_of_false (fun h => ?_) (by simp [Form.isUsable])
    rw [numberOf] at h
    split at h <;> cases h
  | _ => simp [numberOf, Form.isUsable]

theorem wholeOf_eq_none_iff : wholeOf (some value) = none ↔ Form.whole.isUsable value = false := by
  cases value <;> simp [wholeOf, Form.isUsable]

theorem textsOf_of_unusable (h : Form.texts.isUsable value = false) :
    textsOf (some value) = .ok [] := by
  cases value with
  | text s => cases h
  | list items =>
    have useless : ∀ item ∈ items, textOf (some item) = .ok none := fun item inside =>
      textOf_eq_none_iff.mpr (Bool.eq_false_iff.mpr fun single =>
        Bool.eq_false_iff.mp h (List.any_eq_true.mpr ⟨item, inside, single⟩))
    have nothing : (items.map id).mapM (fun item => textOf (some item)) =
        .ok (items.map fun _ => none) := mapM_map_ok useless
    rw [List.map_id] at nothing
    rw [textsOf, nothing]
    exact congrArg Except.ok (by simp [List.filterMap_map])
  | null | bool | int | float | moment | table => rfl

namespace Setting

variable {α : Type} (setting : Setting α) {document : Datum} {settings : Settings}

theorem read_none : setting.read none = .ok setting.default := by
  cases setting <;> rfl

theorem read_unusable (h : setting.form.isUsable value = false) :
    setting.read (some value) = .ok setting.default := by
  cases setting with
  | enabled => rw [read, truthOf_eq_none_iff.mpr h]; rfl
  | model | baseUrl | apiKey => exact textOf_eq_none_iff.mpr h
  | temperature | requestTimeout => exact numberOf_eq_none_iff.mpr h
  | maxTokens | maxDepth | maxFiles | maxSummaries => rw [read, wholeOf_eq_none_iff.mpr h]; rfl
  | excludePaths => exact textsOf_of_unusable h

theorem read_of_not_usableIn (h : ¬ setting.UsableIn document) :
    setting.read (setting.heldIn document) = .ok setting.default := by
  cases held : setting.heldIn document with
  | none => exact setting.read_none
  | some value =>
    refine setting.read_unusable (Bool.eq_false_iff.mpr fun usable => h ⟨value, held, usable⟩)

/-! ## What is held -/

theorem heldIn_eq :
    setting.heldIn document = Table.get? setting.place.2 (sectionOf setting.place.1 document) := by
  rw [heldIn, sectionOf]
  cases document.get? setting.place.1 <;> rfl

/-- The settings that a document makes are made place by place. -/
theorem read_of_ofDatum (h : ofDatum document = .ok settings) :
    setting.read (setting.heldIn document) = .ok (setting.get settings) := by
  simp only [ofDatum, summarizerOf, scanOf, bind_eq_ok] at h
  obtain ⟨_, ⟨model, hmodel, baseUrl, hbaseUrl, apiKey, hapiKey, temperature, htemperature, timeout,
    htimeout, ⟨⟩⟩, _, ⟨patterns, hpatterns, ⟨⟩⟩, ⟨⟩⟩ := h
  rw [heldIn_eq]
  cases setting with
  | enabled | maxTokens | maxDepth | maxFiles | maxSummaries => rfl
  | model => exact hmodel
  | baseUrl => exact hbaseUrl
  | apiKey => exact hapiKey
  | temperature => exact htemperature
  | requestTimeout => exact htimeout
  | excludePaths => exact hpatterns

theorem heldIn_of_unset (h : document.isSet = false) : setting.heldIn document = none := by
  have fields : document.fields = [] := by
    cases table : document.isTable with
    | true => exact Datum.fields_of_isEmpty (Datum.isEmpty_of_isTable table h)
    | false => exact Datum.fields_of_isTable table
  rw [heldIn, Datum.get?, fields]
  rfl

/-- Documents that hold the same for a setting, or both nothing of use for it. -/
def Alike (document other : Datum) : Prop :=
  setting.heldIn document = setting.heldIn other ∨
    ¬ setting.UsableIn document ∧ ¬ setting.UsableIn other

end Setting

end Settings

namespace Workspace

open Settings

variable {w w' : Workspace} {path path' : String} {document document' : Datum}
  {settings settings' : Settings}

/-- A settings file for the path holds the document, and there are settings. -/
structure Configured (w : Workspace) (path : String) (document : Datum) (settings : Settings) :
    Prop where
  loaded : ∃ bytes text root, w.SettingsFile path bytes ∧ Text.ofFile bytes = .ok text ∧
    documentOf text = .ok document ∧ w.settings path = .ok (root, settings)

/-- All settings are made of the document of the file, place by place. -/
theorem Configured.read (h : w.Configured path document settings) {α : Type} (setting : Setting α) :
    setting.read (setting.heldIn document) = .ok (setting.get settings) := by
  obtain ⟨bytes, text, root, file, decoded, parsed, loaded⟩ := h.loaded
  obtain ⟨root', outcome⟩ := settings_of_file file
  have made : ofText text = .ok settings := by
    rw [outcome, ofFile, decoded] at loaded
    dsimp only at loaded
    cases found : ofText text with
    | error fault => rw [found] at loaded; cases loaded
    | ok settings => rw [found] at loaded; cases loaded; rfl
  rw [ofText_of_document parsed] at made
  split at made
  · rename_i unset
    cases made
    rw [setting.heldIn_of_unset unset, setting.read_none]
    rfl
  · split at made
    · exact setting.read_of_ofDatum made
    · cases made

/-- Two settings files for which there are settings agree on each setting for which their documents
are alike, and a setting for which a document holds nothing of use is the default. Nothing but these
settings comes of a file. -/
theorem settings_placewise (h : w.Configured path document settings)
    (h' : w'.Configured path' document' settings') :
    (∀ {α : Type} (setting : Setting α), setting.Alike document document' →
      setting.get settings = setting.get settings') ∧
    (∀ {α : Type} (setting : Setting α), ¬ setting.UsableIn document →
      setting.get settings = setting.default) ∧
    ((∀ {α : Type} (setting : Setting α), setting.Alike document document') →
      settings = settings') := by
  have fallback {w : Workspace} {path : String} {document : Datum} {settings : Settings}
      (h : w.Configured path document settings) {α : Type} (setting : Setting α)
      (useless : ¬ setting.UsableIn document) : setting.get settings = setting.default :=
    Except.ok.inj ((h.read setting).symm.trans (setting.read_of_not_usableIn useless))
  have agree {α : Type} (setting : Setting α) (alike : setting.Alike document document') :
      setting.get settings = setting.get settings' := by
    rcases alike with same | ⟨useless, useless'⟩
    · exact Except.ok.inj ((h.read setting).symm.trans (same ▸ h'.read setting))
    · rw [fallback h setting useless, fallback h' setting useless']
  exact ⟨agree, fallback h, fun alike => Setting.ext_get fun setting =>
    agree setting (alike setting)⟩

theorem settingsFile_settingsProject (bytes : ByteArray) :
    (settingsProject bytes).SettingsFile "." bytes :=
  ⟨[".briefly.yml"], [], rfl, rfl, rfl⟩

theorem configured_settingsProject {text : String} (decoded : Text.ofFile text.toUTF8 = .ok text)
    (parsed : documentOf text = .ok document) (made : ofText text = .ok settings) :
    (settingsProject text.toUTF8).Configured "." document settings := by
  have file := settingsFile_settingsProject text.toUTF8
  obtain ⟨root, outcome⟩ := settings_of_file file
  refine ⟨_, text, root, file, decoded, parsed, ?_⟩
  rw [outcome, ofFile, decoded]
  dsimp only
  rw [made]
  rfl

/-- A section that is no table, and a limit of no use beside another one. -/
def flawedText : String := "scan: []\nexport: {max_files: 5, max_summaries: x}\n"

/-- The document of `flawedText`. -/
def flawedDocument : Datum :=
  .table [("scan", .list []),
    ("export", .table [("max_files", .int 5), ("max_summaries", .text "x")])]

/-- Whether a document is `flawedDocument`. -/
def isFlawed : Datum → Bool
  | .table [(scan, .list []), (report, .table [(files, .int n), (summaries, .text s)])] =>
    [scan, report, files, summaries, s] == ["scan", "export", "max_files", "max_summaries", "x"] &&
      n == 5
  | _ => false

theorem documentOf_flawedText : documentOf flawedText = .ok flawedDocument := by
  have read : (documentOf flawedText).toOption.any isFlawed = true := by decide +kernel
  obtain ⟨found, parsed, flawed⟩ := (Option.any_eq_true _ _).mp read
  rw [toOption_eq_some_iff.mp parsed]
  unfold isFlawed at flawed
  split at flawed
  · simp only [Bool.and_eq_true, beq_iff_eq, List.cons.injEq] at flawed
    obtain ⟨⟨rfl, rfl, rfl, rfl, rfl, -⟩, rfl⟩ := flawed
    rfl
  · cases flawed

/-- Two limits. -/
def limitsText : String := "export: {max_files: 5, max_summaries: 3}\n"

/-- The document of `limitsText`. -/
def limitsDocument : Datum :=
  .table [("export", .table [("max_files", .int 5), ("max_summaries", .int 3)])]

/-- Whether a document is `limitsDocument`. -/
def isLimits : Datum → Bool
  | .table [(report, .table [(files, .int n), (summaries, .int m)])] =>
    [report, files, summaries] == ["export", "max_files", "max_summaries"] && [n, m] == [5, 3]
  | _ => false

theorem documentOf_limitsText : documentOf limitsText = .ok limitsDocument := by
  have read : (documentOf limitsText).toOption.any isLimits = true := by decide +kernel
  obtain ⟨found, parsed, limits⟩ := (Option.any_eq_true _ _).mp read
  rw [toOption_eq_some_iff.mp parsed]
  unfold isLimits at limits
  split at limits
  · simp only [Bool.and_eq_true, beq_iff_eq, List.cons.injEq] at limits
    obtain ⟨⟨rfl, rfl, rfl, -⟩, rfl, rfl, -⟩ := limits
    rfl
  · cases limits

/-- The files agree on the one limit, and the other one of the first file is the default. -/
theorem settings_placewise_flawedText :
    (settingsProject flawedText.toUTF8).Configured "." flawedDocument
        { report := { maxFiles := 5, maxSummaries := 10 } } ∧
      (settingsProject limitsText.toUTF8).Configured "." limitsDocument
        { report := { maxFiles := 5, maxSummaries := 3 } } ∧
      Setting.maxFiles.get { report := { maxFiles := 5, maxSummaries := 10 } } =
        Setting.maxFiles.get { report := { maxFiles := 5, maxSummaries := 3 } } ∧
      Setting.maxSummaries.get { report := { maxFiles := 5, maxSummaries := 10 } } =
        Setting.maxSummaries.default := by
  have flawed : (settingsProject flawedText.toUTF8).Configured "." flawedDocument
      { report := { maxFiles := 5, maxSummaries := 10 } } := by
    refine configured_settingsProject (by decide +kernel) documentOf_flawedText ?_
    rw [ofText_of_document documentOf_flawedText]
    rfl
  have limits : (settingsProject limitsText.toUTF8).Configured "." limitsDocument
      { report := { maxFiles := 5, maxSummaries := 3 } } := by
    refine configured_settingsProject (by decide +kernel) documentOf_limitsText ?_
    rw [ofText_of_document documentOf_limitsText]
    rfl
  obtain ⟨agree, fallback, -⟩ := settings_placewise flawed limits
  refine ⟨flawed, limits, agree .maxFiles (Or.inl rfl), fallback .maxSummaries ?_⟩
  rintro ⟨value, held, usable⟩
  obtain rfl : Datum.text "x" = value := Option.some.inj held
  revert usable
  decide +kernel

end Workspace

end Synopsis
