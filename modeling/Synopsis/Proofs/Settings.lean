import Mathlib.Data.List.TakeWhile
import Synopsis.Command.Basic
import Synopsis.Proofs.Outcome

/-!
# Which settings files are accepted

A settings file is said to be refused as such exactly when it is no text, no document, or a document
whose root is neither a table nor empty. This is so for a file that can be decoded, whose document
has no value without a meaning, no `false` or zero for a root, and no number that cannot be
converted where it is used. It is not so for any other file. Files that cannot be read are not
spoken of.
-/

namespace Synopsis

namespace Datum

/-- Nothing, or a text, a list or a table with nothing in it. -/
def isEmpty : Datum → Bool
  | .null => true
  | .text s => s == ""
  | .list items => items.isEmpty
  | .table fields => fields.isEmpty
  | _ => false

/-- Whether a value is a table. -/
def isTable : Datum → Bool
  | .table _ => true
  | _ => false

theorem isSet_of_isEmpty {value : Datum} (h : value.isEmpty = true) : value.isSet = false := by
  cases value <;> simp_all [isEmpty, isSet]

theorem isEmpty_of_isTable {value : Datum} (table : value.isTable = true)
    (unset : value.isSet = false) : value.isEmpty = true := by
  cases value <;> simp_all [isTable, isEmpty, isSet]

theorem fields_of_isEmpty {value : Datum} (h : value.isEmpty = true) : value.fields = [] := by
  cases value <;> simp_all [isEmpty, fields]

theorem fields_of_isTable {value : Datum} (h : value.isTable = false) : value.fields = [] := by
  cases value <;> simp_all [isTable, fields]

end Datum

namespace Settings

/-- The document that a text holds. A blank text is an empty document. -/
def documentOf (text : String) : Except Yaml.Fault Datum :=
  if Text.strip text == "" then .ok .null else Yaml.parse text

/-- Bytes that are to be refused as settings. -/
inductive Unfit (bytes : ByteArray) : Prop
  | undecodable {fault : Text.Utf8.Fault} : Text.ofFile bytes = .error fault → Unfit bytes
  | noDocument {text : String} {fault : Yaml.Fault} : Text.ofFile bytes = .ok text →
      documentOf text = .error fault → Unfit bytes
  | noTable {text : String} {document : Datum} : Text.ofFile bytes = .ok text →
      documentOf text = .ok document → document.isTable = false → document.isEmpty = false →
      Unfit bytes

/-- Every number that settings are made of can be converted: a whole number to a text or to a
floating point number. -/
structure NumbersFit (document : Datum) : Prop where
  texts : ∀ name ∈ ["model", "base_url", "api_key"], ∀ n,
    Table.get? name (sectionOf "summarizer" document) = some (.int n) → Decimal.isLong n = false
  numbers : ∀ name ∈ ["temperature", "request_timeout"], ∀ n,
    Table.get? name (sectionOf "summarizer" document) = some (.int n) →
      (Decimal.floatOfInt? n).isSome = true
  patterns : ∀ items, Table.get? "exclude_paths" (sectionOf "scan" document) = some (.list items) →
    ∀ n, .int n ∈ items → Decimal.isLong n = false

/-- Without fields there are no numbers. -/
theorem numbersFit_of_fields {document : Datum} (h : document.fields = []) :
    NumbersFit document := by
  have empty (name : String) : sectionOf name document = [] := by
    rw [sectionOf, Datum.get?, h]
    rfl
  constructor <;> simp [empty, Table.get?]

theorem textOf_ok_iff {value : Option Datum} : (∃ text, textOf value = .ok text) ↔
    ∀ n, value = some (.int n) → Decimal.isLong n = false := by
  rcases value with _ | _ | b | n | x | s | m | items | fields <;> simp [textOf]
  cases Decimal.isLong n <;> simp

theorem numberOf_ok_iff {value : Option Datum} : (∃ number, numberOf value = .ok number) ↔
    ∀ n, value = some (.int n) → (Decimal.floatOfInt? n).isSome = true := by
  rcases value with _ | _ | b | n | x | s | m | items | fields <;> simp [numberOf]
  cases Decimal.floatOfInt? n <;> simp

theorem textsOf_ok_iff {value : Option Datum} : (∃ texts, textsOf value = .ok texts) ↔
    ∀ items, value = some (.list items) → ∀ n, .int n ∈ items → Decimal.isLong n = false := by
  rcases value with _ | _ | b | n | x | s | m | items | fields
  case some.list =>
    simp only [textsOf, exists_bind_ok, exists_pure_ok, and_true, exists_mapM_ok, textOf_ok_iff,
      Option.some.injEq, Datum.list.injEq, forall_eq']
    exact ⟨fun h n hn => h _ hn n rfl, fun h item hitem n hn => h n (hn ▸ hitem)⟩
  all_goals simp [textsOf]

theorem summarizerOf_ok_iff {fields : Table Datum} :
    (∃ settings, summarizerOf fields = .ok settings) ↔
      (∀ name ∈ ["model", "base_url", "api_key"],
        ∃ text, textOf (Table.get? name fields) = .ok text) ∧
      ∀ name ∈ ["temperature", "request_timeout"],
        ∃ number, numberOf (Table.get? name fields) = .ok number := by
  simp only [summarizerOf, exists_bind_ok, exists_pure_ok, and_true, exists_and_right,
    List.forall_mem_cons, List.not_mem_nil, false_implies, implies_true, and_assoc]

theorem scanOf_ok_iff {fields : Table Datum} : (∃ settings, scanOf fields = .ok settings) ↔
    ∃ texts, textsOf (Table.get? "exclude_paths" fields) = .ok texts := by
  simp only [scanOf, exists_bind_ok, exists_pure_ok, and_true]

/-- Settings are made of a document when its numbers can be converted. -/
theorem ofDatum_ok_iff {document : Datum} :
    (∃ settings, ofDatum document = .ok settings) ↔ NumbersFit document := by
  simp only [ofDatum, exists_bind_ok, exists_pure_ok, and_true, exists_and_right,
    summarizerOf_ok_iff, scanOf_ok_iff, textOf_ok_iff, numberOf_ok_iff, textsOf_ok_iff]
  exact ⟨fun ⟨⟨texts, numbers⟩, patterns⟩ => ⟨texts, numbers, patterns⟩,
    fun ⟨texts, numbers, patterns⟩ => ⟨⟨texts, numbers⟩, patterns⟩⟩

/-- If the result is a fault, it is that of a number that cannot be converted. -/
def ConvertsOrFails {α : Type} (result : Except Fault α) : Prop :=
  ∀ fault, result = .error fault → fault = .tooLarge ∨ fault = .longValue

namespace ConvertsOrFails

variable {α β : Type}

theorem pure (a : α) : ConvertsOrFails (Pure.pure a) := fun _ h => by cases h

theorem bind {x : Except Fault α} {f : α → Except Fault β} (h : ConvertsOrFails x)
    (h' : ∀ a, ConvertsOrFails (f a)) : ConvertsOrFails (x >>= f) := by
  intro fault hfault
  rcases bind_eq_error.mp hfault with first | ⟨a, -, rest⟩
  · exact h fault first
  · exact h' a fault rest

theorem mapM {f : α → Except Fault β} {items : List α} (h : ∀ item, ConvertsOrFails (f item)) :
    ConvertsOrFails (items.mapM f) := by
  intro fault hfault
  obtain ⟨item, -, hitem⟩ := mapM_eq_error hfault
  exact h item fault hitem

theorem textOf (value : Option Datum) : ConvertsOrFails (Settings.textOf value) := by
  intro fault h
  unfold Settings.textOf at h
  split at h
  · split at h <;> cases h
    exact Or.inr rfl
  all_goals cases h

theorem numberOf (value : Option Datum) : ConvertsOrFails (Settings.numberOf value) := by
  intro fault h
  unfold Settings.numberOf at h
  split at h
  · split at h <;> cases h
    exact Or.inl rfl
  all_goals cases h

theorem textsOf (value : Option Datum) : ConvertsOrFails (Settings.textsOf value) := by
  unfold Settings.textsOf
  split
  · exact pure _
  · exact .bind (.mapM fun item => .textOf _) fun _ => .pure _
  · exact pure _

theorem ofDatum (document : Datum) : ConvertsOrFails (Settings.ofDatum document) :=
  .bind (.bind (.textOf _) fun _ => .bind (.textOf _) fun _ => .bind (.textOf _) fun _ =>
    .bind (.numberOf _) fun _ => .bind (.numberOf _) fun _ => .pure _) fun _ =>
    .bind (.bind (.textsOf _) fun _ => .pure _) fun _ => .pure _

end ConvertsOrFails

/-! ## Whole files -/

theorem ofText_of_malformed {text : String} (parsed : documentOf text = .error .malformed) :
    ofText text = .error .malformed := by
  rw [documentOf] at parsed
  rw [ofText]
  split
  · rename_i blank
    rw [if_pos blank] at parsed
    cases parsed
  · rename_i written
    rw [if_neg written] at parsed
    rw [parsed]

theorem ofText_of_meaningless {text : String} {fault : Yaml.Fault}
    (parsed : documentOf text = .error fault) (other : fault ≠ .malformed) :
    ofText text = .error (.meaningless fault) := by
  rw [documentOf] at parsed
  rw [ofText]
  split
  · rename_i blank
    rw [if_pos blank] at parsed
    cases parsed
  · rename_i written
    rw [if_neg written] at parsed
    rw [parsed]
    cases fault <;> first | rfl | exact absurd rfl other

theorem ofText_of_document {text : String} {document : Datum}
    (parsed : documentOf text = .ok document) :
    ofText text = if document.isSet = false then .ok {}
      else if document.isTable then ofDatum document else .error .noTable := by
  rw [documentOf] at parsed
  rw [ofText]
  split
  · rename_i blank
    rw [if_pos blank] at parsed
    cases parsed
    rfl
  · rename_i written
    rw [if_neg written] at parsed
    rw [parsed]
    cases document <;> simp [Datum.isTable]

/-- The outcome for bytes of a settings file is the documented one: settings of a fit file, and for
an unfit one a failure of which a user is told. -/
inductive Documented {α : Type} (bytes : ByteArray) (outcome : Except Failure α) : Prop
  | accepted {a : α} : outcome = .ok a → ¬ Unfit bytes → Documented bytes outcome
  | refused {fault : Fault} : outcome = .error (.settings fault) →
      (Failure.settings fault).isReported = true → Unfit bytes → Documented bytes outcome

theorem documented_ok_iff {α : Type} {bytes : ByteArray} {a : α} :
    Documented bytes (.ok a) ↔ ¬ Unfit bytes := by
  constructor
  · rintro (⟨-, fit⟩ | ⟨⟨⟩, -, -⟩)
    exact fit
  · exact .accepted rfl

theorem documented_error_iff {α : Type} {bytes : ByteArray} {fault : Fault} :
    Documented bytes (.error (.settings fault) : Except Failure α) ↔
      (Failure.settings fault).isReported = true ∧ Unfit bytes := by
  constructor
  · rintro (⟨⟨⟩, -⟩ | ⟨⟨⟩, told, bad⟩)
    exact ⟨told, bad⟩
  · exact fun ⟨told, bad⟩ => .refused rfl told bad

/-- Bytes of which settings come as it is documented. -/
def IsRegular (bytes : ByteArray) : Prop :=
  ∃ text, Text.ofFile bytes = .ok text ∧ (documentOf text = .error .malformed ∨
    ∃ document, documentOf text = .ok document ∧
      (document.isSet = true ∨ document.isEmpty = true) ∧ NumbersFit document)

theorem unfit_iff {bytes : ByteArray} {text : String} {document : Datum}
    (decoded : Text.ofFile bytes = .ok text) (parsed : documentOf text = .ok document) :
    Unfit bytes ↔ document.isTable = false ∧ document.isEmpty = false := by
  constructor
  · rintro (undecoded | ⟨decoded', unparsed⟩ | ⟨decoded', parsed', noTable, notEmpty⟩)
    · cases decoded.symm.trans undecoded
    · cases decoded.symm.trans decoded'
      cases parsed.symm.trans unparsed
    · cases decoded.symm.trans decoded'
      cases parsed.symm.trans parsed'
      exact ⟨noTable, notEmpty⟩
  · exact fun ⟨noTable, notEmpty⟩ => .noTable decoded parsed noTable notEmpty

theorem isRegular_iff {bytes : ByteArray} {text : String} {document : Datum}
    (decoded : Text.ofFile bytes = .ok text) (parsed : documentOf text = .ok document) :
    IsRegular bytes ↔
      (document.isSet = true ∨ document.isEmpty = true) ∧ NumbersFit document := by
  constructor
  · rintro ⟨_, decoded', unparsed | ⟨_, parsed', regular⟩⟩ <;> cases decoded.symm.trans decoded'
    · cases parsed.symm.trans unparsed
    · cases parsed.symm.trans parsed'
      exact regular
  · exact fun regular => ⟨text, decoded, Or.inr ⟨document, parsed, regular⟩⟩

/-- What comes of a document is the documented outcome exactly if the document is regular. -/
theorem documented_ofText_iff {bytes : ByteArray} {text : String} {document : Datum}
    (decoded : Text.ofFile bytes = .ok text) (parsed : documentOf text = .ok document) :
    Documented bytes ((ofText text).mapError .settings) ↔ IsRegular bytes := by
  rw [isRegular_iff decoded parsed, ofText_of_document parsed]
  have unfit := unfit_iff decoded parsed
  by_cases set : document.isSet = false
  · rw [if_pos set, Except.mapError, documented_ok_iff]
    constructor
    · intro fit
      have empty : document.isEmpty = true := by
        cases table : document.isTable with
        | true => exact Datum.isEmpty_of_isTable table set
        | false =>
          cases empty : document.isEmpty with
          | true => rfl
          | false => exact absurd (unfit.mpr ⟨table, empty⟩) fit
      exact ⟨Or.inr empty, numbersFit_of_fields (Datum.fields_of_isEmpty empty)⟩
    · rintro ⟨set' | empty, -⟩
      · rw [set] at set'
        cases set'
      · exact fun bad => by simpa [empty] using unfit.mp bad
  · rw [if_neg set]
    have filled : document.isEmpty = false :=
      Bool.eq_false_iff.mpr fun empty => set (Datum.isSet_of_isEmpty empty)
    by_cases table : document.isTable = true
    · rw [if_pos table]
      cases made : ofDatum document with
      | ok settings =>
        rw [Except.mapError, documented_ok_iff]
        refine iff_of_true (fun bad => ?_)
          ⟨Or.inl (by simpa using set), ofDatum_ok_iff.mp ⟨_, made⟩⟩
        rw [table] at unfit
        cases (unfit.mp bad).1
      | error fault =>
        rw [Except.mapError, documented_error_iff]
        refine iff_of_false (fun ⟨told, _⟩ => ?_) fun ⟨_, fit⟩ => ?_
        · rcases ConvertsOrFails.ofDatum document fault made with rfl | rfl <;> cases told
        · obtain ⟨settings, h⟩ := ofDatum_ok_iff.mpr fit
          cases h.symm.trans made
    · rw [if_neg table, Except.mapError, documented_error_iff]
      have noTable : document.isTable = false := by simpa using table
      exact iff_of_true ⟨rfl, unfit.mpr ⟨noTable, filled⟩⟩
        ⟨Or.inl (by simpa using set), numbersFit_of_fields (Datum.fields_of_isTable noTable)⟩

theorem documented_ofFile_iff {bytes : ByteArray} :
    Documented bytes ((ofFile bytes).mapError .settings) ↔ IsRegular bytes := by
  cases decoded : Text.ofFile bytes with
  | error fault =>
    have undecodable : ofFile bytes = .error (.undecodable fault) := by rw [ofFile, decoded]
    rw [undecodable, Except.mapError, documented_error_iff]
    refine iff_of_false (fun ⟨told, _⟩ => by cases told) fun ⟨text, decoded', _⟩ => ?_
    cases decoded.symm.trans decoded'
  | ok text =>
    have same : ofFile bytes = ofText text := by rw [ofFile, decoded]
    rw [same]
    cases parsed : documentOf text with
    | ok document => exact documented_ofText_iff decoded parsed
    | error fault =>
      by_cases malformed : fault = .malformed
      · subst malformed
        rw [ofText_of_malformed parsed, Except.mapError, documented_error_iff]
        exact iff_of_true ⟨rfl, .noDocument decoded parsed⟩ ⟨text, decoded, Or.inl parsed⟩
      · rw [ofText_of_meaningless parsed malformed, Except.mapError, documented_error_iff]
        refine iff_of_false (fun ⟨told, _⟩ => by cases told) ?_
        rintro ⟨_, decoded', parsed' | ⟨_, parsed', _⟩⟩ <;> cases decoded.symm.trans decoded'
        · exact malformed (Except.error.inj (parsed.symm.trans parsed'))
        · cases parsed.symm.trans parsed'

end Settings

namespace Workspace

/-- The settings file for a path is there and can be read. -/
structure SettingsFile (w : Workspace) (path : String) (bytes : ByteArray) : Prop where
  placed : ∃ place root, w.settingsPlace path = .ok place ∧
    Disk.resolve w.disk [] (Location.text place.dropLast) = .ok root ∧
    w.contentOf (Location.text place) = .ok bytes

theorem entryOf_of_contentOf {w : Workspace} {path : String} {bytes : ByteArray}
    (content : w.contentOf path = .ok bytes) : w.entryOf path = .ok (.file bytes) := by
  unfold contentOf at content
  split at content
  · cases content
  · rename_i found
    cases content
    exact found
  · cases content

/-- What comes of a settings file that can be read is what comes of its bytes. -/
theorem settings_of_file {w : Workspace} {path : String} {bytes : ByteArray}
    (file : w.SettingsFile path bytes) :
    ∃ root, w.settings path =
      ((Settings.ofFile bytes).mapError Failure.settings).map fun settings => (root, settings) := by
  obtain ⟨place, root, placed, resolved, content⟩ := file.placed
  have present : w.present? (Location.text place) = .ok (some (.file bytes)) := by
    rw [present?, entryOf_of_contentOf content]
  refine ⟨root, ?_⟩
  simp only [settings, placed, resolved, present, content, Except.mapError, bind, Except.bind]
  cases Settings.ofFile bytes <;> rfl

/-- A settings file that can be read has the documented outcome exactly if its bytes are regular. -/
theorem settings_documented_iff {w : Workspace} {path : String} {bytes : ByteArray}
    (file : w.SettingsFile path bytes) :
    Settings.Documented bytes (w.settings path) ↔ Settings.IsRegular bytes := by
  obtain ⟨root, outcome⟩ := settings_of_file file
  rw [outcome, ← Settings.documented_ofFile_iff]
  cases Settings.ofFile bytes with
  | ok settings => exact Settings.documented_ok_iff.trans Settings.documented_ok_iff.symm
  | error fault => exact Settings.documented_error_iff.trans Settings.documented_error_iff.symm

/-- A project whose settings file holds some bytes. -/
def settingsProject (bytes : ByteArray) : Workspace :=
  { disk := .folder [(".briefly.yml", .file bytes)] }

/-- A list that does not end. -/
def unclosedList : ByteArray := "scan: [\n".toUTF8

theorem documentOf_unclosedList : Settings.documentOf "scan: [\n" = .error .malformed := by
  have malformed : (match Settings.documentOf "scan: [\n" with
      | .error fault => fault == .malformed
      | .ok _ => false) = true := by decide +kernel
  cases parsed : Settings.documentOf "scan: [\n" with
  | error fault =>
    rw [parsed] at malformed
    rw [beq_iff_eq.mp malformed]
  | ok document =>
    rw [parsed] at malformed
    cases malformed

theorem settingsFile_unclosedList :
    (settingsProject unclosedList).SettingsFile "." unclosedList :=
  ⟨[".briefly.yml"], [], by decide +kernel, by decide +kernel, by decide +kernel⟩

theorem settings_documented_unclosedList :
    (settingsProject unclosedList).SettingsFile "." unclosedList ∧
      Settings.Documented unclosedList ((settingsProject unclosedList).settings ".") := by
  have decoded : Text.ofFile unclosedList = .ok "scan: [\n" := by decide +kernel
  have regular : Settings.IsRegular unclosedList :=
    ⟨_, decoded, Or.inl documentOf_unclosedList⟩
  exact ⟨settingsFile_unclosedList, (settings_documented_iff settingsFile_unclosedList).mpr regular⟩

/-- A byte that begins no character. -/
def strayByte : ByteArray := ⟨#[0xFF]⟩

theorem settingsFile_strayByte : (settingsProject strayByte).SettingsFile "." strayByte :=
  ⟨[".briefly.yml"], [], by decide +kernel, by decide +kernel, by decide +kernel⟩

/-- A file that cannot be decoded is refused in another way than it is documented. -/
theorem settings_strayByte_undocumented :
    (settingsProject strayByte).SettingsFile "." strayByte ∧
      ¬ Settings.Documented strayByte ((settingsProject strayByte).settings ".") := by
  have untold : (match (settingsProject strayByte).settings "." with
      | .error failure => failure.isReported
      | .ok _ => true) = false := by decide +kernel
  refine ⟨settingsFile_strayByte, ?_⟩
  cases outcome : (settingsProject strayByte).settings "." with
  | error failure =>
    rw [outcome] at untold
    rintro (⟨⟨⟩, -⟩ | ⟨⟨⟩, told, -⟩)
    cases untold.symm.trans told
  | ok found =>
    rw [outcome] at untold
    cases untold

end Workspace

end Synopsis
