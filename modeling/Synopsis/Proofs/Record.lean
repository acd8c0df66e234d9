import Synopsis.Extract

/-!
# Records of files

What every record of a file keeps to, whatever the file holds and whatever parser reads it: a parser
may give any tree at all, or break down. A record has facts, a shape or a parse error, according to
the extension of the file, and never facts or a shape beside an error. Whether the facts are those
that the text states is not spoken of here.
-/

namespace Synopsis

/-! ## Lines of Python texts -/

namespace Python

/-- Facts as lines state them: they tell no exports and no comments. -/
structure Plain (facts : Facts) : Prop where
  exports : facts.exports = []
  comments : facts.comments = []

theorem Plain.record {facts : Facts} (plain : Plain facts) (number : Nat)
    (statement : Option Statement) : Plain (Python.record number facts statement) := by
  rcases statement with _ | ⟨source | ⟨indented, name, params⟩ | ⟨name, superclass⟩ | name⟩ <;>
    exact ⟨plain.exports, plain.comments⟩

theorem Plain.factsFrom {facts : Facts} (plain : Plain facts) (number : Nat)
    (lines : List (List Char)) : Plain (Python.factsFrom number facts lines) := by
  induction lines generalizing number facts with
  | nil => exact plain
  | cons line lines ih => exact ih (plain.record number _) (number + 1)

theorem plain_facts (text : String) : Plain (Python.facts text) :=
  Plain.factsFrom ⟨rfl, rfl⟩ 1 _

end Python

/-! ## Kinds and extensions -/

namespace SourceKind

/-- The kind of an extension, said by membership and equality. -/
theorem ofExtension_eq (extension : String) : ofExtension extension =
    if extension ∈ ecmaExtensions then .ecmascript
    else if extension = ".py" then .python
    else if extension = ".json" then .json
    else .unsupported := by
  simp [ofExtension]

theorem ofExtension_eq_ecmascript_iff {extension : String} :
    ofExtension extension = .ecmascript ↔ extension ∈ ecmaExtensions := by
  rw [ofExtension_eq]
  constructor
  · intro h
    split at h
    · assumption
    split at h
    · cases h
    split at h <;> cases h
  · exact fun ecma => if_pos ecma

theorem ofExtension_eq_json_iff {extension : String} :
    ofExtension extension = .json ↔ extension = ".json" := by
  constructor
  · intro h
    rw [ofExtension_eq] at h
    split at h
    · cases h
    split at h
    · cases h
    split at h
    · assumption
    · cases h
  · rintro rfl
    decide

theorem ofExtension_of_unsupported {extension : String} (ecma : extension ∉ ecmaExtensions)
    (python : extension ≠ ".py") (json : extension ≠ ".json") :
    ofExtension extension = .unsupported := by
  rw [ofExtension_eq, if_neg ecma, if_neg python, if_neg json]

end SourceKind

/-! ## Extractions -/

/-- What an extraction from a file of a kind keeps to, when a tree was asked for or not. -/
structure Extraction.Coherent (kind : SourceKind) (withTree : Bool)
    (found : Extraction) : Prop where
  /-- Beside an error there are no facts and no shape. -/
  failed : found.parseError ≠ none → found.facts = {} ∧ found.structure? = none
  shaped : found.structure? ≠ none → kind = .json
  /-- A document has a shape or an error, and not both. -/
  documented : kind = .json → (found.structure? ≠ none ↔ found.parseError = none)
  told : found.facts.exports ≠ [] ∨ found.facts.comments ≠ [] → kind = .ecmascript
  shown : found.tree ≠ none → withTree = true ∧ kind = .ecmascript
  unsupported : kind = .unsupported →
    found.facts = {} ∧ found.structure? = none ∧ found.parseError = none

namespace Extraction

variable {withTree : Bool}

theorem coherent_json (text : String) : (extractJson text).Coherent .json withTree := by
  unfold extractJson
  split
  all_goals constructor <;> simp

/-- Any tree gives facts or an error, and an error alone is left when there is no tree. -/
theorem coherent_ecma (parser : Ecma.TreeParser) (dialect : Ecma.Dialect) (text : String) :
    (extractEcma parser dialect withTree text).Coherent .ecmascript withTree := by
  have asked {tree : Ecma.Tree} (h : (if withTree then some tree.bracketed else none) ≠ none) :
      withTree = true := by
    cases withTree with
    | true => rfl
    | false => exact absurd rfl h
  unfold extractEcma
  split
  · constructor <;> simp
  · simp only
    split
    all_goals constructor <;> simp

theorem coherent_python (text : String) :
    Coherent .python withTree { facts := Python.facts text } := by
  obtain ⟨exports, comments⟩ := Python.plain_facts text
  constructor <;> simp [exports, comments]

theorem coherent_unsupported : Coherent .unsupported withTree {} := by
  constructor <;> simp

theorem coherent (parser : Ecma.TreeParser) (kind : SourceKind) (extension text : String) :
    (extractKind parser kind extension withTree text).Coherent kind withTree := by
  cases kind with
  | ecmascript => exact coherent_ecma parser _ text
  | python => exact coherent_python text
  | json => exact coherent_json text
  | unsupported => exact coherent_unsupported

end Extraction

/-! ## Records -/

/-- What the record of a file keeps to, given its path and its text, when a tree was asked for or
not. -/
structure FileRecord.Coherent (path text : String) (withTree : Bool) (record : FileRecord) :
    Prop where
  here : record.path = path ∧ record.extension = Path.extension path
  lines : record.lines = text.toList.count '\n' + 1
  size : record.size = text.toUTF8.size
  /-- Beside an error there are no facts and no shape. -/
  failed : record.parseError ≠ none → record.facts = {} ∧ record.structure? = none
  shaped : record.structure? ≠ none → record.extension = ".json"
  /-- A document has a shape or an error, and not both. -/
  documented : record.extension = ".json" →
    (record.structure? ≠ none ↔ record.parseError = none)
  told : record.facts.exports ≠ [] ∨ record.facts.comments ≠ [] →
    record.extension ∈ SourceKind.ecmaExtensions
  shown : record.tree ≠ none → withTree = true ∧ record.extension ∈ SourceKind.ecmaExtensions
  unsupported : record.extension ∉ SourceKind.ecmaExtensions → record.extension ≠ ".py" →
    record.extension ≠ ".json" →
      record.facts = {} ∧ record.structure? = none ∧ record.parseError = none

/-- Every text gives a coherent record, by any parser. -/
theorem extractFileBy_coherent (parser : Ecma.TreeParser) (path text : String) (withTree : Bool) :
    (extractFileBy parser path text withTree).Coherent path text withTree := by
  have coherent : (extractKind parser (SourceKind.ofPath path) (Path.extension path) withTree
      text).Coherent (SourceKind.ofPath path) withTree := Extraction.coherent parser _ _ text
  unfold extractFileBy
  simp only [SourceKind.ofPath] at coherent ⊢
  generalize extractKind parser _ (Path.extension path) withTree text = found at coherent ⊢
  refine ⟨⟨rfl, rfl⟩, rfl, rfl, coherent.failed, ?shaped, ?documented, ?told, ?shown, ?unsupported⟩
  all_goals
    dsimp only
    generalize Path.extension path = extension at coherent ⊢
  case shaped => exact fun h => SourceKind.ofExtension_eq_json_iff.mp (coherent.shaped h)
  case documented => exact fun h => coherent.documented (SourceKind.ofExtension_eq_json_iff.mpr h)
  case told => exact fun h => SourceKind.ofExtension_eq_ecmascript_iff.mp (coherent.told h)
  case shown =>
    exact fun h => (coherent.shown h).imp_right SourceKind.ofExtension_eq_ecmascript_iff.mp
  case unsupported =>
    exact fun ecma python json =>
      coherent.unsupported (SourceKind.ofExtension_of_unsupported ecma python json)

end Synopsis
