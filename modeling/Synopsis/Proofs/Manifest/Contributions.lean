import Synopsis.Proofs.Manifest
import Synopsis.Proofs.Table
import Synopsis.Proofs.Text.Lower

/-!
# What a project file declares

A project file may declare dependencies at nine places: at some of them requirements are listed, at
the others a table gives names with their versions. What is declared is what the places contribute,
one after another: each name is where it first came and has the version that came last. What a place
contributes is told by the value at that place alone, so a value that cannot be read there, or on
the way to it, takes nothing away from the other places; nor does an item of a list that is no text.
Versions that are no texts are not meant: they are declared as they are written.
-/

namespace Synopsis

namespace Manifest

/-! ## Places -/

/-- What the value at a place is read as. -/
inductive Form where
  /-- A list of requirements. -/
  | entries
  /-- A table of names with their versions. -/
  | constraints
  deriving DecidableEq

/-- A place of a document: the names that lead to it and what is read there. -/
structure Place where
  way : List String
  form : Form
  deriving DecidableEq

/-- Where dependencies of the project itself are declared, those that count more coming later. -/
def productionPlaces : List Place :=
  [⟨["project", "dependencies"], .entries⟩, ⟨["tool", "poetry", "dependencies"], .constraints⟩]

/-- Where dependencies of its development are declared. -/
def developmentPlaces : List Place :=
  [⟨["project", "optional-dependencies", "dev"], .entries⟩,
    ⟨["project", "optional-dependencies", "test"], .entries⟩,
    ⟨["project", "optional-dependencies", "tests"], .entries⟩,
    ⟨["tool", "poetry", "dev-dependencies"], .constraints⟩,
    ⟨["tool", "poetry", "group", "dev", "dependencies"], .constraints⟩,
    ⟨["tool", "poetry", "group", "test", "dependencies"], .constraints⟩,
    ⟨["tool", "poetry", "group", "tests", "dependencies"], .constraints⟩]

def places : List Place := productionPlaces ++ developmentPlaces

/-- The value that names lead to; nothing if one of them is not there. -/
def valueAt : List String → Option Datum → Option Datum
  | [], value => value
  | name :: way, value => valueAt way (within name value)

/-- The name of the language itself, in whatever letter case. -/
def IsLanguage (name : String) : Prop := Text.Spells name.toList "python".toList

instance (name : String) : Decidable (IsLanguage name) :=
  inferInstanceAs (Decidable (List.Forall₂ _ _ _))

/-- What a value that is read in a form contributes: names with versions, in order. -/
def Form.pairs : Form → Option Datum → List (String × String)
  | .entries, some (.list items) =>
    items.filterMap fun item => item.text?.bind fun s => Requirement.ofItem? s.toList
  | .constraints, some (.table fields) =>
    (fields.filter fun (name, _) => ¬ IsLanguage name).map
      fun (name, value) => (name, (versionOf value).asText)
  | _, _ => []

/-- What a place of a document contributes. -/
def contribution (document : Datum) (place : Place) : List (String × String) :=
  place.form.pairs (valueAt place.way (some document))

/-- What places contribute is what is declared: the manager, and tables of all pairs in turn. -/
structure Declares (contributed : Place → List (String × String)) (declared : Dependencies) :
    Prop where
  manager : declared.manager = some "poetry/pip"
  production : Table.Joins (productionPlaces.flatMap contributed) declared.production
  development : Table.Joins (developmentPlaces.flatMap contributed) declared.development

/-! ## What a document declares -/

theorem lower_eq_python_iff {name : String} : Text.lower name = "python" ↔ IsLanguage name :=
  Text.lower_eq_iff (List.all_eq_true.mp (by decide))

theorem entries_eq (value : Option Datum) :
    entries value = Table.ofPairs (Form.entries.pairs value) := by
  cases value with
  | none => rfl
  | some value =>
    cases value with
    | list items => rw [entries, Form.pairs, List.filterMap_filterMap]
    | _ => rfl

theorem pairs_of_constraints {value : Option Datum} {table : Table String}
    (read : constraints value = .ok table) : Form.constraints.pairs value = table := by
  cases value with
  | none => exact Except.ok.inj read
  | some value =>
    cases value with
    | table fields =>
      have kept : (fields.filter fun (name, _) => Text.lower name != "python") =
          fields.filter fun (name, _) => ¬ IsLanguage name :=
        List.filter_congr fun entry _ => by
          simp [bne, beq_eq_decide, ← lower_eq_python_iff]
      rw [constraints, kept] at read
      dsimp only at read
      split at read
      · cases read
      · rw [← Except.ok.inj read, Form.pairs, List.map_map]
        rfl
    | _ => exact Except.ok.inj read

variable {document : Datum} {declared : Dependencies}

theorem flatten_of_mapM_constraints {values : List (Option Datum)} {tables : List (Table String)}
    (read : values.mapM constraints = .ok tables) :
    tables.flatten = values.flatMap Form.constraints.pairs := by
  have each := forall₂_of_mapM_ok read
  clear read
  induction each with
  | nil => rfl
  | cons first _ ih => rw [List.flatten_cons, List.flatMap_cons, pairs_of_constraints first, ih]

/-- What the table of a project declares is the lists of requirements there, in turn. -/
theorem ofProjectTable_eq (project : Option Datum) : ofProjectTable project =
    { production := Table.ofPairs (Form.entries.pairs (within "dependencies" project))
      development := Table.ofPairs (developmentGroups.flatMap fun group =>
        Form.entries.pairs (within group (within "optional-dependencies" project))) } := by
  simp only [ofProjectTable, entries_eq, Table.merge_ofPairs]
  rw [← List.foldl_map (f := fun group => Form.entries.pairs (within group _)) (g := Table.merge),
    Table.foldl_merge, List.flatMap_def]
  rfl

/-- A document declares what its places contribute. -/
theorem declares_of_ofProjectValue (read : ofProjectValue document = .ok declared) :
    Declares (contribution document) declared := by
  obtain ⟨production, first, read⟩ := bind_eq_ok.mp read
  obtain ⟨development, second, read⟩ := bind_eq_ok.mp read
  obtain rfl := Except.ok.inj read
  simp only [ofProjectTable_eq, Table.foldl_merge, flatten_of_mapM_constraints second,
    ← pairs_of_constraints first, Table.ofPairs_eq, ← Table.merge_append]
  refine ⟨rfl, ?_, ?_⟩
  · have parts : productionPlaces.flatMap (contribution document) =
        Form.entries.pairs (within "dependencies" (document.get? "project")) ++
          Form.constraints.pairs (within "dependencies" (toolOf document)) := by
      simp only [productionPlaces, List.flatMap_cons, List.flatMap_nil, List.append_nil]
      rfl
    rw [parts]
    exact Table.joins_ofPairs _
  · have parts : developmentPlaces.flatMap (contribution document) =
        (developmentGroups.flatMap fun group => Form.entries.pairs
          (within group (within "optional-dependencies" (document.get? "project")))) ++
        (toolGroups (toolOf document)).flatMap Form.constraints.pairs := by
      simp only [developmentPlaces, developmentGroups, toolGroups, List.flatMap_cons,
        List.flatMap_nil, List.map_cons, List.map_nil, List.append_nil, List.append_assoc]
      rfl
    rw [parts]
    exact Table.joins_ofPairs _

/-- There is something that a document declares unless a version is too long to be written. -/
theorem ofProjectValue_ok_iff : (∃ declared, ofProjectValue document = .ok declared) ↔
    ∀ place ∈ places, place.form = .constraints →
      ¬ LongVersion (valueAt place.way (some document)) := by
  have tables : within "dependencies" (toolOf document) :: toolGroups (toolOf document) =
      (places.filter (·.form = .constraints)).map fun place =>
        valueAt place.way (some document) := rfl
  rw [ofProjectValue, withTool_ok_iff, ← toolOf, tables, List.forall_mem_map]
  simp only [List.mem_filter, decide_eq_true_eq, and_imp]

/-! ## A document of one statement -/

/-- A document whose list of requirements holds a number. -/
def flaskDocument : Datum :=
  .table [("project", .table [("dependencies", .list [.text "flask>=2", .int 1])])]

/-- The document as it is written. -/
def flaskText : String := "project.dependencies=[\"flask>=2\",1]"

/-- What the document declares. -/
def flaskDeclared : Dependencies :=
  { manager := some "poetry/pip", production := [("flask", ">=2")] }

/-- A document of one statement. -/
theorem parse_of_statement {text : String} {c : Char} {rest : List Char} {draft : Toml.Draft}
    (start : Toml.skipGap text.toList = c :: rest) (visible : c ≠ '\n')
    (read : Toml.statement {} (c :: rest) = .ok (draft, [])) :
    Toml.parse text = .ok (.table draft.data) := by
  have statements : Toml.statements (text.toList.length + 1) {} text.toList = .ok draft := by
    rw [Toml.statements, start]
    split
    · contradiction
    · rename_i same
      exact absurd (List.cons.inj same).1 visible
    · rw [read]
      rfl
  rw [Toml.parse, statements]
  rfl

theorem parse_flaskText : Toml.parse flaskText = .ok flaskDocument := by
  have assigned :
      Toml.Draft.assign ["project", "dependencies"] (.list [.text "flask>=2", .int 1]) {} =
      .ok { data := flaskDocument.fields
            pending := [["project"]]
            frozen := [["project", "dependencies"]] } := by
    simp [Toml.Draft.assign, Toml.splitLast, Toml.Draft.beginnings, Toml.alter, Toml.alterValue,
      Toml.insertNew, Toml.covers, Toml.isNested, Table.get?, Table.put, flaskDocument,
      Datum.fields]
  have read : Toml.statement {} flaskText.toList = (do
      return (← Toml.Draft.assign ["project", "dependencies"]
        (.list [.text "flask>=2", .int 1]) {}, [])) := rfl
  rw [assigned] at read
  exact parse_of_statement rfl (by decide) read

/-! ## One place and the others -/

/-- The document with a value put where names lead, below new tables if need be. -/
def setAt : List String → Datum → Datum → Datum
  | [], value, _ => value
  | name :: way, value, document =>
    .table (Table.put name (setAt way value ((document.get? name).getD (.table [])))
      document.fields)

variable {way other : List String} {value : Datum} {place : Place}

theorem valueAt_none (way : List String) : valueAt way none = none := by
  induction way with
  | nil => rfl
  | cons name way ih => exact ih

theorem valueAt_append (way more : List String) (value : Option Datum) :
    valueAt (way ++ more) value = valueAt more (valueAt way value) := by
  induction way generalizing value with
  | nil => rfl
  | cons name way ih => exact ih _

theorem valueAt_setAt_self (way : List String) (value document : Datum) :
    valueAt way (some (setAt way value document)) = some value := by
  induction way generalizing document with
  | nil => rfl
  | cons name way ih =>
    have here : within name (some (setAt (name :: way) value document)) =
        some (setAt way value ((document.get? name).getD (.table []))) :=
      Table.get?_put_self _ _ _
    rw [valueAt, here, ih]

/-- Where neither way goes on from the other, nothing changes. -/
theorem valueAt_setAt_apart (aside : ¬ way <+: other) (beside : ¬ other <+: way)
    (value document : Datum) :
    valueAt other (some (setAt way value document)) = valueAt other (some document) := by
  induction way generalizing other document with
  | nil => exact absurd List.nil_prefix aside
  | cons name way ih =>
    cases other with
    | nil => exact absurd List.nil_prefix beside
    | cons first other =>
      by_cases same : first = name
      · subst same
        rw [List.cons_prefix_cons, and_iff_right rfl] at aside beside
        have here : within first (some (setAt (first :: way) value document)) =
            some (setAt way value ((document.get? first).getD (.table []))) :=
          Table.get?_put_self _ _ _
        rw [valueAt, valueAt, here, ih aside beside]
        cases held : document.get? first with
        | some inner => rw [within, Option.bind_some, held]; rfl
        | none =>
          -- An empty table has nothing where nothing was.
          rw [within, Option.bind_some, held, Option.getD_none]
          cases other with
          | nil => exact absurd List.nil_prefix beside
          | cons second other => rfl
      · have here : within first (some (setAt (name :: way) value document)) =
            within first (some document) :=
          Table.get?_put_of_ne same _ _
        rw [valueAt, valueAt, here]

/-- A value is of the type that is read in a form. -/
def Form.Fits : Form → Datum → Prop
  | .entries, value => ∃ items, value = .list items
  | .constraints, value => ∃ fields, value = .table fields

theorem pairs_of_not_fits {form : Form} (misfit : ¬ form.Fits value) :
    form.pairs (some value) = [] := by
  cases form with
  | entries =>
    cases value with
    | list items => exact absurd ⟨items, rfl⟩ misfit
    | _ => rfl
  | constraints =>
    cases value with
    | table fields => exact absurd ⟨fields, rfl⟩ misfit
    | _ => rfl

/-- Only a table has values under names. -/
theorem within_of_not_fits {name : String} (misfit : ¬ Form.constraints.Fits value) :
    within name (some value) = none := by
  cases value with
  | table fields => exact absurd ⟨fields, rfl⟩ misfit
  | _ => rfl

/-- What is read where a way ends: a list where requirements are listed, and else a table. -/
def formAt (way : List String) : Form := if ⟨way, .entries⟩ ∈ places then .entries else .constraints

/-- A value of the wrong type, at a place or on the way to one. -/
structure Misplaced (way : List String) (value : Datum) : Prop where
  leads : ∃ place ∈ places, way <+: place.way
  misfit : ¬ (formAt way).Fits value

/-- The way to a place does not lead on to another place. -/
theorem eq_of_prefix {first second : Place} (here : first ∈ places) (there : second ∈ places)
    (leads : first.way <+: second.way) : first = second := by
  have all : ∀ first ∈ places, ∀ second ∈ places, first.way <+: second.way → first = second := by
    decide +kernel
  exact all first here second there leads

theorem formAt_way (h : place ∈ places) : formAt place.way = place.form := by
  have all : ∀ place ∈ places, formAt place.way = place.form := by decide +kernel
  exact all place h

/-- A value of the wrong type leaves no place below it anything to contribute. -/
theorem Misplaced.contribution_below (misplaced : Misplaced way value) (document : Datum)
    (listed : place ∈ places) (below : way <+: place.way) :
    contribution (setAt way value document) place = [] := by
  obtain ⟨more, whole⟩ := below
  rw [contribution, ← whole, valueAt_append, valueAt_setAt_self]
  cases more with
  | nil =>
    have form : formAt way = place.form := by
      rw [← formAt_way listed, ← whole, List.append_nil]
    exact pairs_of_not_fits (form ▸ misplaced.misfit)
  | cons name more =>
    have form : formAt way = .constraints := by
      refine if_neg fun here => ?_
      obtain rfl := eq_of_prefix here listed ⟨name :: more, whole⟩
      simp at whole
    rw [valueAt, within_of_not_fits (form ▸ misplaced.misfit), valueAt_none]
    cases place.form <;> rfl

theorem contribution_apart (leads : ∃ place ∈ places, way <+: place.way) (value document : Datum)
    (listed : place ∈ places) (aside : ¬ way <+: place.way) :
    contribution (setAt way value document) place = contribution document place := by
  have beside : ¬ place.way <+: way := by
    intro above
    obtain ⟨goal, inside, on⟩ := leads
    obtain rfl := eq_of_prefix listed inside (above.trans on)
    exact aside on
  rw [contribution, contribution, valueAt_setAt_apart aside beside]

theorem Declares.congr {first second : Place → List (String × String)}
    (same : ∀ place ∈ places, first place = second place) (declares : Declares first declared) :
    Declares second declared := by
  obtain ⟨production, development⟩ := List.forall_mem_append.mp same
  refine ⟨declares.manager, ?_, ?_⟩
  · rw [← List.flatMap_congr production]
    exact declares.production
  · rw [← List.flatMap_congr development]
    exact declares.development

/-- An item that is no text leaves the list with what the others contribute. -/
theorem pairs_of_no_text {item : Datum} (noText : item.text? = none) (before after : List Datum) :
    Form.entries.pairs (some (.list (before ++ item :: after))) =
      Form.entries.pairs (some (.list (before ++ after))) := by
  simp only [Form.pairs, List.filterMap_append, List.filterMap_cons, noText, Option.bind_none]

/-! ## All places together -/

/-- Whatever a project file holds that is read, it declares what its places contribute, in turn. It
declares something unless a version is too long to be written. A value of the wrong type contributes
nothing and leaves the other places alone, and so does an item of a list that is no text. -/
theorem project_joins_contributions :
    (∀ bytes text document, Text.ofFile bytes = .ok text → Toml.parse text = .ok document →
      ((∃ declared, ofProject bytes = .ok declared) ↔
        ∀ place ∈ places, place.form = .constraints →
          ¬ LongVersion (valueAt place.way (some document))) ∧
      ∀ declared, ofProject bytes = .ok declared → Declares (contribution document) declared) ∧
    (∀ way value document declared, Misplaced way value →
      ofProjectValue (setAt way value document) = .ok declared →
      Declares (fun place => if way <+: place.way then [] else contribution document place)
        declared) ∧
    ∀ way before item after document declared, ⟨way, .entries⟩ ∈ places → item.text? = none →
      ofProjectValue (setAt way (.list (before ++ item :: after)) document) = .ok declared →
      Declares (contribution (setAt way (.list (before ++ after)) document)) declared := by
  refine ⟨?_, ?_, ?_⟩
  · intro bytes text document decoded parsed
    have read : ofProject bytes = ofProjectValue document := by
      simp only [ofProject, readProject, decoded, parsed]
    rw [read]
    exact ⟨ofProjectValue_ok_iff, fun declared => declares_of_ofProjectValue⟩
  · intro way value document declared misplaced read
    refine (declares_of_ofProjectValue read).congr fun place listed => ?_
    split
    · rename_i below
      exact misplaced.contribution_below document listed below
    · rename_i aside
      exact contribution_apart misplaced.leads value document listed aside
  · intro way before item after document declared here noText read
    refine (declares_of_ofProjectValue read).congr fun place listed => ?_
    by_cases below : way <+: place.way
    · obtain rfl := eq_of_prefix here listed below
      rw [contribution, contribution, valueAt_setAt_self, valueAt_setAt_self]
      exact pairs_of_no_text noText before after
    · have leads : ∃ place ∈ places, way <+: place.way := ⟨_, here, List.prefix_rfl⟩
      rw [contribution_apart leads _ document listed below,
        contribution_apart leads _ document listed below]

theorem project_joins_contributions_flask :
    Declares (contribution flaskDocument) flaskDeclared ∧
      Declares (fun place => if ["tool", "poetry"] <+: place.way then []
        else contribution flaskDocument place) flaskDeclared ∧
      Declares (contribution (setAt ["project", "dependencies"] (.list [.text "flask>=2"])
        (.table []))) flaskDeclared := by
  have decoded : Text.ofFile flaskText.toUTF8 = .ok flaskText := by decide +kernel
  have read : ofProject flaskText.toUTF8 = .ok flaskDeclared := by
    simp only [ofProject, readProject, decoded, parse_flaskText]
    rfl
  refine ⟨?_, ?_, ?_⟩
  · exact (project_joins_contributions.1 _ _ _ decoded parse_flaskText).2 _ read
  · exact project_joins_contributions.2.1 ["tool", "poetry"] (.int 2) _ _
      ⟨by decide +kernel, by rintro ⟨_, ⟨⟩⟩⟩ rfl
  · exact project_joins_contributions.2.2 ["project", "dependencies"] [.text "flask>=2"] (.int 1) []
      (.table []) _ (by decide +kernel) rfl rfl

end Manifest

end Synopsis
