import Mathlib.Data.Set.Basic
import Synopsis.Proofs.Text.Case
import Synopsis.Stack

/-!
# What the tags of a project depend on

Each rule is asked by itself whether one of its keys is found in its source, and the tags of the
rules where one is are the tags of the project, in the order of the table. So nothing matters but
what is found: neither the order nor the number of times, neither the version of a dependency nor
its kind, nor the letter case of its name, as long as its lower case is the same. Where more is
found, tags come in between and none is lost.

The letter case of extensions and of keys does matter. A key that is not in lower case is never
found among the dependencies.
-/

namespace Synopsis

/-- The names of the dependencies, for production and for development. -/
def Dependencies.allNames (declared : Dependencies) : List String :=
  declared.production.names ++ declared.development.names

/-- Dependencies whose names are all among other ones, under either kind and in any letter case. -/
def Dependencies.Within (declared declared' : Dependencies) : Prop :=
  ∀ name ∈ declared.allNames, ∃ name' ∈ declared'.allNames, Text.SameButCase name name'

instance : DecidableRel Dependencies.Within := fun declared declared' =>
  inferInstanceAs (Decidable (∀ name ∈ declared.allNames,
    ∃ name' ∈ declared'.allNames, Text.SameButCase name name'))

namespace Stack

variable {found found' : Source → Set String} {rule : Rule} {table : List Rule}
  {tags tags' : List String}
  {extensions extensions' : List String} {declared declared' : Dependencies}

/-- What is found in each source: the extensions, and the names of the
dependencies in lower case. -/
def observed (extensions : List String) (declared : Dependencies) : Source → Set String
  | .extension => {extension | extension ∈ extensions}
  | .dependency => {lowered | ∃ name ∈ declared.allNames, Text.lower name = lowered}
  | .unknown => ∅

/-- A rule one of whose keys is found in its source. -/
def Rule.Met (found : Source → Set String) (rule : Rule) : Prop :=
  ∃ key ∈ rule.keys, key ∈ found rule.source

/-- The tags that a table gives, rule by rule. -/
inductive Tagged (found : Source → Set String) : List Rule → List String → Prop
  | nil : Tagged found [] []
  | met {rule : Rule} {table : List Rule} {tags : List String} :
      rule.Met found → Tagged found table tags → Tagged found (rule :: table) (rule.tag :: tags)
  | unmet {rule : Rule} {table : List Rule} {tags : List String} :
      ¬ rule.Met found → Tagged found table tags → Tagged found (rule :: table) tags

/-! ## Rules -/

theorem mem_names {lowered : String} :
    lowered ∈ names declared ↔ ∃ name ∈ declared.allNames, Text.lower name = lowered :=
  List.mem_map

theorem fires_iff : rule.fires extensions (names declared) = true ↔
    rule.Met (observed extensions declared) := by
  rw [Rule.fires, List.any_eq_true, Rule.Met]
  refine exists_congr fun key => and_congr_right fun _ => ?_
  cases rule.source with
  | extension => exact List.contains_iff_mem
  | dependency => exact List.contains_iff_mem.trans mem_names
  | unknown => exact iff_of_false Bool.false_ne_true (Set.notMem_empty key)

theorem Rule.Met.mono (more : found ≤ found') (met : rule.Met found) : rule.Met found' := by
  obtain ⟨key, listed, inside⟩ := met
  exact ⟨key, listed, more rule.source inside⟩

/-! ## Tables -/

theorem tagged_detect (table : List Rule) (extensions : List String) (declared : Dependencies) :
    Tagged (observed extensions declared) table (detect table extensions declared) := by
  induction table with
  | nil => exact .nil
  | cons rule table ih =>
    rw [detect, List.filter_cons]
    split
    · rename_i fires
      exact .met (fires_iff.mp fires) ih
    · rename_i silent
      exact .unmet (fun met => silent (fires_iff.mpr met)) ih

theorem Tagged.sublist (tagged : Tagged found table tags) : tags.Sublist (table.map Rule.tag) := by
  induction tagged with
  | nil => exact .slnil
  | met _ _ ih => exact ih.cons_cons _
  | unmet _ _ ih => exact ih.cons _

/-- Where more is found, no rule falls silent that fired before. -/
theorem Tagged.mono (more : found ≤ found') (tagged : Tagged found table tags)
    (tagged' : Tagged found' table tags') : tags.Sublist tags' := by
  induction tagged generalizing tags' with
  | nil =>
    cases tagged'
    exact .slnil
  | met met _ ih =>
    cases tagged' with
    | met _ tagged' => exact (ih tagged').cons_cons _
    | unmet unmet _ => exact absurd (met.mono more) unmet
  | unmet _ _ ih =>
    cases tagged' with
    | met _ tagged' => exact (ih tagged').cons _
    | unmet _ tagged' => exact ih tagged'

theorem Tagged.unique (tagged : Tagged found table tags) (tagged' : Tagged found table tags') :
    tags = tags' :=
  (tagged.mono le_rfl tagged').antisymm (tagged'.mono le_rfl tagged)

theorem detect_eq_iff : detect table extensions declared = tags ↔
    Tagged (observed extensions declared) table tags := by
  constructor
  · rintro rfl
    exact tagged_detect table extensions declared
  · exact (tagged_detect table extensions declared).unique

/-! ## What is found -/

/-- With more extensions and more dependencies, more is found. -/
theorem observed_mono (more : extensions ⊆ extensions') (within : declared.Within declared') :
    observed extensions declared ≤ observed extensions' declared'
  | .extension => fun _ listed => more listed
  | .dependency => by
    rintro _ ⟨name, listed, rfl⟩
    obtain ⟨name', listed', same⟩ := within name listed
    exact ⟨name', listed', (Text.lower_eq_of_sameButCase same).symm⟩
  | .unknown => le_rfl

/-- The tags of a project are those of the rules that are met, one by one, in the order of the
table. What is found decides about them: where the same is found they are the same, and where more
is found none of them is lost. More is found where the extensions are all among others, and the
names all among other ones, under either kind and in any letter case. -/
theorem tags_by_observation (table : List Rule) (extensions : List String)
    (declared : Dependencies) :
    (∀ tags, detect table extensions declared = tags ↔
      Tagged (observed extensions declared) table tags) ∧
    (detect table extensions declared).Sublist (table.map Rule.tag) ∧
    ∀ extensions' declared',
      (observed extensions declared = observed extensions' declared' →
        detect table extensions declared = detect table extensions' declared') ∧
      (observed extensions declared ≤ observed extensions' declared' →
        (detect table extensions declared).Sublist (detect table extensions' declared')) ∧
      (extensions ⊆ extensions' → declared.Within declared' →
        observed extensions declared ≤ observed extensions' declared') := by
  have tagged := tagged_detect table extensions declared
  refine ⟨fun tags => detect_eq_iff, tagged.sublist, fun extensions' declared' => ⟨?_, ?_, ?_⟩⟩
  · intro same
    rw [detect_eq_iff, same]
    exact tagged_detect table extensions' declared'
  · intro more
    exact tagged.mono more (tagged_detect table extensions' declared')
  · exact observed_mono

/-- Rules of either source, one of another source, and one with a key that is not in lower case. -/
def sampleRules : List Rule :=
  [⟨"Go", .extension, [".go"]⟩, ⟨"Ghost", .unknown, [".go", "django"]⟩,
    ⟨"Flask", .dependency, ["flask"]⟩, ⟨"Vue", .dependency, ["VUE"]⟩,
    ⟨"Django", .dependency, ["channels", "django"]⟩]

/-- Names in another letter case, of another kind and twice give the same tags, and a further name
gives a tag between them. -/
theorem tags_by_observation_respelled :
    let plain : Dependencies := { production := [("Django", "4"), ("vue", "3")] }
    let respelled : Dependencies :=
      { production := [("VUE", "2")], development := [("DJANGO", "*"), ("django", "5")] }
    let extended : Dependencies :=
      { production := [("dJango", "5"), ("Flask", "3")], development := [("Vue", "*")] }
    (plain.Within respelled ∧ respelled.Within plain ∧ respelled.Within extended) ∧
      detect sampleRules [".go", ".py", ".go"] plain = ["Go", "Django"] ∧
      detect sampleRules [".go", ".py", ".go"] plain = detect sampleRules [".py", ".go"] respelled ∧
      (detect sampleRules [".py", ".go"] respelled).Sublist
        (detect sampleRules [".js", ".py", ".go"] extended) ∧
      detect sampleRules [".js", ".py", ".go"] extended = ["Go", "Flask", "Django"] := by
  intro plain respelled extended
  have there : plain.Within respelled := by decide +kernel
  have back : respelled.Within plain := by decide +kernel
  have onward : respelled.Within extended := by decide +kernel
  have law (extensions : List String) (declared : Dependencies) :=
    (tags_by_observation sampleRules extensions declared).2.2
  refine ⟨⟨there, back, onward⟩, by decide +kernel, ?_, ?_, by decide +kernel⟩
  · refine (law _ _ _ _).1 (le_antisymm ?_ ?_)
    · exact (law _ _ _ _).2.2 (by decide) there
    · exact (law _ _ _ _).2.2 (by decide) back
  · exact (law _ _ _ _).2.1 ((law _ _ _ _).2.2 (by decide) onward)

end Stack

end Synopsis
