import Synopsis.Manifest
import Synopsis.Proofs.Requirement

/-!
# The two readers of requirements

A list of requirements is read line by line, an entry of a project file as a whole. Both readers
split a text at the same places: after the name and, past blanks and extras, before the versions.
They differ in what they do then. The reader of lines, which trims first, goes on only if nothing
follows or versions start there; the reader of entries takes whatever follows. So on one line
without a comment the second agrees with the first wherever the first reads something. Nothing is
said about texts of several lines, nor about comments, which the second reader does not know.
-/

namespace Synopsis

namespace Requirement

open Synopsis.Text

variable {text name versions rest : List Char}

/-! ## Blanks at the end -/

theorem specifierText_trimEnd (cs : List Char) : specifierText (trimEnd cs) = specifierText cs := by
  rw [specifierText, specifierText, trim_trimEnd]

/-- The name ends where it did when blanks at the end are cut. -/
theorem splitName?_trimEnd (cs : List Char) :
    splitName? (trimEnd cs) = (splitName? cs).map fun (name, rest) => (name, trimEnd rest) := by
  cases split : splitName? cs with
  | some parts =>
    obtain ⟨name, rest⟩ := parts
    obtain ⟨named, rfl, ends⟩ := splitName?_eq_some_iff.mp split
    rw [Option.map_some, splitName?_eq_some_iff]
    exact ⟨named, trimEnd_append_of_visible named.visible rest,
      EndsName.front ends (prefix_trimEnd rest)⟩
  | none =>
    -- A name at the start of what is left would be one at the start of the whole.
    rw [Option.map_none, Option.eq_none_iff_forall_ne_some]
    rintro ⟨name, rest⟩ left
    obtain ⟨⟨⟨c, later, rfl, start⟩, -⟩, parts, -⟩ := splitName?_eq_some_iff.mp left
    obtain ⟨tail, whole⟩ := prefix_trimEnd cs
    rw [← whole, parts, List.cons_append, List.cons_append, splitName?, if_pos start] at split
    cases split

theorem dropExtras_of_unopened {cs : List Char} (unopened : cs.head? ≠ some '[') :
    dropExtras cs = cs := by
  rw [dropExtras.eq_def]
  split
  · exact absurd rfl unopened
  · rfl

theorem dropExtras_of_unclosed {inside : List Char} (unclosed : ']' ∉ inside) :
    dropExtras ('[' :: inside) = '[' :: inside := by
  have none : inside.dropWhile (· != ']') = [] :=
    List.dropWhile_eq_nil_iff.mpr fun c h => bne_iff_ne.mpr fun same => unclosed (same ▸ h)
  rw [dropExtras, none]

/-- The bracket that ends extras is not blank. -/
theorem dropExtras_trimEnd (cs : List Char) :
    dropExtras (trimEnd cs) = trimEnd (dropExtras cs) := by
  by_cases opened : cs.head? = some '['
  · obtain ⟨inside, rfl⟩ := List.head?_eq_some_iff.mp opened
    by_cases closed : ']' ∈ inside
    · obtain ⟨extras, rest, rfl, inner⟩ := List.eq_append_cons_of_mem closed
      rw [dropExtras_group inner, trimEnd_cons rfl, trimEnd_append rfl, dropExtras_group inner]
    · rw [dropExtras_of_unclosed closed, trimEnd_cons rfl,
        dropExtras_of_unclosed fun h => closed (mem_of_mem_trimEnd h)]
  · have unopened : (trimEnd cs).head? ≠ some '[' := by
      intro h
      obtain ⟨inside, left⟩ := List.head?_eq_some_iff.mp h
      obtain ⟨tail, whole⟩ := prefix_trimEnd cs
      rw [← whole, left] at opened
      exact opened rfl
    rw [dropExtras_of_unopened unopened, dropExtras_of_unopened opened]

theorem afterName_trimEnd (cs : List Char) : afterName (trimEnd cs) = trimEnd (afterName cs) := by
  have exchange (cs : List Char) : trimStart (trimEnd cs) = trimEnd (trimStart cs) :=
    trimStart_trimEnd cs
  rw [afterName, afterName, exchange, dropExtras_trimEnd, exchange]

/-! ## What both readers see -/

/-- The name that stands before a marker and what is written after it as its versions. -/
def parts? (text : List Char) : Option (List Char × List Char) :=
  (splitName? (trimStart (before [';'] text))).map fun (name, rest) => (name, afterName rest)

/-- Nothing is asked for, or versions are. -/
def asks (versions : List Char) : Bool := versions.head?.all isSpecifierStart

theorem dropFinalNewline_of_notMem {cs : List Char} (inner : '\n' ∉ cs) :
    dropFinalNewline cs = cs := by
  rw [dropFinalNewline]
  split
  · rename_i mirrored
    exact absurd (List.mem_reverse.mp (mirrored ▸ List.mem_cons_self)) inner
  · rfl

/-- What both readers see of a text is part of it. -/
theorem infix_of_parts? (seen : parts? text = some (name, versions)) : versions <:+: text := by
  obtain ⟨⟨name, rest⟩, split, ⟨⟩⟩ := Option.map_eq_some_iff.mp seen
  obtain ⟨-, parts, -⟩ := splitName?_eq_some_iff.mp split
  have inside : rest <:+ trimStart (before [';'] text) := parts ▸ List.suffix_append name rest
  exact ((suffix_afterName rest).trans (inside.trans (suffix_trimStart _))).isInfix.trans
    (prefix_before _ _).isInfix

theorem visible_start_of_parts? (seen : parts? text = some (name, versions)) :
    ∀ c ∈ versions.head?, isBlank c = false := by
  obtain ⟨⟨name, rest⟩, -, ⟨⟩⟩ := Option.map_eq_some_iff.mp seen
  exact visible_start _

/-- On one line the reader of entries takes all that both see. -/
theorem ofItem?_of_single (single : SingleLine text) :
    ofItem? text = (parts? text).map fun (name, versions) =>
      (String.ofList name, specifierText versions) := by
  cases seen : parts? text with
  | none =>
    rw [ofItem?, Option.map_eq_none_iff.mp seen]
    rfl
  | some parts =>
    obtain ⟨name, versions⟩ := parts
    have inner : '\n' ∉ versions := fun h => by
      cases single '\n' ((infix_of_parts? seen).subset h)
    obtain ⟨⟨name, rest⟩, split, ⟨⟩⟩ := Option.map_eq_some_iff.mp seen
    simp only [ofItem?, split, Option.bind_eq_bind, Option.bind_some, Option.map_some,
      dropFinalNewline_of_notMem inner, List.contains_iff_mem, inner, if_false]

/-- Without a comment the reader of lines takes of what both see what
asks for versions or nothing. -/
theorem ofLine?_of_uncommented (uncommented : ¬ [' ', '#'] <:+: text) :
    ofLine? text = (parts? text).bind fun (name, versions) =>
      if asks versions then some (String.ofList name, specifierText versions) else none := by
  have whole : before [' ', '#'] text = text := by
    have nothing : before [' ', '#'] [] = [] := rfl
    have apart : ([] : List Char).head? ≠ some '#' := nofun
    simpa [nothing] using before_append_of_not_infix uncommented apart
  rw [ofLine?, significant, whole, trim, splitName?_trimEnd]
  cases split : splitName? (trimStart (before [';'] text)) with
  | none => simp only [parts?, split, Option.map_none, Option.bind_none, Option.bind_eq_bind]
  | some parts =>
    obtain ⟨name, rest⟩ := parts
    have seen : parts? text = some (name, afterName rest) := by rw [parts?, split]; rfl
    have visible := visible_start_of_parts? seen
    simp only [seen, Option.map_some, Option.bind_eq_bind, Option.bind_some, afterName_trimEnd]
    cases versions : afterName rest with
    | nil =>
      have nothing : asks [] = true := rfl
      have bare : trimEnd [] = [] := rfl
      have any : specifierText [] = anyVersion := by decide
      simp only [bare, any, if_pos nothing]
    | cons c later =>
      rw [versions] at visible
      have start : asks (c :: later) = isSpecifierStart c := rfl
      rw [start, ← specifierText_trimEnd (c :: later), trimEnd_cons (visible c rfl)]

/-! ## The readers compared -/

theorem ofPairs_toList_eq_iff {read : Option (String × String)} {entry : String × String} :
    Table.ofPairs read.toList = [entry] ↔ read = some entry := by
  cases read with
  | none => simp [Table.ofPairs]
  | some pair => simp [Table.ofPairs, Table.put]

theorem requirements_of_single {line : String} (single : SingleLine line.toList) :
    requirements line = Table.ofPairs (ofLine? line.toList).toList := by
  by_cases empty : line.toList = []
  · rw [requirements, empty]
    rfl
  · rw [requirements, single.splitLines_eq empty]
    cases read : ofLine? line.toList <;> simp [read]

theorem entries_singleton (entry : String) :
    Manifest.entries (some (.list [.text entry])) = Table.ofPairs
      (ofItem? entry.toList).toList := by
  simp only [Manifest.entries, List.filterMap_cons, Datum.text?]
  cases ofItem? entry.toList <;> rfl

/-- Versions that are read as such are asked for. -/
theorem asks_of_isSpecifier (visible : ∀ c ∈ versions.head?, isBlank c = false)
    (specifier : IsSpecifier (specifierText versions).toList) : asks versions = true := by
  cases versions with
  | nil => rfl
  | cons c later =>
    have text : specifierText (c :: later) = String.ofList (c :: trimEnd later) := by
      rw [specifierText, trim, trimStart_cons (visible c rfl), trimEnd_cons (visible c rfl)]
      rfl
    obtain ⟨d, _, whole, start⟩ := specifier.start
    rw [text, String.toList_ofList] at whole
    obtain ⟨rfl, -⟩ := List.cons.inj whole
    exact start

/-- On one line without a comment, whatever requirement is read of a list is read of an entry with
the same name and versions; and where an entry asks for versions proper, so does the line. -/
theorem readers_agree {text : String} (single : SingleLine text.toList)
    (uncommented : ¬ [' ', '#'] <:+: text.toList) (name version : String) :
    (requirements text = [(name, version)] →
      Manifest.entries (some (.list [.text text])) = [(name, version)]) ∧
    (Manifest.entries (some (.list [.text text])) = [(name, version)] →
      IsSpecifier version.toList → requirements text = [(name, version)]) := by
  rw [requirements_of_single single, entries_singleton, ofPairs_toList_eq_iff,
    ofPairs_toList_eq_iff, ofLine?_of_uncommented uncommented, ofItem?_of_single single]
  constructor
  · intro read
    obtain ⟨⟨found, versions⟩, seen, read⟩ := Option.bind_eq_some_iff.mp read
    obtain ⟨-, read⟩ := Option.ite_none_right_eq_some.mp read
    rw [seen, Option.map_some, read]
  · intro read specifier
    obtain ⟨⟨found, versions⟩, seen, read⟩ := Option.map_eq_some_iff.mp read
    obtain ⟨rfl, rfl⟩ := Prod.mk.inj read
    rw [seen, Option.bind_some]
    exact if_pos (asks_of_isSpecifier (visible_start_of_parts? seen) specifier)

theorem readers_agree_spacedFlask :
    SingleLine "\tflask [async ] >=2.0, <3 ; extra".toList ∧
      ¬ [' ', '#'] <:+: "\tflask [async ] >=2.0, <3 ; extra".toList ∧
      requirements "\tflask [async ] >=2.0, <3 ; extra" = [("flask", ">=2.0, <3")] ∧
      Manifest.entries (some (.list [.text "\tflask [async ] >=2.0, <3 ; extra"])) =
        [("flask", ">=2.0, <3")] := by
  have single : SingleLine "\tflask [async ] >=2.0, <3 ; extra".toList := by decide
  have uncommented : ¬ [' ', '#'] <:+: "\tflask [async ] >=2.0, <3 ; extra".toList := by decide
  have read : requirements "\tflask [async ] >=2.0, <3 ; extra" = [("flask", ">=2.0, <3")] := by
    decide +kernel
  exact ⟨single, uncommented, read, (readers_agree single uncommented _ _).1 read⟩

end Requirement

end Synopsis
