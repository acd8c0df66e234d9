import Synopsis.Json.Shape

/-!
# Shapes cut at a height

The description of a value stops at some depth. Here the shape of a value is first told to any
depth, and then cut at a height: that is the description, and the depth at which it starts only
tells how much height is left. So a description says nothing of what lies below the cut, and its
size has a bound that no value exceeds.

The parts of a description describe the parts of the value at the same places. Only what a table
lists has a place there; of its other fields a description tells the number.
-/

namespace Synopsis

/-! ## Places in a value -/

namespace Datum

/-- A step into a value: to the first item of a list or to a field of a table. -/
inductive Step where
  | item
  | field (index : Nat)

/-- The part of a value that a step leads to. -/
def part? : Datum → Step → Option Datum
  | .list items, .item => items.head?
  | .table fields, .field index => fields[index]?.map Prod.snd
  | _, _ => none

/-- The part of a value at a place. -/
def at? (value : Datum) : List Step → Option Datum
  | [] => some value
  | step :: place => (part? value step).bind (at? · place)

end Datum

namespace Json.Shape

/-! ## Whole shapes and their cuts -/

mutual
/-- The shape of a value to any depth: a list by its length and its first item, a table by its first
ten fields and the number of the others, and anything else by its kind. -/
def whole : Datum → Shape
  | .list [] => .list 0 none
  | .list (first :: rest) => .list (rest.length + 1) (some (whole first))
  | .table fields => .table ((wholeFields fields).take 10) (fields.length - 10)
  | .bool _ => .tag "boolean"
  | .int _ => .tag "number"
  | .float _ => .tag "number"
  | .text _ => .tag "string"
  | .moment _ => .tag "null"
  | .null => .tag "null"

/-- All fields of a table, with the whole shapes of their values. -/
def wholeFields : List (String × Datum) → List (String × Shape)
  | [] => []
  | (name, value) :: fields => (name, whole value) :: wholeFields fields
end

/-- A shape down to a height, with the mark for what lies too deep in place of the parts there. A
list without an item has nothing to be marked. -/
def cut : Nat → Shape → Shape
  | 0, _ => .tag "..."
  | _ + 1, .tag name => .tag name
  | height + 1, .list length item => .list length (item.map (cut height))
  | height + 1, .table fields others =>
    .table (fields.map fun (name, part) => (name, cut height part)) others

theorem wholeFields_eq (fields : List (String × Datum)) :
    wholeFields fields = fields.map fun (name, value) => (name, whole value) := by
  induction fields with
  | nil => rfl
  | cons field fields ih => rw [wholeFields, ih, List.map_cons]

theorem ofFields_eq (depth : Int) (count : Nat) (fields : List (String × Datum)) :
    ofFields depth count fields =
      (fields.take count).map fun (name, value) => (name, ofDatum depth value) := by
  induction fields generalizing count with
  | nil => cases count <;> rfl
  | cons field fields ih =>
    cases count with
    | zero => rfl
    | succ count => rw [ofFields, ih, List.take_succ_cons, List.map_cons]

theorem ofDatum_deep {depth : Int} (deep : maxDepth < depth) (value : Datum) :
    ofDatum depth value = .tag "..." := by
  unfold ofDatum
  exact if_pos deep

/-- What a description says before it comes to the parts of a value. -/
theorem ofDatum_shallow {depth : Int} (shallow : ¬ maxDepth < depth) (value : Datum) :
    ofDatum depth value = match value with
      | .list [] => .list 0 none
      | .list (first :: rest) => .list (rest.length + 1) (some (ofDatum (depth + 1) first))
      | .table members => .table ((members.take 10).map fun (name, part) =>
          (name, ofDatum (depth + 1) part)) (members.length - 10)
      | scalar => whole scalar := by
  rw [ofDatum.eq_def, if_neg shallow]
  cases value with
  | list items => cases items <;> rfl
  | table members => exact congrArg (Shape.table · _) (ofFields_eq (depth + 1) 10 members)
  | _ => rfl

/-- A description is a cut of the whole shape, at the height that is left. -/
theorem ofDatum_eq_cut (height : Nat) {depth : Int} (left : (4 - depth).toNat = height)
    (value : Datum) : ofDatum depth value = (whole value).cut height := by
  induction height generalizing depth value with
  | zero =>
    have deep : maxDepth < depth := by
      unfold maxDepth
      omega
    exact ofDatum_deep deep value
  | succ height ih =>
    have shallow : ¬ maxDepth < depth := by
      unfold maxDepth
      omega
    have below : (4 - (depth + 1)).toNat = height := by omega
    rw [ofDatum_shallow shallow]
    cases value with
    | list items =>
      cases items with
      | nil => rfl
      | cons first rest =>
        simp only [whole, cut, Option.map_some]
        rw [ih below first]
    | table members =>
      simp only [whole, cut, wholeFields_eq]
      rw [← List.map_take, List.map_map]
      have same (member : String × Datum) (_ : member ∈ members.take 10) :
          (member.1, ofDatum (depth + 1) member.2) = (member.1, (whole member.2).cut height) := by
        rw [ih below]
      exact congrArg (Shape.table · _) (List.map_congr_left same)
    | _ => rfl

/-! ## Nodes and nesting -/

mutual
/-- The number of nodes of a shape, the marks for what lies too deep among them. -/
def size : Shape → Nat
  | .tag _ => 1
  | .list _ none => 1
  | .list _ (some item) => size item + 1
  | .table fields _ => sizeFields fields + 1

/-- The number of nodes of the shapes of some fields. -/
def sizeFields : List (String × Shape) → Nat
  | [] => 0
  | (_, part) :: fields => size part + sizeFields fields
end

mutual
/-- The number of lists and tables inside each other. -/
def nesting : Shape → Nat
  | .tag _ => 0
  | .list _ none => 1
  | .list _ (some item) => nesting item + 1
  | .table fields _ => nestingFields fields + 1

/-- The greatest nesting of the shapes of some fields. -/
def nestingFields : List (String × Shape) → Nat
  | [] => 0
  | (_, part) :: fields => max (nesting part) (nestingFields fields)
end

/-- The nodes of a shape of a height whose tables list ten fields and whose lists have no more. -/
def fullSize : Nat → Nat
  | 0 => 1
  | height + 1 => 10 * fullSize height + 1

theorem sizeFields_le {fields : List (String × Shape)} {bound : Nat}
    (small : ∀ field ∈ fields, field.2.size ≤ bound) :
    sizeFields fields ≤ fields.length * bound := by
  induction fields with
  | nil => exact Nat.zero_le _
  | cons field fields ih =>
    have first : field.2.size ≤ bound := small field List.mem_cons_self
    have rest := ih fun other mem => small other (List.mem_cons_of_mem field mem)
    calc sizeFields (field :: fields) = field.2.size + sizeFields fields := rfl
      _ ≤ bound + fields.length * bound := Nat.add_le_add first rest
      _ = (field :: fields).length * bound := by rw [List.length_cons, Nat.succ_mul, Nat.add_comm]

theorem nestingFields_le {fields : List (String × Shape)} {bound : Nat}
    (low : ∀ field ∈ fields, field.2.nesting ≤ bound) : nestingFields fields ≤ bound := by
  induction fields with
  | nil => exact Nat.zero_le _
  | cons field fields ih =>
    have first : field.2.nesting ≤ bound := low field List.mem_cons_self
    exact Nat.max_le.mpr ⟨first, ih fun other mem => low other (List.mem_cons_of_mem field mem)⟩

theorem size_cut_whole (height : Nat) (value : Datum) :
    ((whole value).cut height).size ≤ fullSize height := by
  induction height generalizing value with
  | zero => exact Nat.le_refl 1
  | succ height ih =>
    have one : 1 ≤ fullSize (height + 1) := Nat.succ_pos _
    cases value with
    | list items =>
      cases items with
      | nil => exact one
      | cons first rest =>
        have below := ih first
        simp only [whole, cut, Option.map_some, size, fullSize]
        omega
    | table fields =>
      have listed : ((wholeFields fields).take 10).length ≤ 10 := List.length_take_le 10 _
      have small : ∀ field ∈ ((wholeFields fields).take 10).map
          (fun (name, part) => (name, cut height part)), field.2.size ≤ fullSize height := by
        intro field mem
        obtain ⟨named, inside, rfl⟩ := List.mem_map.mp mem
        have whole' := List.mem_of_mem_take inside
        rw [wholeFields_eq] at whole'
        obtain ⟨member, -, rfl⟩ := List.mem_map.mp whole'
        exact ih member.2
      have sum := sizeFields_le small
      rw [List.length_map] at sum
      exact Nat.succ_le_succ
        (Nat.le_trans sum (Nat.mul_le_mul_right (fullSize height) listed))
    | _ => exact one

theorem nesting_cut (height : Nat) (shape : Shape) : (shape.cut height).nesting ≤ height := by
  induction height generalizing shape with
  | zero => exact Nat.le_refl 0
  | succ height ih =>
    match shape with
    | .tag _ => exact Nat.zero_le _
    | .list _ none => exact Nat.succ_pos height
    | .list _ (some item) => exact Nat.succ_le_succ (ih item)
    | .table fields _ =>
      refine Nat.succ_le_succ (nestingFields_le ?_)
      intro field mem
      obtain ⟨named, -, rfl⟩ := List.mem_map.mp mem
      exact ih named.2

/-! ## Parts at the same places -/

/-- The part of a shape that a step leads to. -/
def part? : Shape → Datum.Step → Option Shape
  | .list _ item, .item => item
  | .table fields _, .field index => fields[index]?.map Prod.snd
  | _, _ => none

/-- The part of a shape at a place. -/
def at? (shape : Shape) : List Datum.Step → Option Shape
  | [] => some shape
  | step :: place => (part? shape step).bind (at? · place)

theorem part_ofDatum {depth : Int} {value : Datum} {step : Datum.Step} {shape : Shape}
    (h : (ofDatum depth value).part? step = some shape) :
    ∃ part, value.part? step = some part ∧ shape = ofDatum (depth + 1) part := by
  by_cases deep : maxDepth < depth
  · rw [ofDatum_deep deep] at h
    cases h
  rw [ofDatum_shallow deep] at h
  cases value with
  | list items =>
    cases items with
    | nil => cases step <;> cases h
    | cons first rest =>
      cases step with
      | item => exact ⟨first, rfl, (Option.some.inj h).symm⟩
      | field index => cases h
  | table members =>
    cases step with
    | item => cases h
    | field index =>
      simp only [part?, List.getElem?_map, Option.map_map] at h
      obtain ⟨member, found, rfl⟩ := Option.map_eq_some_iff.mp h
      have listed : members[index]? = some member := by
        rw [List.getElem?_take] at found
        exact (Option.ite_none_right_eq_some.mp found).2
      exact ⟨member.2, by rw [Datum.part?, listed, Option.map_some], rfl⟩
  | _ => cases step <;> cases h

/-- A part of a description describes the part of the value at the same place. -/
theorem at_ofDatum {place : List Datum.Step} {depth : Int} {value : Datum} {shape : Shape}
    (h : (ofDatum depth value).at? place = some shape) :
    ∃ part, value.at? place = some part ∧ shape = ofDatum (depth + place.length) part := by
  induction place generalizing depth value with
  | nil =>
    refine ⟨value, rfl, ?_⟩
    rw [List.length_nil, Int.ofNat_zero, Int.add_zero]
    exact (Option.some.inj h).symm
  | cons step place ih =>
    obtain ⟨next, stepped, h⟩ := Option.bind_eq_some_iff.mp h
    obtain ⟨part, there, rfl⟩ := part_ofDatum stepped
    obtain ⟨last, found, rfl⟩ := ih h
    refine ⟨last, ?_, ?_⟩
    · rw [Datum.at?, there]
      exact found
    · congr 1
      rw [List.length_cons]
      omega

/-- A description that is a table describes a table, and tells ten names of it, or all if there are
fewer, and the number of the others. -/
theorem eq_table_of_ofDatum {depth : Int} {value : Datum} {fields : List (String × Shape)}
    {others : Nat} (h : ofDatum depth value = .table fields others) :
    ∃ members, value = .table members ∧
      Table.names fields = (Table.names members).take (min 10 members.length) ∧
      fields.length + others = members.length := by
  by_cases deep : maxDepth < depth
  · rw [ofDatum_deep deep] at h
    cases h
  rw [ofDatum_shallow deep] at h
  cases value with
  | table members =>
    obtain ⟨rfl, rfl⟩ := Shape.table.inj h
    refine ⟨members, rfl, ?_, ?_⟩
    · have names : Table.names ((members.take 10).map
          fun (name, part) => (name, ofDatum (depth + 1) part)) =
            (Table.names members).take 10 := by
        rw [Table.names, List.map_map, Table.names, List.map_take]
        rfl
      rw [names, List.take_eq_take_min, Table.names, List.length_map]
    · rw [List.length_map, List.length_take]
      omega
  | list items => cases items <;> cases h
  | _ => cases h

/-- A description starting at any depth is the cut of the whole shape at the height that is left
above depth four. So what lies deeper makes no difference. -/
theorem described_by_cut :
    (∀ (value : Datum) (depth : Nat), ofDatum depth value = (whole value).cut (4 - depth)) ∧
      ∀ first second : Datum, (whole first).cut 4 = (whole second).cut 4 →
        ofDatum 0 first = ofDatum 0 second := by
  have cuts (value : Datum) (depth : Nat) : ofDatum depth value = (whole value).cut (4 - depth) :=
    ofDatum_eq_cut (4 - depth) (by omega) value
  refine ⟨cuts, ?_⟩
  intro first second same
  calc ofDatum 0 first = (whole first).cut 4 := cuts first 0
    _ = (whole second).cut 4 := same
    _ = ofDatum 0 second := (cuts second 0).symm

/-- Tables inside each other, so many, around a truth value. -/
def nested : Nat → Datum
  | 0 => .bool true
  | levels + 1 => .table [("child", nested levels)]

theorem described_by_cut_nested :
    (whole (nested 6)).size = 7 ∧ (whole (nested 9)).size = 10 ∧
      (whole (nested 6)).cut 4 = (whole (nested 9)).cut 4 ∧
      ofDatum 0 (nested 6) = ofDatum 0 (nested 9) :=
  ⟨rfl, rfl, rfl, described_by_cut.2 (nested 6) (nested 9) rfl⟩

/-- No description has more than 11111 nodes or is nested more than four deep. Each of its tables
describes a table at the same place: it lists the first ten names, or all if there are fewer, and
counts the others. -/
theorem description_bounded (value : Datum) :
    (ofDatum 0 value).size ≤ 11111 ∧ (ofDatum 0 value).nesting ≤ 4 ∧
      ∀ place fields others, (ofDatum 0 value).at? place = some (.table fields others) →
        ∃ members, value.at? place = some (.table members) ∧
          Table.names fields = (Table.names members).take (min 10 members.length) ∧
          fields.length + others = members.length := by
  have cuts : ofDatum 0 value = (whole value).cut 4 := ofDatum_eq_cut 4 rfl value
  refine ⟨?_, ?_, ?_⟩
  · rw [cuts]
    exact size_cut_whole 4 value
  · rw [cuts]
    exact nesting_cut 4 (whole value)
  · intro place fields others h
    obtain ⟨part, found, describes⟩ := at_ofDatum h
    obtain ⟨members, rfl, names, count⟩ := eq_table_of_ofDatum describes.symm
    exact ⟨members, found, names, count⟩

/-- A table of twelve fields. -/
def months : List (String × Datum) :=
  ["jan", "feb", "mar", "apr", "may", "jun", "jul", "aug", "sep", "oct", "nov", "dec"].map
    fun name => (name, .list [.int 1])

theorem description_bounded_months :
    (∃ fields, (ofDatum 0 (.list [.table months])).at? [.item] = some (.table fields 2) ∧
      Table.names fields =
        ["jan", "feb", "mar", "apr", "may", "jun", "jul", "aug", "sep", "oct"]) ∧
      (ofDatum 0 (.list [.table months])).nesting = 3 := by
  refine ⟨?_, rfl⟩
  obtain ⟨fields, found⟩ : ∃ fields,
      (ofDatum 0 (.list [.table months])).at? [.item] = some (.table fields 2) := ⟨_, rfl⟩
  obtain ⟨-, -, tables⟩ := description_bounded (.list [.table months])
  obtain ⟨members, there, names, -⟩ := tables [.item] fields 2 found
  cases there
  exact ⟨fields, found, names⟩

end Json.Shape

end Synopsis
