import Synopsis.Proofs.Ecma.Exports

/-!
# Gathering events

Events are gathered in one pass, which puts each of them at the end of the list of its kind, and
functions and classes are marked when it is over. So an export may stand before or after what it
exports, the marks that events come with count for nothing, and so does the way in which events of
different kinds alternate. Where the events come from is of no concern here.
-/

namespace Synopsis

namespace Ecma.Event

/-- The kinds of events, one for each list of facts. -/
inductive Kind where
  | imports | exports | functions | classes | «variables» | comments
  deriving DecidableEq

/-- The kind of an event. -/
def kind : Event → Kind
  | .imports _ => .imports
  | .exports _ => .exports
  | .declaresFunction _ => .functions
  | .declaresClass _ => .classes
  | .declaresVariable _ => .«variables»
  | .comments _ => .comments

/-- An event with a mark that tells whether its name is exported. -/
def mark (isExported : String → Bool) : Event → Event
  | .declaresFunction r => .declaresFunction { r with exported := isExported r.name }
  | .declaresClass r => .declaresClass { r with exported := isExported r.name }
  | event => event

/-- An event that is not marked as exported. -/
def unmarked : Event → Event := mark fun _ => false

theorem mark_comp_unmarked (isExported : String → Bool) :
    mark isExported ∘ unmarked = mark isExported := by
  funext event
  cases event <;> rfl

end Ecma.Event

namespace Facts

open Ecma

/-- The facts of a kind, as the events that tell them. -/
def events (facts : Facts) : Event.Kind → List Event
  | .imports => facts.imports.map .imports
  | .exports => facts.exports.map .exports
  | .functions => facts.functions.map .declaresFunction
  | .classes => facts.classes.map .declaresClass
  | .«variables» => facts.«variables».map .declaresVariable
  | .comments => facts.comments.map .comments

/-- Number of facts. -/
def size (facts : Facts) : Nat :=
  facts.imports.length + facts.exports.length + facts.functions.length + facts.classes.length +
    facts.«variables».length + facts.comments.length

/-! ## The pass -/

/-- One turn of the pass: an event is put at the end of the list of its kind. -/
def add (facts : Facts) : Event → Facts
  | .imports r => { facts with imports := facts.imports ++ [r] }
  | .exports r => { facts with exports := facts.exports ++ [r] }
  | .declaresFunction r => { facts with functions := facts.functions ++ [r] }
  | .declaresClass r => { facts with classes := facts.classes ++ [r] }
  | .declaresVariable r => { facts with «variables» := facts.«variables» ++ [r] }
  | .comments r => { facts with comments := facts.comments ++ [r] }

theorem events_add (facts : Facts) (event : Event) (kind : Event.Kind) :
    (facts.add event).events kind = facts.events kind ++ [event].filter (·.kind = kind) := by
  cases event <;> cases kind <;> simp [add, events, Event.kind]

theorem size_add (facts : Facts) (event : Event) : (facts.add event).size = facts.size + 1 := by
  cases event <;> simp only [add, size, List.length_append, List.length_singleton] <;> omega

/-- After the pass each list has grown by the events of its kind, in their order. -/
theorem events_foldl_add (told : List Event) (facts : Facts) (kind : Event.Kind) :
    (told.foldl add facts).events kind = facts.events kind ++ told.filter (·.kind = kind) := by
  induction told generalizing facts with
  | nil => exact (List.append_nil _).symm
  | cons event rest ih =>
    rw [List.foldl_cons, ih, events_add, List.append_assoc, ← List.filter_append,
      List.singleton_append]

theorem size_foldl_add (told : List Event) (facts : Facts) :
    (told.foldl add facts).size = facts.size + told.length := by
  induction told generalizing facts with
  | nil => rfl
  | cons event rest ih =>
    rw [List.foldl_cons, ih, size_add, List.length_cons]
    omega

/-! ## Marks -/

/-- Whether an export has the name. -/
def isExported (facts : Facts) (name : String) : Bool := facts.exports.any (·.name == name)

/-- The facts with exactly those functions and classes marked whose name is exported. -/
def marked (facts : Facts) : Facts :=
  { facts with
    functions := facts.functions.map fun r => { r with exported := facts.isExported r.name }
    classes := facts.classes.map fun r => { r with exported := facts.isExported r.name } }

theorem size_marked (facts : Facts) : facts.marked.size = facts.size := by
  simp [marked, size]

theorem events_marked (facts : Facts) (kind : Event.Kind) :
    facts.marked.events kind = (facts.events kind).map (Event.mark facts.isExported) := by
  cases kind <;> simp [marked, events, Event.mark, Function.comp_def]

/-- Facts are told apart by their events. -/
theorem eq_of_events {facts others : Facts}
    (same : ∀ kind, facts.events kind = others.events kind) : facts = others := by
  have back {α : Type} {tell : α → Event} (inj : Function.Injective tell) {rs rs' : List α}
      (alike : rs.map tell = rs'.map tell) : rs = rs' := List.map_injective_iff.mpr inj alike
  have imports : facts.imports = others.imports :=
    back (fun _ _ => Event.imports.inj) (same .imports)
  have exports : facts.exports = others.exports :=
    back (fun _ _ => Event.exports.inj) (same .exports)
  have functions : facts.functions = others.functions :=
    back (fun _ _ => Event.declaresFunction.inj) (same .functions)
  have classes : facts.classes = others.classes :=
    back (fun _ _ => Event.declaresClass.inj) (same .classes)
  have «variables» : facts.«variables» = others.«variables» :=
    back (fun _ _ => Event.declaresVariable.inj) (same .«variables»)
  have comments : facts.comments = others.comments :=
    back (fun _ _ => Event.comments.inj) (same .comments)
  cases facts
  cases others
  simp only [mk.injEq]
  exact ⟨imports, exports, functions, classes, «variables», comments⟩

/-- Marking forgets the marks that were there. -/
theorem marked_congr {facts others : Facts} (same : ∀ kind,
    (facts.events kind).map Event.unmarked = (others.events kind).map Event.unmarked) :
    facts.marked = others.marked := by
  have exports : facts.exports = others.exports := by
    have alike := same .exports
    rw [events, events, List.map_map, List.map_map] at alike
    exact List.map_injective_iff.mpr (fun _ _ => Event.exports.inj) alike
  have names : facts.isExported = others.isExported := by
    funext name
    rw [isExported, isExported, exports]
  refine eq_of_events fun kind => ?_
  calc facts.marked.events kind
      = ((facts.events kind).map Event.unmarked).map (Event.mark facts.isExported) := by
        rw [events_marked, List.map_map, Event.mark_comp_unmarked]
    _ = ((others.events kind).map Event.unmarked).map (Event.mark others.isExported) := by
        rw [same, names]
    _ = others.marked.events kind := by
        rw [events_marked, List.map_map, Event.mark_comp_unmarked]

/-- What the pass adds to each list. -/
theorem foldl_add (told : List Event) (facts : Facts) : told.foldl add facts =
    { imports := facts.imports ++ told.filterMap fun | .imports r => some r | _ => none
      exports := facts.exports ++ told.filterMap fun | .exports r => some r | _ => none
      functions := facts.functions ++ told.filterMap fun
        | .declaresFunction r => some r
        | _ => none
      classes := facts.classes ++ told.filterMap fun | .declaresClass r => some r | _ => none
      «variables» := facts.«variables» ++ told.filterMap fun
        | .declaresVariable r => some r
        | _ => none
      comments := facts.comments ++ told.filterMap fun | .comments r => some r | _ => none } := by
  induction told generalizing facts with
  | nil => simp
  | cons event rest ih =>
    rw [List.foldl_cons, ih]
    cases event <;> simp [add]

theorem gather_eq_marked (told : List Event) :
    Outline.gather told = (told.foldl add {}).marked := by
  rw [foldl_add]
  simp only [Outline.gather, marked, List.nil_append, List.map_filterMap]
  congr 2 <;> funext event <;> cases event <;> rfl

theorem size_gather (told : List Event) : (Outline.gather told).size = told.length := by
  rw [gather_eq_marked, size_marked, size_foldl_add]
  exact Nat.zero_add _

/-- Up to their marks, the facts of a kind are the events of that kind. -/
theorem unmarked_events_gather (told : List Event) (kind : Event.Kind) :
    ((Outline.gather told).events kind).map Event.unmarked =
      (told.filter (·.kind = kind)).map Event.unmarked := by
  have started : ({} : Facts).events kind = [] := by cases kind <;> rfl
  rw [gather_eq_marked, events_marked, events_foldl_add, started, List.nil_append, List.map_map]
  refine List.map_congr_left fun event _ => ?_
  cases event <;> rfl

theorem gather_eq_iff {told others : List Event} :
    Outline.gather told = Outline.gather others ↔
      ∀ kind, (told.filter (·.kind = kind)).map Event.unmarked =
        (others.filter (·.kind = kind)).map Event.unmarked := by
  constructor
  · intro same kind
    rw [← unmarked_events_gather, same, unmarked_events_gather]
  · intro same
    rw [gather_eq_marked told, gather_eq_marked others]
    refine marked_congr fun kind => ?_
    rw [events_foldl_add, events_foldl_add, List.map_append, List.map_append, same]

end Facts

namespace Ecma.Outline

variable {events : List Event}

theorem exported_function_iff {f : FunctionRecord} (h : f ∈ (gather events).functions) :
    f.exported = true ↔ ∃ e, .exports e ∈ events ∧ e.name = f.name := by
  obtain ⟨event, -, recorded⟩ := List.mem_filterMap.mp h
  cases event <;> cases recorded
  exact isExported_iff

theorem exported_class_iff {c : ClassRecord} (h : c ∈ (gather events).classes) :
    c.exported = true ↔ ∃ e, .exports e ∈ events ∧ e.name = c.name := by
  obtain ⟨event, -, recorded⟩ := List.mem_filterMap.mp h
  cases event <;> cases recorded
  exact isExported_iff

/-- Events are gathered in one pass, after which functions and classes are marked. Each list then
holds the events of its kind in their order, and no event is lost. A function or a class is marked
exactly if an export, wherever it stands, has its name. Two lists of events give the same facts
exactly if they agree on the events of every kind, up to the marks. -/
theorem gathered_by_kind (events : List Event) :
    gather events = (events.foldl Facts.add {}).marked ∧
      (∀ kind, ((gather events).events kind).map Event.unmarked =
        (events.filter (·.kind = kind)).map Event.unmarked) ∧
      (gather events).size = events.length ∧
      (∀ f ∈ (gather events).functions,
        f.exported = true ↔ ∃ e, .exports e ∈ events ∧ e.name = f.name) ∧
      (∀ c ∈ (gather events).classes,
        c.exported = true ↔ ∃ e, .exports e ∈ events ∧ e.name = c.name) ∧
      ∀ others, gather events = gather others ↔
        ∀ kind, (events.filter (·.kind = kind)).map Event.unmarked =
          (others.filter (·.kind = kind)).map Event.unmarked :=
  ⟨Facts.gather_eq_marked events, Facts.unmarked_events_gather events, Facts.size_gather events,
    fun _ => exported_function_iff, fun _ => exported_class_iff, fun _ => Facts.gather_eq_iff⟩

/-- Events with an export after the function that it exports, and a function with a stale mark. -/
def lateExport : List Event :=
  [.declaresFunction { name := "run", params := [], line := 1 },
    .comments ⟨.line, "helper", 20, 29⟩,
    .declaresFunction { name := "help", params := [], line := 3, exported := true },
    .exports ⟨.reexport, "run", 4⟩]

/-- The same events in another order, with other marks. -/
def earlyExport : List Event :=
  [.exports ⟨.reexport, "run", 4⟩,
    .declaresFunction { name := "run", params := [], line := 1 },
    .declaresFunction { name := "help", params := [], line := 3 },
    .comments ⟨.line, "helper", 20, 29⟩]

theorem gathered_by_kind_lateExport :
    (∃ f ∈ (gather lateExport).functions, f.name = "run" ∧ f.exported = true) ∧
      (∃ f ∈ (gather lateExport).functions, f.name = "help" ∧ f.exported ≠ true) ∧
      gather lateExport = gather earlyExport := by
  obtain ⟨-, -, -, marks, -, same⟩ := gathered_by_kind lateExport
  have run : (⟨"run", [], 1, false, false, false, false, true⟩ : FunctionRecord) ∈
      (gather lateExport).functions := by decide
  have help : (⟨"help", [], 3, false, false, false, false, false⟩ : FunctionRecord) ∈
      (gather lateExport).functions := by decide
  refine ⟨⟨_, run, rfl, (marks _ run).mpr ⟨⟨.reexport, "run", 4⟩, by decide, rfl⟩⟩,
    ⟨_, help, rfl, Bool.false_ne_true⟩, (same earlyExport).mpr fun kind => ?_⟩
  cases kind <;> decide

end Ecma.Outline

end Synopsis
