import Synopsis.Proofs.Ecma.Walk

/-!
# Exports and declarations

An export of a declaration is told by the export statement, and the declaration by a node below it.
The two are found by different readers of the tree; here they are shown to agree on names. Default
exports and exports of listed names are not spoken of: they need no declaration.
-/

namespace Synopsis.Ecma

namespace Tree

mutual
theorem nodes_subset {t u : Tree} (h : u ∈ nodes t) : ∀ v ∈ nodes u, v ∈ nodes t := by
  cases t with
  | node head children =>
    rw [nodes] at h
    rcases List.mem_cons.mp h with rfl | h
    · exact fun v hv => hv
    · intro v hv
      rw [nodes]
      exact List.mem_cons_of_mem _ (nodesOf_subset h v hv)

theorem nodesOf_subset {ts : List Tree} {u : Tree} (h : u ∈ nodesOf ts) :
    ∀ v ∈ nodes u, v ∈ nodesOf ts := by
  cases ts with
  | nil => cases h
  | cons t ts =>
    intro v hv
    rw [nodesOf, List.mem_append] at h ⊢
    rcases h with h | h
    · exact Or.inl (nodes_subset h v hv)
    · exact Or.inr (nodesOf_subset h v hv)
end

theorem mem_nodes_self (t : Tree) : t ∈ nodes t := by
  cases t with
  | node head children =>
    rw [nodes]
    exact List.mem_cons_self

theorem mem_nodesOf {ts : List Tree} {t : Tree} (h : t ∈ ts) : t ∈ nodesOf ts := by
  induction ts with
  | nil => cases h
  | cons first rest ih =>
    rw [nodesOf, List.mem_append]
    rcases List.mem_cons.mp h with rfl | h
    · exact Or.inl (mem_nodes_self t)
    · exact Or.inr (ih h)

/-- The walk reaches the children of every node that it reaches. -/
theorem mem_nodes_of_mem_children {t u root : Tree} (ht : t ∈ nodes root) (hu : u ∈ t.children) :
    u ∈ nodes root := by
  apply nodes_subset ht
  cases t with
  | node head children =>
    rw [nodes]
    exact List.mem_cons_of_mem _ (mem_nodesOf hu)

theorem mem_children_of_field? {t u : Tree} {name : String} (h : t.field? name = some u) :
    u ∈ t.children :=
  List.mem_of_find?_eq_some h

end Tree

namespace Outline

open Synopsis.Ecma.Tree

/-! ## Gathering -/

section Gathering

variable {events : List Event}

theorem mem_gather_exports {e : ExportRecord} :
    e ∈ (gather events).exports ↔ .exports e ∈ events := by
  simp only [gather, List.mem_filterMap]
  constructor
  · rintro ⟨event, hmem, h⟩
    cases event <;> cases h
    exact hmem
  · intro h
    exact ⟨_, h, rfl⟩

theorem isExported_iff {name : String} :
    ((gather events).exports.any (·.name == name)) = true ↔
      ∃ e, .exports e ∈ events ∧ e.name = name := by
  simp only [List.any_eq_true, mem_gather_exports, beq_iff_eq]

/-- A declared function is gathered, and marked when its name is exported. -/
theorem exists_function {r : FunctionRecord} {e : ExportRecord}
    (declared : .declaresFunction r ∈ events) (exported : .exports e ∈ events)
    (same : r.name = e.name) :
    ∃ f ∈ (gather events).functions, f.name = e.name ∧ f.exported = true := by
  refine ⟨{ r with exported := (gather events).exports.any (·.name == r.name) }, ?_, same,
    isExported_iff.mpr ⟨e, exported, same.symm⟩⟩
  exact List.mem_filterMap.mpr ⟨_, declared, rfl⟩

/-- A declared class is gathered, and marked when its name is exported. -/
theorem exists_class {r : ClassRecord} {e : ExportRecord}
    (declared : .declaresClass r ∈ events) (exported : .exports e ∈ events)
    (same : r.name = e.name) :
    ∃ c ∈ (gather events).classes, c.name = e.name ∧ c.exported = true := by
  refine ⟨{ r with exported := (gather events).exports.any (·.name == r.name) }, ?_, same,
    isExported_iff.mpr ⟨e, exported, same.symm⟩⟩
  exact List.mem_filterMap.mpr ⟨_, declared, rfl⟩

theorem mem_gather_variables {v : VariableRecord} :
    v ∈ (gather events).«variables» ↔ .declaresVariable v ∈ events := by
  simp only [gather, List.mem_filterMap]
  constructor
  · rintro ⟨event, hmem, h⟩
    cases event <;> cases h
    exact hmem
  · intro h
    exact ⟨_, h, rfl⟩

end Gathering

/-! ## Events of nodes -/

section Nodes

variable {source : Source} {root t : Tree}

theorem mem_events {event : Event} :
    event ∈ events source root ↔ ∃ t ∈ root.nodes, event ∈ nodeEvents source t := by
  rw [events, walk_eq_nodes, List.mem_flatMap]

theorem mem_events_of_node {told : List Event} {event : Event} (visited : t ∈ root.nodes)
    (here : nodeEvents source t = told) (h : event ∈ told) : event ∈ events source root :=
  mem_events.mpr ⟨t, visited, here ▸ h⟩

/-- A declarator declares a function or a variable, under its name. -/
theorem declaratorEvent_cases {line : Nat} {word : Option String} {d name : Tree}
    (found : d.field? "name" = some name) (identifier : name.kind = "identifier") :
    (∃ r : FunctionRecord, r.name = source.text name ∧
      declaratorEvent source line word d = some (.declaresFunction r)) ∨
    declaratorEvent source line word d =
      some (.declaresVariable ⟨source.text name, line, word⟩) := by
  have named : (d.field? "name").filter (·.kind == "identifier") = some name := by
    rw [found, Option.filter_some, identifier]
    rfl
  rw [declaratorEvent, named]
  cases (d.field? "value").filter fun value => functionValues.contains value.kind with
  | some value => exact Or.inl ⟨_, rfl, rfl⟩
  | none => exact Or.inr rfl

theorem exports_notMem_declarationEvents {e : ExportRecord} :
    .exports e ∉ declarationEvents source t := by
  intro h
  obtain ⟨d, -, h⟩ := List.mem_filterMap.mp h
  obtain ⟨name, -, h⟩ := Option.map_eq_some_iff.mp h
  split at h <;> cases h

/-- Only export statements tell exports. -/
theorem exportEvents_of_nodeEvents {e : ExportRecord} (h : .exports e ∈ nodeEvents source t) :
    .exports e ∈ exportEvents source t := by
  unfold nodeEvents at h
  split at h
  · simp [commentEvents] at h
  · unfold importEvents at h
    split at h <;> simp at h
  · exact h
  · simp [functionEvents] at h
  · simp [functionEvents] at h
  · simp [classEvents] at h
  · simp [classEvents] at h
  · exact absurd h exports_notMem_declarationEvents
  · exact absurd h exports_notMem_declarationEvents
  · cases h

/-- An export that is neither default nor listed is one of the declaration in the statement. -/
theorem declarationExports_of_exportEvents {e : ExportRecord}
    (h : .exports e ∈ exportEvents source t) (notDefault : e.kind ≠ .default)
    (notListed : e.kind ≠ .reexport) :
    ∃ d, t.field? "declaration" = some d ∧ e ∈ declarationExports source t.line d := by
  unfold exportEvents at h
  split at h
  · rcases List.mem_singleton.mp h with ⟨⟩
    exact absurd rfl notDefault
  · obtain ⟨e', mem, ⟨⟩⟩ := List.mem_map.mp h
    rcases List.mem_append.mp mem with mem | mem
    · cases found : t.field? "declaration" with
      | none => rw [found] at mem; cases mem
      | some d => rw [found] at mem; exact ⟨d, rfl, mem⟩
    · obtain ⟨clause, -, mem⟩ := List.mem_flatMap.mp mem
      obtain ⟨spec, -, mem⟩ := List.mem_filterMap.mp mem
      split at mem
      · cases mem
      · obtain ⟨name, -, rfl⟩ := Option.map_eq_some_iff.mp mem
        exact absurd rfl notListed

/-- What the exports of a declaration are, by the kind of the declaration. -/
theorem mem_declarationExports {line : Nat} {d : Tree} {e : ExportRecord}
    (h : e ∈ declarationExports source line d) :
    (e.kind = .function ∧ d.kind ∈ functionDeclarations ∧ e.name = nameOf source d) ∨
    (e.kind = .class ∧ d.kind ∈ classDeclarations ∧ e.name = nameOf source d) ∨
    (e.kind = .variable ∧ d.kind ∈ variableDeclarations ∧
      ∃ declarator ∈ declarators d, ∃ name, declarator.field? "name" = some name ∧
        name.kind = "identifier" ∧ e.name = source.text name) := by
  unfold declarationExports at h
  split at h
  case isTrue isFunction =>
    rcases List.mem_singleton.mp h with rfl
    exact Or.inl ⟨rfl, List.contains_iff_mem.mp isFunction, rfl⟩
  case isFalse =>
    split at h
    case isTrue isClass =>
      rcases List.mem_singleton.mp h with rfl
      exact Or.inr (Or.inl ⟨rfl, List.contains_iff_mem.mp isClass, rfl⟩)
    case isFalse =>
      split at h
      case isTrue isVariable =>
        obtain ⟨declarator, mem, h⟩ := List.mem_filterMap.mp h
        obtain ⟨name, found, rfl⟩ := Option.map_eq_some_iff.mp h
        obtain ⟨found, identifier⟩ := Option.filter_eq_some_iff.mp found
        exact Or.inr (Or.inr ⟨rfl, List.contains_iff_mem.mp isVariable, declarator, mem, name,
          found, beq_iff_eq.mp identifier, rfl⟩)
      case isFalse => cases h

theorem functionEvents_mem (visited : t ∈ root.nodes) (h : t.kind ∈ functionDeclarations) :
    ∃ r : FunctionRecord, r.name = nameOf source t ∧
      .declaresFunction r ∈ events source root := by
  simp only [functionDeclarations, List.mem_cons, List.not_mem_nil, or_false] at h
  have here : nodeEvents source t = functionEvents source t := by
    rcases h with h | h <;> simp [nodeEvents, h]
  refine ⟨_, ?_, mem_events_of_node visited here List.mem_cons_self⟩
  rfl

theorem classEvents_mem (visited : t ∈ root.nodes) (h : t.kind ∈ classDeclarations) :
    ∃ r : ClassRecord, r.name = nameOf source t ∧ .declaresClass r ∈ events source root := by
  simp only [classDeclarations, List.mem_cons, List.not_mem_nil, or_false] at h
  have here : nodeEvents source t = classEvents source t := by
    rcases h with h | h <;> simp [nodeEvents, h]
  refine ⟨_, ?_, mem_events_of_node visited here List.mem_cons_self⟩
  rfl

theorem declarationEvents_mem (visited : t ∈ root.nodes) (h : t.kind ∈ variableDeclarations)
    {d : Tree} (declared : d ∈ declarators t) {event : Event}
    (tells : declaratorEvent source t.line (declaringWord source t) d = some event) :
    event ∈ events source root := by
  simp only [variableDeclarations, List.mem_cons, List.not_mem_nil, or_false] at h
  have here : nodeEvents source t = declarationEvents source t := by
    rcases h with h | h <;> simp [nodeEvents, h]
  exact mem_events_of_node visited here (List.mem_filterMap.mpr ⟨d, declared, tells⟩)

/-! ## Agreement -/

/-- A node that the walk visits declares what it would export. -/
theorem declaration_of_export {e : ExportRecord} (h : .exports e ∈ events source root)
    (notDefault : e.kind ≠ .default) (notListed : e.kind ≠ .reexport) :
    ∃ line, ∃ d ∈ root.nodes, e ∈ declarationExports source line d := by
  obtain ⟨t, ht, h⟩ := mem_events.mp h
  obtain ⟨d, found, mem⟩ :=
    declarationExports_of_exportEvents (exportEvents_of_nodeEvents h) notDefault notListed
  exact ⟨t.line, d, mem_nodes_of_mem_children ht (mem_children_of_field? found), mem⟩

/-- An exported function, class or variable is declared under its name, and what is declared
as a function or a class is marked as exported. -/
theorem exports_declared {e : ExportRecord} (h : e ∈ (facts source root).exports) :
    (e.kind = .function →
      ∃ f ∈ (facts source root).functions, f.name = e.name ∧ f.exported = true) ∧
    (e.kind = .class →
      ∃ c ∈ (facts source root).classes, c.name = e.name ∧ c.exported = true) ∧
    (e.kind = .variable →
      (∃ v ∈ (facts source root).«variables», v.name = e.name) ∨
      ∃ f ∈ (facts source root).functions, f.name = e.name ∧ f.exported = true) := by
  have told : .exports e ∈ events source root := mem_gather_exports.mp h
  refine ⟨fun kind => ?_, fun kind => ?_, fun kind => ?_⟩
  all_goals
    obtain ⟨line, d, visited, mem⟩ :=
      declaration_of_export told (by rw [kind]; decide) (by rw [kind]; decide)
    have shape := mem_declarationExports mem
    simp only [kind, reduceCtorEq, false_and, true_and, false_or, or_false] at shape
  · obtain ⟨isFunction, same⟩ := shape
    obtain ⟨r, named, declared⟩ := functionEvents_mem visited isFunction
    exact exists_function declared told (named.trans same.symm)
  · obtain ⟨isClass, same⟩ := shape
    obtain ⟨r, named, declared⟩ := classEvents_mem visited isClass
    exact exists_class declared told (named.trans same.symm)
  · obtain ⟨isVariable, declarator, declared, name, found, identifier, same⟩ := shape
    rcases declaratorEvent_cases found identifier with ⟨r, named, tells⟩ | tells
    · have event := declarationEvents_mem visited isVariable declared tells
      exact Or.inr (exists_function event told (named.trans same.symm))
    · have event := declarationEvents_mem visited isVariable declared tells
      exact Or.inl ⟨_, mem_gather_variables.mpr event, same.symm⟩

end Nodes

/-- The text `export const run = () => 1`. -/
def exportedArrow : Source := .ofText "export const run = () => 1"

/-- The tree of the exported arrow function, without its tokens. -/
def exportedArrowTree : Tree :=
  let node kind field start stop := Tree.node { kind, field, span := ⟨start, stop, 0, start⟩ }
  node "program" none 0 26 [node "export_statement" none 0 26 [
    node "lexical_declaration" (some "declaration") 7 26 [
      node "variable_declarator" none 13 26 [
        node "identifier" (some "name") 13 16 [],
        node "arrow_function" (some "value") 19 26 []]]]]

theorem exportedArrow_declared :
    ((⟨.variable, "run", 1⟩ : ExportRecord) ∈
      (facts exportedArrow exportedArrowTree).exports) ∧
    ((∃ v ∈ (facts exportedArrow exportedArrowTree).«variables», v.name = "run") ∨
      ∃ f ∈ (facts exportedArrow exportedArrowTree).functions,
        f.name = "run" ∧ f.exported = true) := by
  have exported : (⟨.variable, "run", 1⟩ : ExportRecord) ∈
      (facts exportedArrow exportedArrowTree).exports := by decide +kernel
  exact ⟨exported, (exports_declared exported).2.2 rfl⟩

end Outline

end Synopsis.Ecma
