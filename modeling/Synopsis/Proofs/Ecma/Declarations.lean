import Mathlib.Data.List.Forall2
import Mathlib.Data.List.Nodup
import Mathlib.Data.List.Sort
import Synopsis.Proofs.Ecma.Walk

/-!
# Declarations and their records

Every declaration of a tree is recorded once. Declarations are told apart by their places, since two
of them may look the same. Records stand in the order in which the walk takes up their declarations:
the declarators of one declaration come together when it is reached, before anything inside of them.
So what is declared inside of a declarator is overtaken by the later declarators, and without such a
pair the records stand in pre-order. Imports and exports are not spoken of.
-/

namespace Synopsis.Ecma.Outline

open Synopsis.Ecma.Tree

/-! ## What is to be recorded -/

/-- A declarator at a place: a named child of a declaration, with an identifier for a name. -/
structure DeclaratorAt (root : Tree) (p : Place) (declaration d name : Tree) : Prop where
  child : ∃ q i, p = q ++ [i] ∧ root.at? q = some declaration ∧ declaration.children[i]? = some d
  declares : declaration.kind ∈ variableDeclarations
  isNamed : d.head.named = true
  isDeclarator : d.kind = "variable_declarator"
  named : d.field? "name" = some name
  identifier : name.kind = "identifier"

/-- Some declarator stands at the place. -/
def IsDeclarator (root : Tree) (p : Place) : Prop :=
  ∃ declaration d name, DeclaratorAt root p declaration d name

/-- A function or a variable is declared at the place. -/
def DeclaresAt (root : Tree) (p : Place) : Prop :=
  (∃ t, root.at? p = some t ∧ t.kind ∈ functionDeclarations) ∨ IsDeclarator root p

/-- The record of the function or of the variable that is declared at a place. -/
inductive RecordAt (source : Source) (root : Tree) (p : Place) :
    FunctionRecord ⊕ VariableRecord → Prop where
  | function {t : Tree} {f : FunctionRecord} :
      root.at? p = some t → t.kind ∈ functionDeclarations → f.name = nameOf source t →
      f.params = paramNames source t → f.line = t.line → RecordAt source root p (.inl f)
  /-- A declarator whose value is a function is no variable. -/
  | functionValue {declaration d name value : Tree} {f : FunctionRecord} :
      DeclaratorAt root p declaration d name → d.field? "value" = some value →
      value.kind ∈ functionValues → f.name = source.text name →
      f.params = paramNames source value → f.line = declaration.line →
      RecordAt source root p (.inl f)
  | «variable» {declaration d name : Tree} {v : VariableRecord} :
      DeclaratorAt root p declaration d name →
      (∀ value, d.field? "value" = some value → value.kind ∉ functionValues) →
      v.name = source.text name → v.line = declaration.line → RecordAt source root p (.inr v)

/-- A method at a place and its record. -/
def MethodAt (source : Source) (root : Tree) (p : Place) (r : MethodRecord) : Prop :=
  ∃ t, root.at? p = some t ∧ t.kind = "method_definition" ∧ r = methodRecord source t

/-- A class at a place, with the places of the methods that are counted, and its record. -/
def ClassAt (source : Source) (root : Tree) (entry : Place × List Place) (c : ClassRecord) : Prop :=
  ∃ t, root.at? entry.1 = some t ∧ c.name = nameOf source t ∧ c.line = t.line ∧
    List.Forall₂ (MethodAt source root) entry.2 c.methods

/-- A comment at a place and its record. -/
def CommentAt (root : Tree) (p : Place) (c : CommentRecord) : Prop :=
  ∃ t, root.at? p = some t ∧ c.start = t.span.start ∧ c.stop = t.span.stop

/-- There is one record for each declaration and each comment of the tree. The records of functions
and variables stand in some order, those of classes and comments in pre-order. No method is counted
twice. -/
structure Recorded (before : Place → Place → Prop) (source : Source) (root : Tree) (facts : Facts) :
    Prop where
  declarations : ∃ records : List (Place × (FunctionRecord ⊕ VariableRecord)),
    (∀ p, p ∈ records.map Prod.fst ↔ DeclaresAt root p) ∧ (records.map Prod.fst).Nodup ∧
    (records.map Prod.fst).Pairwise before ∧
    (∀ entry ∈ records, RecordAt source root entry.1 entry.2) ∧
    facts.functions = records.filterMap (·.2.getLeft?) ∧
    facts.«variables» = records.filterMap (·.2.getRight?)
  classes : ∃ records : List (Place × List Place),
    (∀ p, p ∈ records.map Prod.fst ↔ ∃ t, root.at? p = some t ∧ t.kind ∈ classDeclarations) ∧
    (records.map Prod.fst).Pairwise (· < ·) ∧
    List.Forall₂ (ClassAt source root) records facts.classes ∧
    (records.flatMap Prod.snd).Nodup
  comments : ∃ places : List Place,
    (∀ p, p ∈ places ↔ ∃ t, root.at? p = some t ∧ t.kind = "comment") ∧
    places.Pairwise (· < ·) ∧ List.Forall₂ (CommentAt root) places facts.comments

/-- The place of the statement that a declaration is part of. -/
def statementPlace (root : Tree) (p : Place) : Place :=
  if (root.at? p).any fun t => functionDeclarations.contains t.kind then p else p.dropLast

/-- The order by statements in pre-order, and from left to right within one of them. -/
def ByStatement (root : Tree) (p q : Place) : Prop :=
  statementPlace root p < statementPlace root q ∨
    statementPlace root p = statementPlace root q ∧ p < q

/-- The declarator at `q` comes later in its declaration than a child of it in which something is
declared at `p` that is no declarator of the same declaration. -/
def Overtakes (root : Tree) (q p : Place) : Prop :=
  IsDeclarator root q ∧ DeclaresAt root p ∧ ∃ declaration i inside j,
    p = declaration ++ i :: inside ∧ q = declaration ++ [j] ∧ i < j ∧
      (inside = [] → ¬ IsDeclarator root p)

/-! ## Functions and variables -/

/-- The record of a function or a variable in an event. -/
def record? (isExported : String → Bool) : Event → Option (FunctionRecord ⊕ VariableRecord)
  | .declaresFunction r => some (.inl { r with exported := isExported r.name })
  | .declaresVariable r => some (.inr r)
  | _ => none

section Gathering

variable {events : List Event}

theorem functions_gather : (gather events).functions =
    (events.filterMap (record? fun name => (gather events).exports.any (·.name == name))).filterMap
      Sum.getLeft? := by
  rw [List.filterMap_filterMap]
  refine List.filterMap_congr fun event _ => ?_
  cases event <;> rfl

theorem variables_gather (isExported : String → Bool) : (gather events).«variables» =
    (events.filterMap (record? isExported)).filterMap Sum.getRight? := by
  rw [List.filterMap_filterMap]
  refine List.filterMap_congr fun event _ => ?_
  cases event <;> rfl

end Gathering

section Declaring

variable {source : Source} {isExported : String → Bool} {root t : Tree} {p : Place}

/-- The records of what is declared at a node, each with its place. -/
def nodeRecords (source : Source) (isExported : String → Bool) (p : Place) (t : Tree) :
    List (Place × (FunctionRecord ⊕ VariableRecord)) :=
  if functionDeclarations.contains t.kind then
    ((functionEvents source t).filterMap (record? isExported)).map (p, ·)
  else if variableDeclarations.contains t.kind then
    (t.numbered "variable_declarator").filterMap fun (d, i) =>
      ((declaratorEvent source t.line (declaringWord source t) d).bind (record? isExported)).map
        (p ++ [i], ·)
  else []

/-- What the events of a node are, by the kind of the node. -/
inductive Tells (source : Source) (t : Tree) : List Event → Prop where
  | function : t.kind ∈ functionDeclarations → t.kind ∉ classDeclarations →
      t.kind ∉ variableDeclarations → t.kind ≠ "comment" → Tells source t (functionEvents source t)
  | «class» : t.kind ∉ functionDeclarations → t.kind ∈ classDeclarations →
      t.kind ∉ variableDeclarations → t.kind ≠ "comment" → Tells source t (classEvents source t)
  | «variables» : t.kind ∉ functionDeclarations → t.kind ∉ classDeclarations →
      t.kind ∈ variableDeclarations → t.kind ≠ "comment" →
      Tells source t (declarationEvents source t)
  | comment : t.kind ∉ functionDeclarations → t.kind ∉ classDeclarations →
      t.kind ∉ variableDeclarations → t.kind = "comment" → Tells source t (commentEvents source t)
  | other {events : List Event} : t.kind ∉ functionDeclarations → t.kind ∉ classDeclarations →
      t.kind ∉ variableDeclarations → t.kind ≠ "comment" →
      (∀ event ∈ events, (∃ r, event = .imports r) ∨ ∃ r, event = .exports r) →
      Tells source t events

theorem imports_of_mem_importEvents {event : Event} (h : event ∈ importEvents source t) :
    ∃ r, event = .imports r := by
  unfold importEvents at h
  split at h <;> simp at h
  exact ⟨_, h⟩

theorem exports_of_mem_exportEvents {event : Event} (h : event ∈ exportEvents source t) :
    ∃ r, event = .exports r := by
  unfold exportEvents at h
  split at h
  · exact ⟨_, List.mem_singleton.mp h⟩
  · obtain ⟨r, -, rfl⟩ := List.mem_map.mp h
    exact ⟨r, rfl⟩

theorem declares_of_mem_declarationEvents {event : Event} (h : event ∈ declarationEvents source t) :
    (∃ r, event = .declaresFunction r) ∨ ∃ r, event = .declaresVariable r := by
  obtain ⟨d, -, tells⟩ := List.mem_filterMap.mp h
  obtain ⟨name, -, rfl⟩ := Option.map_eq_some_iff.mp tells
  split
  · exact Or.inl ⟨_, rfl⟩
  · exact Or.inr ⟨_, rfl⟩

theorem tells_nodeEvents (source : Source) (t : Tree) : Tells source t (nodeEvents source t) := by
  unfold nodeEvents
  split
  case h_1 h =>
    refine .comment ?_ ?_ ?_ h <;>
      simp [h, functionDeclarations, classDeclarations, variableDeclarations]
  case h_2 h =>
    refine .other ?_ ?_ ?_ ?_ fun event mem => Or.inl (imports_of_mem_importEvents mem) <;>
      simp [h, functionDeclarations, classDeclarations, variableDeclarations]
  case h_3 h =>
    refine .other ?_ ?_ ?_ ?_ fun event mem => Or.inr (exports_of_mem_exportEvents mem) <;>
      simp [h, functionDeclarations, classDeclarations, variableDeclarations]
  case h_4 h | h_5 h =>
    refine .function ?_ ?_ ?_ ?_ <;>
      simp [h, functionDeclarations, classDeclarations, variableDeclarations]
  case h_6 h | h_7 h =>
    refine .class ?_ ?_ ?_ ?_ <;>
      simp [h, functionDeclarations, classDeclarations, variableDeclarations]
  case h_8 h | h_9 h =>
    refine .variables ?_ ?_ ?_ ?_ <;>
      simp [h, functionDeclarations, classDeclarations, variableDeclarations]
  case h_10 =>
    refine .other ?_ ?_ ?_ ?_ (by simp) <;>
      simp_all [functionDeclarations, classDeclarations, variableDeclarations]

theorem map_snd_nodeRecords (source : Source) (isExported : String → Bool) (p : Place) (t : Tree) :
    (nodeRecords source isExported p t).map Prod.snd =
      (nodeEvents source t).filterMap (record? isExported) := by
  have tells := tells_nodeEvents source t
  generalize nodeEvents source t = events at tells ⊢
  cases tells with
  | function h => simp [nodeRecords, h, Function.comp_def]
  | «class» h _ h' => simp [nodeRecords, h, h', classEvents, record?]
  | «variables» h _ h' =>
    simp only [nodeRecords, List.contains_iff_mem, h, h', if_false, if_true, declarationEvents,
      declarators, ← map_fst_numbered, List.filterMap_filterMap, List.filterMap_map,
      List.map_filterMap]
    refine List.filterMap_congr fun (d, i) _ => ?_
    rw [Option.map_map]
    exact Option.map_id'
  | comment h _ h' => simp [nodeRecords, h, h', commentEvents, record?]
  | other h _ h' _ others =>
    simp only [nodeRecords, List.contains_iff_mem, h, h', if_false, List.map_nil]
    symm
    refine List.filterMap_eq_nil_iff.mpr fun event mem => ?_
    rcases others event mem with ⟨r, rfl⟩ | ⟨r, rfl⟩ <;> rfl

/-- What a declarator is recorded as. -/
theorem recordAt_of_declaratorEvent {declaration d : Tree} {i : Nat} {word : Option String}
    {r : FunctionRecord ⊕ VariableRecord} (here : root.at? p = some declaration)
    (declares : declaration.kind ∈ variableDeclarations)
    (child : (d, i) ∈ declaration.numbered "variable_declarator")
    (h : (declaratorEvent source declaration.line word d).bind (record? isExported) = some r) :
    RecordAt source root (p ++ [i]) r := by
  obtain ⟨child, isNamed, isDeclarator⟩ := mem_numbered.mp child
  obtain ⟨event, tells, recorded⟩ := Option.bind_eq_some_iff.mp h
  obtain ⟨name, found, rfl⟩ := Option.map_eq_some_iff.mp tells
  obtain ⟨named, identifier⟩ := Option.filter_eq_some_iff.mp found
  have declarator : DeclaratorAt root (p ++ [i]) declaration d name :=
    ⟨⟨p, i, rfl, here, child⟩, declares, isNamed, isDeclarator, named, beq_iff_eq.mp identifier⟩
  split at recorded
  case h_1 value isFunction =>
    obtain ⟨held, isFunction⟩ := Option.filter_eq_some_iff.mp isFunction
    cases recorded
    exact .functionValue declarator held (List.contains_iff_mem.mp isFunction) rfl rfl rfl
  case h_2 noFunction =>
    cases recorded
    refine .variable declarator (fun value held isFunction => ?_) rfl rfl
    have := Option.filter_eq_none_iff.mp noFunction value held
    exact this (List.contains_iff_mem.mpr isFunction)

theorem statementPlace_of_function (here : root.at? p = some t)
    (h : t.kind ∈ functionDeclarations) :
    statementPlace root p = p := by
  rw [statementPlace, here, Option.any_some, if_pos (List.contains_iff_mem.mpr h)]

theorem DeclaratorAt.here {declaration d name : Tree} (h : DeclaratorAt root p declaration d name) :
    root.at? p = some d := by
  obtain ⟨q, i, rfl, above, child⟩ := h.child
  rw [at?_concat, above, Option.bind_some, child]

theorem statementPlace_of_declarator (here : root.at? p = some t)
    (h : t.kind = "variable_declarator") : statementPlace root p = p.dropLast := by
  rw [statementPlace, here, Option.any_some, if_neg (by rw [h]; decide)]

theorem declares_of_recordAt {r : FunctionRecord ⊕ VariableRecord} (h : RecordAt source root p r) :
    DeclaresAt root p := by
  cases h with
  | function here kind => exact Or.inl ⟨_, here, kind⟩
  | functionValue declarator => exact Or.inr ⟨_, _, _, declarator⟩
  | «variable» declarator => exact Or.inr ⟨_, _, _, declarator⟩

/-- What is recorded at a node is declared there, or just below. -/
theorem recordAt_of_mem_nodeRecords {entry : Place × (FunctionRecord ⊕ VariableRecord)}
    (here : root.at? p = some t) (h : entry ∈ nodeRecords source isExported p t) :
    RecordAt source root entry.1 entry.2 ∧ statementPlace root entry.1 = p := by
  unfold nodeRecords at h
  split at h
  case isTrue isFunction =>
    obtain ⟨r, recorded, rfl⟩ := List.mem_map.mp h
    obtain ⟨event, tells, recorded⟩ := List.mem_filterMap.mp recorded
    cases List.mem_singleton.mp tells
    cases recorded
    have isFunction := List.contains_iff_mem.mp isFunction
    exact ⟨.function here isFunction rfl rfl rfl, statementPlace_of_function here isFunction⟩
  case isFalse =>
    split at h
    case isTrue isVariable =>
      obtain ⟨⟨d, i⟩, child, h⟩ := List.mem_filterMap.mp h
      obtain ⟨r, recorded, rfl⟩ := Option.map_eq_some_iff.mp h
      refine ⟨recordAt_of_declaratorEvent here (List.contains_iff_mem.mp isVariable) child recorded,
        ?_⟩
      obtain ⟨child, -, isDeclarator⟩ := mem_numbered.mp child
      have below : root.at? (p ++ [i]) = some d := by rw [at?_concat, here, Option.bind_some, child]
      rw [statementPlace_of_declarator below isDeclarator, List.dropLast_concat]
    case isFalse => cases h

/-- Whatever is declared is recorded at a node. -/
theorem exists_mem_nodeRecords (source : Source) (isExported : String → Bool) {place : Place}
    (h : DeclaresAt root place) :
    ∃ p t, root.at? p = some t ∧ place ∈ (nodeRecords source isExported p t).map Prod.fst := by
  rcases h with ⟨t, here, isFunction⟩ | ⟨t, d, name, ⟨p, i, rfl, here, child⟩, declares, isNamed,
    isDeclarator, named, identifier⟩
  · refine ⟨place, t, here, ?_⟩
    rw [nodeRecords, if_pos (List.contains_iff_mem.mpr isFunction)]
    exact List.mem_singleton_self _
  · have noFunction : t.kind ∉ functionDeclarations := fun isFunction => by
      simp only [functionDeclarations, variableDeclarations, List.mem_cons, List.not_mem_nil,
        or_false] at isFunction declares
      rcases isFunction with h | h <;> simp [h] at declares
    have found : (d.field? "name").filter (·.kind == "identifier") = some name :=
      Option.filter_eq_some_iff.mpr ⟨named, beq_iff_eq.mpr identifier⟩
    have recorded : ∃ r, (declaratorEvent source t.line (declaringWord source t) d).bind
        (record? isExported) = some r := by
      rw [declaratorEvent, found]
      cases (d.field? "value").filter fun value => functionValues.contains value.kind with
      | none => exact ⟨_, rfl⟩
      | some value => exact ⟨_, rfl⟩
    obtain ⟨r, recorded⟩ := recorded
    refine ⟨p, t, here, List.mem_map.mpr ⟨(p ++ [i], r), ?_, rfl⟩⟩
    rw [nodeRecords, if_neg (by simpa using noFunction),
      if_pos (List.contains_iff_mem.mpr declares)]
    exact List.mem_filterMap.mpr ⟨(d, i), mem_numbered.mpr ⟨child, isNamed, isDeclarator⟩,
      Option.map_eq_some_iff.mpr ⟨r, recorded, rfl⟩⟩

/-- What is recorded at a node stands from left to right. -/
theorem pairwise_nodeRecords (source : Source) (isExported : String → Bool) (p : Place) (t : Tree) :
    (nodeRecords source isExported p t).Pairwise (·.1 < ·.1) := by
  unfold nodeRecords
  split
  · exact List.pairwise_singleton _ _
  · split
    · refine (pairwise_numbered _ t).filterMap _ fun (d, i) (d', j) less entry h entry' h' => ?_
      obtain ⟨r, -, rfl⟩ := Option.map_eq_some_iff.mp h
      obtain ⟨r', -, rfl⟩ := Option.map_eq_some_iff.mp h'
      exact List.append_left_lt (List.cons_lt_cons_iff.mpr (Or.inl less))
    · exact .nil

/-- The records of all functions and variables of a tree, each with its place. -/
def placedRecords (source : Source) (isExported : String → Bool) (root : Tree) :
    List (Place × (FunctionRecord ⊕ VariableRecord)) :=
  root.placed.flatMap fun (p, t) => nodeRecords source isExported p t

theorem map_snd_placedRecords (source : Source) (isExported : String → Bool) (root : Tree) :
    (placedRecords source isExported root).map Prod.snd =
      (events source root).filterMap (record? isExported) := by
  rw [events, walk_eq_nodes, ← map_snd_placed, List.flatMap_map, List.filterMap_flatMap,
    placedRecords, List.map_flatMap]
  exact List.flatMap_congr fun here _ => map_snd_nodeRecords source isExported here.1 here.2

theorem recordAt_of_mem_placedRecords {entry : Place × (FunctionRecord ⊕ VariableRecord)}
    (h : entry ∈ placedRecords source isExported root) : RecordAt source root entry.1 entry.2 := by
  obtain ⟨⟨p, t⟩, here, h⟩ := List.mem_flatMap.mp h
  exact (recordAt_of_mem_nodeRecords (mem_placed.mp here) h).1

theorem mem_map_fst_placedRecords : p ∈ (placedRecords source isExported root).map Prod.fst ↔
    DeclaresAt root p := by
  constructor
  · intro h
    obtain ⟨entry, mem, rfl⟩ := List.mem_map.mp h
    exact declares_of_recordAt (recordAt_of_mem_placedRecords mem)
  · intro h
    obtain ⟨q, t, here, mem⟩ := exists_mem_nodeRecords source isExported h
    obtain ⟨entry, recorded, rfl⟩ := List.mem_map.mp mem
    exact List.mem_map.mpr
      ⟨entry, List.mem_flatMap.mpr ⟨(q, t), mem_placed.mpr here, recorded⟩, rfl⟩

/-- Statements come in pre-order, and their declarations from left to right. -/
theorem pairwise_placedRecords (source : Source) (isExported : String → Bool) (root : Tree) :
    ((placedRecords source isExported root).map Prod.fst).Pairwise (ByStatement root) := by
  rw [List.pairwise_map, placedRecords, List.pairwise_flatMap]
  constructor
  · intro (p, t) here
    refine (pairwise_nodeRecords source isExported p t).imp_of_mem fun {first other} h h' less => ?_
    obtain ⟨-, same⟩ := recordAt_of_mem_nodeRecords (mem_placed.mp here) h
    obtain ⟨-, same'⟩ := recordAt_of_mem_nodeRecords (mem_placed.mp here) h'
    exact Or.inr ⟨same.trans same'.symm, less⟩
  · refine (pairwise_placed root).imp_of_mem
      fun {node other} here there less entry h entry' h' => ?_
    obtain ⟨-, same⟩ := recordAt_of_mem_nodeRecords (mem_placed.mp here) h
    obtain ⟨-, same'⟩ := recordAt_of_mem_nodeRecords (mem_placed.mp there) h'
    rw [ByStatement, same, same']
    exact Or.inl less

theorem ByStatement.ne {q : Place} (h : ByStatement root p q) : p ≠ q := by
  rintro rfl
  rcases h with less | ⟨-, less⟩
  · exact List.lt_irrefl _ less
  · exact List.lt_irrefl _ less

end Declaring

/-! ## Classes and comments -/

section Nodes

variable {source : Source} {isExported : String → Bool} {root : Tree} {p : Place}

/-- Nodes of some kinds that tell one thing each, while no other node tells such a thing. -/
theorem forall₂_recorded {β : Type} {R : Place × Tree → β → Prop} {isKind : Tree → Bool}
    {record : Event → Option β} {nodes : List (Place × Tree)}
    (tells : ∀ node ∈ nodes,
      (isKind node.2 = true ∧
        ∃ r, (nodeEvents source node.2).filterMap record = [r] ∧ R node r) ∨
      (isKind node.2 = false ∧ (nodeEvents source node.2).filterMap record = [])) :
    List.Forall₂ R (nodes.filter (isKind ·.2))
      ((nodes.flatMap fun node => nodeEvents source node.2).filterMap record) := by
  induction nodes with
  | nil => exact .nil
  | cons node nodes ih =>
    have rest := ih fun other mem => tells other (List.mem_cons_of_mem _ mem)
    rw [List.flatMap_cons, List.filterMap_append, List.filter_cons]
    rcases tells node List.mem_cons_self with ⟨kind, r, recorded, related⟩ | ⟨kind, recorded⟩
    · rw [if_pos kind, recorded]
      exact .cons related rest
    · rw [if_neg (by simp [kind]), recorded]
      exact rest

theorem events_eq_flatMap_placed : events source root =
    root.placed.flatMap fun node => nodeEvents source node.2 := by
  rw [events, walk_eq_nodes, ← map_snd_placed, List.flatMap_map]

theorem mem_places {isKind : Tree → Bool} :
    p ∈ (root.placed.filter (isKind ·.2)).map Prod.fst ↔
      ∃ t, root.at? p = some t ∧ isKind t = true := by
  simp [mem_placed]

theorem pairwise_places (root : Tree) (isKind : Tree → Bool) :
    ((root.placed.filter (isKind ·.2)).map Prod.fst).Pairwise (· < ·) :=
  List.pairwise_map.mpr ((pairwise_placed root).filter _)

/-- The places of the methods that are counted for a class. -/
def methodPlaces (p : Place) (t : Tree) : List Place :=
  match t.numberedField? "body" with
  | none => []
  | some (body, i) => (body.numbered "method_definition").map fun (_, j) => p ++ [i, j]

theorem eq_append_of_mem_methodPlaces {t : Tree} {q : Place} (h : q ∈ methodPlaces p t) :
    ∃ i j, q = p ++ [i, j] := by
  unfold methodPlaces at h
  split at h
  · cases h
  · obtain ⟨⟨-, j⟩, -, rfl⟩ := List.mem_map.mp h
    exact ⟨_, j, rfl⟩

theorem nodup_methodPlaces (p : Place) (t : Tree) : (methodPlaces p t).Nodup := by
  unfold methodPlaces
  split
  · exact .nil
  · refine List.pairwise_map.mpr ((pairwise_numbered _ _).imp fun less same => ?_)
    simp only [List.append_cancel_left_eq, List.cons.injEq, and_true, true_and] at same
    exact Nat.ne_of_lt less same

/-- No method is counted for two classes: it stands two steps below the one. -/
theorem nodup_flatMap_methodPlaces {nodes : List (Place × Tree)}
    (ordered : nodes.Pairwise (·.1 < ·.1)) :
    (nodes.flatMap fun (p, t) => methodPlaces p t).Nodup := by
  refine List.nodup_flatMap.mpr ⟨fun (p, t) _ => nodup_methodPlaces p t, ordered.imp ?_⟩
  intro (p, t) (p', t') less q h h'
  obtain ⟨i, j, rfl⟩ := eq_append_of_mem_methodPlaces h
  obtain ⟨i', j', same⟩ := eq_append_of_mem_methodPlaces h'
  obtain ⟨rfl, -⟩ := List.append_inj' same rfl
  exact List.lt_irrefl _ less

/-- The methods that a class counts are those at the places. -/
theorem methodAt_methodPlaces {t : Tree} (here : root.at? p = some t) :
    List.Forall₂ (MethodAt source root) (methodPlaces p t)
      (match t.field? "body" with
        | none => []
        | some body => (body.namedChildren.filter (·.kind == "method_definition")).map
          (methodRecord source)) := by
  rw [← map_fst_numberedField?, methodPlaces]
  cases found : t.numberedField? "body" with
  | none => exact .nil
  | some entry =>
    obtain ⟨body, i⟩ := entry
    simp only [Option.map_some, ← map_fst_numbered, List.map_map]
    rw [List.forall₂_map_left_iff, List.forall₂_map_right_iff, List.forall₂_same]
    intro (m, j) mem
    obtain ⟨child, -, kind⟩ := mem_numbered.mp mem
    refine ⟨m, ?_, kind, rfl⟩
    rw [List.append_cons, at?_concat, at?_concat, here, Option.bind_some,
      getElem?_of_numberedField? found, Option.bind_some, child]

/-- The record of a class in an event. -/
def class? (isExported : String → Bool) : Event → Option ClassRecord
  | .declaresClass r => some { r with exported := isExported r.name }
  | _ => none

theorem classes_gather (events : List Event) : (gather events).classes =
    events.filterMap (class? fun name => (gather events).exports.any (·.name == name)) := by
  refine List.filterMap_congr fun event _ => ?_
  cases event <;> rfl

theorem recorded_class (isExported : String → Bool) {t : Tree} (here : root.at? p = some t) :
    (classDeclarations.contains t.kind = true ∧
      ∃ c, (nodeEvents source t).filterMap (class? isExported) = [c] ∧
        ClassAt source root (p, methodPlaces p t) c) ∨
    (classDeclarations.contains t.kind = false ∧
      (nodeEvents source t).filterMap (class? isExported) = []) := by
  have tells := tells_nodeEvents source t
  generalize nodeEvents source t = events at tells ⊢
  cases tells with
  | function _ h => exact Or.inr ⟨by simpa using h, rfl⟩
  | «class» _ h =>
    exact Or.inl ⟨by simpa using h, _, rfl, t, here, rfl, rfl, methodAt_methodPlaces here⟩
  | «variables» _ h =>
    refine Or.inr ⟨by simpa using h, List.filterMap_eq_nil_iff.mpr fun event mem => ?_⟩
    rcases declares_of_mem_declarationEvents mem with ⟨r, rfl⟩ | ⟨r, rfl⟩ <;> rfl
  | comment _ h => exact Or.inr ⟨by simpa using h, rfl⟩
  | other _ h _ _ others =>
    refine Or.inr ⟨by simpa using h, List.filterMap_eq_nil_iff.mpr fun event mem => ?_⟩
    rcases others event mem with ⟨r, rfl⟩ | ⟨r, rfl⟩ <;> rfl

/-- The record of a comment in an event. -/
def comment? : Event → Option CommentRecord
  | .comments r => some r
  | _ => none

theorem comments_gather (events : List Event) :
    (gather events).comments = events.filterMap comment? := by
  refine List.filterMap_congr fun event _ => ?_
  cases event <;> rfl

theorem recorded_comment {t : Tree} (here : root.at? p = some t) :
    ((t.kind == "comment") = true ∧
      ∃ c, (nodeEvents source t).filterMap comment? = [c] ∧ CommentAt root p c) ∨
    ((t.kind == "comment") = false ∧ (nodeEvents source t).filterMap comment? = []) := by
  have tells := tells_nodeEvents source t
  generalize nodeEvents source t = events at tells ⊢
  cases tells with
  | function _ _ _ h => exact Or.inr ⟨by simpa using h, rfl⟩
  | «class» _ _ _ h => exact Or.inr ⟨by simpa using h, rfl⟩
  | «variables» _ _ _ h =>
    refine Or.inr ⟨by simpa using h, List.filterMap_eq_nil_iff.mpr fun event mem => ?_⟩
    rcases declares_of_mem_declarationEvents mem with ⟨r, rfl⟩ | ⟨r, rfl⟩ <;> rfl
  | comment _ _ _ h => exact Or.inl ⟨by simpa using h, _, rfl, t, here, rfl, rfl⟩
  | other _ _ _ h others =>
    refine Or.inr ⟨by simpa using h, List.filterMap_eq_nil_iff.mpr fun event mem => ?_⟩
    rcases others event mem with ⟨r, rfl⟩ | ⟨r, rfl⟩ <;> rfl

end Nodes

/-! ## All records -/

/-- Every declaration and every comment of every tree is recorded once, the functions and variables
in the order of the statements that declare them. -/
theorem recorded_facts (source : Source) (root : Tree) :
    Recorded (ByStatement root) source root (facts source root) where
  declarations := by
    let isExported (name : String) : Bool := (facts source root).exports.any (·.name == name)
    refine ⟨placedRecords source isExported root, fun p => mem_map_fst_placedRecords,
      (pairwise_placedRecords source isExported root).imp ByStatement.ne,
      pairwise_placedRecords source isExported root, fun entry h =>
        recordAt_of_mem_placedRecords h, ?_, ?_⟩
    · rw [facts, functions_gather, ← map_snd_placedRecords, List.filterMap_map]
      rfl
    · rw [facts, variables_gather isExported, ← map_snd_placedRecords, List.filterMap_map]
      rfl
  classes := by
    let isClass (t : Tree) : Bool := classDeclarations.contains t.kind
    refine ⟨(root.placed.filter (isClass ·.2)).map fun (p, t) => (p, methodPlaces p t), fun p => ?_,
      ?_, ?_, ?_⟩
    · rw [List.map_map]
      exact mem_places.trans (by simp [isClass])
    · rw [List.map_map]
      exact pairwise_places root isClass
    · rw [List.forall₂_map_left_iff, facts, classes_gather, events_eq_flatMap_placed]
      exact forall₂_recorded fun (p, t) mem => recorded_class _ (mem_placed.mp mem)
    · rw [List.flatMap_map]
      exact nodup_flatMap_methodPlaces ((pairwise_placed root).filter _)
  comments := by
    let isComment (t : Tree) : Bool := t.kind == "comment"
    refine ⟨(root.placed.filter (isComment ·.2)).map Prod.fst, fun p => ?_,
      pairwise_places root isComment, ?_⟩
    · exact mem_places.trans (by simp [isComment])
    · rw [List.forall₂_map_left_iff, facts, comments_gather, events_eq_flatMap_placed]
      exact forall₂_recorded fun (p, t) mem => recorded_comment (mem_placed.mp mem)

/-! ## Declarators and pre-order -/

section Preorder

variable {root : Tree} {p q : Place}

theorem statementPlace_of_isDeclarator (h : IsDeclarator root p) :
    statementPlace root p = p.dropLast := by
  obtain ⟨declaration, d, name, declarator⟩ := h
  exact statementPlace_of_declarator declarator.here declarator.isDeclarator

theorem lt_below (place : Place) (i : Nat) (inside : Place) : place < place ++ i :: inside :=
  calc
    place = place ++ [] := (List.append_nil place).symm
    _ < place ++ i :: inside := List.append_left_lt (List.nil_lt_cons i inside)

/-- A function is a statement itself, and a declarator stands just below one. -/
theorem statementPlace_cases (h : DeclaresAt root p) :
    statementPlace root p = p ∨ IsDeclarator root p ∧ ∃ j, p = statementPlace root p ++ [j] := by
  rcases h with ⟨t, here, isFunction⟩ | ⟨declaration, d, name, declarator⟩
  · exact Or.inl (statementPlace_of_function here isFunction)
  · obtain ⟨above, j, rfl, -⟩ := id declarator.child
    refine Or.inr ⟨⟨declaration, d, name, declarator⟩, j, ?_⟩
    rw [statementPlace_of_declarator declarator.here declarator.isDeclarator, List.dropLast_concat]

theorem lt_of_lt_statementPlace {place : Place} (h : DeclaresAt root p)
    (after : place < statementPlace root p) : place < p := by
  rcases statementPlace_cases h with own | ⟨-, j, below⟩
  · rwa [own] at after
  · rw [below]
    exact List.lt_trans after (lt_below _ j [])

theorem statementPlace_lt {place : Place} (h : DeclaresAt root p) (before : p < place) :
    statementPlace root p < place := by
  rcases statementPlace_cases h with own | ⟨-, j, below⟩
  · rwa [own]
  · rw [below] at before
    exact List.lt_trans (lt_below _ j []) before

/-- What comes between a place and a child of it is inside of an earlier child. -/
theorem exists_inside_of_between {place : Place} {j : Nat} (after : place < p)
    (before : p < place ++ [j]) : ∃ i inside, p = place ++ i :: inside ∧ i < j := by
  induction place generalizing p with
  | nil =>
    cases p with
    | nil => exact absurd after (List.lt_irrefl [])
    | cons i inside =>
      rcases List.cons_lt_cons_iff.mp before with less | ⟨-, none⟩
      · exact ⟨i, inside, rfl, less⟩
      · exact absurd none (List.not_lt_nil inside)
  | cons k place ih =>
    cases p with
    | nil => exact absurd after (List.not_lt_nil _)
    | cons i inside =>
      rw [List.cons_lt_cons_iff] at after
      rw [List.cons_append, List.cons_lt_cons_iff] at before
      rcases after with less | ⟨rfl, after⟩
      · rcases before with more | ⟨rfl, -⟩
        · omega
        · omega
      · rcases before with more | ⟨-, before⟩
        · omega
        · obtain ⟨i, inside, rfl, less⟩ := ih after before
          exact ⟨i, inside, rfl, less⟩

/-- What is declared inside of a child of a declaration is a statement below the declaration. -/
theorem lt_statementPlace {declaration inside : Place} {i : Nat}
    (h : DeclaresAt root (declaration ++ i :: inside))
    (other : inside = [] → ¬ IsDeclarator root (declaration ++ i :: inside)) :
    declaration < statementPlace root (declaration ++ i :: inside) := by
  rcases statementPlace_cases h with own | ⟨isDeclarator, j, below⟩
  · rw [own]
    exact lt_below declaration i inside
  · rcases List.eq_nil_or_concat inside with none | ⟨between, k, rfl⟩
    · exact absurd isDeclarator (other none)
    · rw [List.concat_eq_append, ← List.cons_append, ← List.append_assoc] at below ⊢
      rw [← (List.append_inj' below rfl).1]
      exact lt_below declaration i between

/-- Pre-order is the order by statements but for the pairs of which one overtakes the other. -/
theorem overtakes_iff (first : DeclaresAt root p) (last : DeclaresAt root q) :
    Overtakes root q p ↔ p < q ∧ ¬ ByStatement root p q := by
  constructor
  · rintro ⟨isDeclarator, -, declaration, i, inside, j, rfl, rfl, less, other⟩
    have own : statementPlace root (declaration ++ [j]) = declaration := by
      rw [statementPlace_of_isDeclarator isDeclarator, List.dropLast_concat]
    have below := lt_statementPlace first other
    refine ⟨List.append_left_lt (List.cons_lt_cons_iff.mpr (Or.inl less)), ?_⟩
    rw [ByStatement, own]
    rintro (before | ⟨same, -⟩)
    · exact List.lt_asymm before below
    · exact List.lt_irrefl _ (same ▸ below)
  · rintro ⟨less, apart⟩
    obtain ⟨later, unequal⟩ := not_or.mp apart
    rcases statementPlace_cases last with own | ⟨isDeclarator, j, below⟩
    · exact absurd (own.symm ▸ statementPlace_lt first less) later
    · have after : statementPlace root q < statementPlace root p := by
        rcases Std.lt_trichotomy (statementPlace root p) (statementPlace root q) with h | h | h
        · exact absurd h later
        · exact absurd ⟨h, less⟩ unequal
        · exact h
      rw [below] at less
      obtain ⟨i, inside, parts, earlier⟩ :=
        exists_inside_of_between (lt_of_lt_statementPlace first after) less
      refine ⟨isDeclarator, first, _, i, inside, j, parts, below, earlier, fun none sibling => ?_⟩
      rw [statementPlace_of_isDeclarator sibling, parts, none, List.dropLast_concat] at after
      exact List.lt_irrefl _ after

theorem ByStatement.asymm (h : ByStatement root p q) : ¬ ByStatement root q p := by
  rintro (before | ⟨same, before⟩) <;> rcases h with after | ⟨same', after⟩
  · exact List.lt_asymm before after
  · exact List.lt_irrefl _ (same' ▸ before)
  · exact List.lt_irrefl _ (same ▸ after)
  · exact List.lt_asymm before after

/-- Where nothing is overtaken, the order by statements is pre-order. -/
theorem byStatement_iff_lt (free : ∀ p q, ¬ Overtakes root q p) (first : DeclaresAt root p)
    (last : DeclaresAt root q) : ByStatement root p q ↔ p < q := by
  constructor
  · intro before
    rcases Std.lt_trichotomy p q with less | same | more
    · exact less
    · exact absurd same before.ne
    · exact absurd ((overtakes_iff last first).mpr ⟨more, before.asymm⟩) (free q p)
  · intro less
    by_contra apart
    exact free p q ((overtakes_iff first last).mpr ⟨less, apart⟩)

theorem Recorded.inPreorder {source : Source} {facts : Facts}
    (recorded : Recorded (ByStatement root) source root facts)
    (free : ∀ p q, ¬ Overtakes root q p) : Recorded (· < ·) source root facts := by
  obtain ⟨⟨records, declared, distinct, ordered, own, functions, «variables»⟩, classes, comments⟩ :=
    recorded
  refine ⟨⟨records, declared, distinct, ?_, own, functions, «variables»⟩, classes, comments⟩
  refine ordered.imp_of_mem fun first last before => ?_
  exact (byStatement_iff_lt free ((declared _).mp first) ((declared _).mp last)).mp before

/-- Every declaration and every comment of every tree is recorded once, the functions and
variables in the order of the statements that declare them. This order is that of the places
exactly if no declarator overtakes what is declared inside of an earlier one, and the
records stand in pre-order then. -/
theorem recorded_in_preorder_iff (source : Source) (root : Tree) :
    Recorded (ByStatement root) source root (facts source root) ∧
      ((∀ p q, DeclaresAt root p → DeclaresAt root q → (ByStatement root p q ↔ p < q)) ↔
        ∀ p q, ¬ Overtakes root q p) ∧
      ((∀ p q, ¬ Overtakes root q p) → Recorded (· < ·) source root (facts source root)) := by
  refine ⟨recorded_facts source root, ⟨fun agree p q overtakes => ?_, fun free p q =>
    byStatement_iff_lt free⟩, (recorded_facts source root).inPreorder⟩
  obtain ⟨isDeclarator, first, -⟩ := id overtakes
  obtain ⟨less, apart⟩ := (overtakes_iff first (Or.inr isDeclarator)).mp overtakes
  exact apart ((agree p q first (Or.inr isDeclarator)).mpr less)

end Preorder

/-- A declarator whose value is no function is recorded as a variable. -/
theorem exists_variable_of_recordAt {source : Source} {root : Tree} {p : Place}
    {r : FunctionRecord ⊕ VariableRecord} {d name : Tree} (h : RecordAt source root p r)
    (here : root.at? p = some d) (isDeclarator : d.kind = "variable_declarator")
    (named : d.field? "name" = some name)
    (noFunction : ∀ value, d.field? "value" = some value → value.kind ∉ functionValues) :
    ∃ v, r = .inr v ∧ v.name = source.text name := by
  cases h with
  | function there kind =>
    cases here.symm.trans there
    rw [isDeclarator] at kind
    exact absurd kind (by decide)
  | functionValue declarator held isFunction =>
    cases here.symm.trans declarator.here
    exact absurd isFunction (noFunction _ held)
  | «variable» declarator _ same =>
    cases here.symm.trans declarator.here
    cases named.symm.trans declarator.named
    exact ⟨_, rfl, same⟩

/-- A declaration inside of a function, between two declarators of another declaration. -/
def nestedDeclaration : Source := .ofText "const a = () => { const c = 1; }, b = 2;"

/-- The tree of the nested declarations. -/
def nestedDeclarationTree : Tree :=
  let node kind field start stop := Tree.node { kind, field, span := ⟨start, stop, 0, start⟩ }
  let token kind field start stop :=
    Tree.node { kind, field, span := ⟨start, stop, 0, start⟩, named := false } []
  node "program" none 0 40 [node "lexical_declaration" none 0 40 [
    token "const" (some "kind") 0 5,
    node "variable_declarator" none 6 32 [
      node "identifier" (some "name") 6 7 [],
      token "=" none 8 9,
      node "arrow_function" (some "value") 10 32 [
        node "formal_parameters" (some "parameters") 10 12 [
          token "(" none 10 11, token ")" none 11 12],
        token "=>" none 13 15,
        node "statement_block" (some "body") 16 32 [
          token "\x7b" none 16 17,
          node "lexical_declaration" none 18 30 [
            token "const" (some "kind") 18 23,
            node "variable_declarator" none 24 29 [
              node "identifier" (some "name") 24 25 [],
              token "=" none 26 27,
              node "number" (some "value") 28 29 []],
            token ";" none 29 30],
          token "\x7d" none 31 32]]],
    token "," none 32 33,
    node "variable_declarator" none 34 39 [
      node "identifier" (some "name") 34 35 [],
      token "=" none 36 37,
      node "number" (some "value") 38 39 []],
    token ";" none 39 40]]

theorem nestedDeclaration_places :
    (placedRecords nestedDeclaration (fun _ => false) nestedDeclarationTree).map Prod.fst =
      [[0, 1], [0, 3], [0, 1, 2, 2, 1, 1]] := by
  decide +kernel

theorem nestedDeclaration_not_preorder :
    ¬ Recorded (· < ·) nestedDeclaration nestedDeclarationTree
      (facts nestedDeclaration nestedDeclarationTree) := by
  rintro ⟨⟨listed, declared, -, ordered, records, -, «variables»⟩, -, -⟩
  have places : listed.map Prod.fst = [[0, 1], [0, 1, 2, 2, 1, 1], [0, 3]] := by
    refine ordered.eq_of_mem_iff (by decide) fun p => ?_
    rw [declared, ← mem_map_fst_placedRecords, nestedDeclaration_places]
    simp only [List.mem_cons]
    tauto
  simp only [List.map_eq_cons_iff, List.map_eq_nil_iff] at places
  obtain ⟨⟨_, first⟩, _, rfl, rfl, ⟨_, inner⟩, _, rfl, rfl, ⟨_, last⟩, _, rfl, rfl, rfl⟩ := places
  obtain ⟨c, rfl, isC⟩ :=
    exists_variable_of_recordAt (records ([0, 1, 2, 2, 1, 1], inner) (by simp)) rfl rfl rfl
      (by rintro value ⟨⟩; decide)
  obtain ⟨b, rfl, -⟩ :=
    exists_variable_of_recordAt (records ([0, 3], last) (by simp)) rfl rfl rfl
      (by rintro value ⟨⟩; decide)
  have names : (facts nestedDeclaration nestedDeclarationTree).«variables».map (·.name) =
      ["b", "c"] := by
    decide +kernel
  rw [«variables»] at names
  cases first with
  | inr a => cases congrArg List.length names
  | inl a =>
    have isB : c.name = "b" := (List.cons.inj names).1
    rw [isC] at isB
    revert isB
    decide +kernel

end Synopsis.Ecma.Outline
