import Synopsis.Proofs.Ecma.Exports
import Synopsis.Proofs.Text.Utf8

/-!
# Facts in document order

A tree is laid out over a source when its nodes nest and follow one another there. Then the walk
meets the nodes in the order of their starts, and since the events of a node tell where it starts,
every list of facts is in order. Lines follow from bytes: the row of a byte is the number of
newlines before it. Nothing is said about how facts of different kinds stand to each other.
-/

namespace Synopsis.Ecma

namespace Source

variable (source : Source)

theorem fst_foldl_point (bytes : List UInt8) (point : Nat × Nat) :
    (bytes.foldl (fun (row, column) (b : UInt8) =>
      if b == 10 then (row + 1, 0) else (row, column + 1)) point).1 = point.1 + bytes.count 10 := by
  induction bytes generalizing point with
  | nil => rfl
  | cons b rest ih =>
    rw [List.foldl_cons, ih, List.count_cons]
    by_cases newline : b = 10
    · simp only [newline, beq_self_eq_true, if_true]
      omega
    · simp only [beq_iff_eq, newline, if_false, Nat.add_zero]

theorem toList_extract (stop : Nat) :
    (source.bytes.extract 0 stop).toList = source.bytes.data.toList.take stop := by
  rw [ByteArray.toList, Text.Utf8.toList_loop]
  simp

/-- The row of a byte is the number of newlines before it. -/
theorem fst_pointAt (offset : Nat) :
    (source.pointAt offset).1 = (source.bytes.data.toList.take offset).count 10 := by
  rw [pointAt, fst_foldl_point, toList_extract]
  exact Nat.zero_add _

theorem row_mono {first last : Nat} (h : first ≤ last) :
    (source.pointAt first).1 ≤ (source.pointAt last).1 := by
  rw [fst_pointAt, fst_pointAt]
  exact (List.take_sublist_take_left h).count_le 10

end Source

namespace Tree

/-- A tree is laid out over a source: every node ends where it starts or later, children lie within
their parent, siblings follow one another without overlap, and rows are those of the source. -/
structure LaidOut (source : Source) (root : Tree) : Prop where
  forward : ∀ t ∈ root.nodes, t.span.start ≤ t.span.stop
  within : ∀ t ∈ root.nodes, ∀ child ∈ t.children,
    t.span.start ≤ child.span.start ∧ child.span.stop ≤ t.span.stop
  inOrder : ∀ t ∈ root.nodes, t.children.Pairwise fun a b => a.span.stop ≤ b.span.start
  rows : ∀ t ∈ root.nodes, t.span.row = (source.pointAt t.span.start).1

/-- What holds of a tree when it holds of its children holds of every tree. -/
theorem induction_on {motive : Tree → Prop}
    (step : ∀ t : Tree, (∀ child ∈ t.children, motive child) → motive t) (t : Tree) : motive t := by
  refine step t fun child inside => ?_
  have smaller : sizeOf child < sizeOf t := by
    cases t with
    | node head children =>
      have := List.sizeOf_lt_of_mem (show child ∈ children from inside)
      rw [node.sizeOf_spec]
      omega
  exact induction_on step child
termination_by sizeOf t

namespace LaidOut

variable {source : Source} {root : Tree}

theorem child (laid : root.LaidOut source) {t : Tree} (inside : t ∈ root.children) :
    t.LaidOut source := by
  have below : ∀ u ∈ t.nodes, u ∈ root.nodes :=
    nodes_subset (mem_nodes_of_mem_children (mem_nodes_self root) inside)
  exact ⟨fun u h => laid.forward u (below u h), fun u h => laid.within u (below u h),
    fun u h => laid.inOrder u (below u h), fun u h => laid.rows u (below u h)⟩

/-- Every node lies within the root. -/
theorem within_root (laid : root.LaidOut source) :
    ∀ t ∈ root.nodes, root.span.start ≤ t.span.start ∧ t.span.stop ≤ root.span.stop := by
  induction root using induction_on with
  | step root ih =>
    intro t h
    rw [nodes_eq, nodesOf_eq_flatMap] at h
    rcases List.mem_cons.mp h with rfl | h
    · exact ⟨Nat.le_refl _, Nat.le_refl _⟩
    · obtain ⟨child, inside, h⟩ := List.mem_flatMap.mp h
      have outer := laid.within root (mem_nodes_self root) child inside
      have inner := ih child inside (laid.child inside) t h
      omega

/-- The walk meets the nodes in the order of their starts. -/
theorem pairwise_start (laid : root.LaidOut source) :
    root.nodes.Pairwise fun t u => t.span.start ≤ u.span.start := by
  induction root using induction_on with
  | step root ih =>
    have first := laid.within_root
    rw [nodes_eq, nodesOf_eq_flatMap] at first ⊢
    refine List.pairwise_cons.mpr ⟨fun t h => (first t (List.mem_cons_of_mem _ h)).1, ?_⟩
    refine List.pairwise_flatMap.mpr ⟨fun child inside => ih child inside (laid.child inside), ?_⟩
    refine (laid.inOrder root (mem_nodes_self root)).imp_of_mem ?_
    intro a b ha hb apart t ht u hu
    -- The end of `t` is passed on the way from its start to that of `u`.
    have forward := (laid.child ha).forward t ht
    have left := (laid.child ha).within_root t ht
    have right := (laid.child hb).within_root u hu
    omega

/-- The lines of the nodes do not decrease along the walk. -/
theorem pairwise_line (laid : root.LaidOut source) :
    root.nodes.Pairwise fun t u => t.line ≤ u.line := by
  refine laid.pairwise_start.imp_of_mem fun {t u} ht hu before => ?_
  rw [line, line, laid.rows t ht, laid.rows u hu]
  exact Nat.succ_le_succ (source.row_mono before)

end LaidOut

end Tree

/-! ## Events -/

/-- An event tells where a node starts: its line or, in a comment, its byte. -/
def Event.StartsAt (t : Tree) : Event → Prop
  | .imports r => r.line = t.line
  | .exports r => r.line = t.line
  | .declaresFunction r => r.line = t.line
  | .declaresClass r => r.line = t.line
  | .declaresVariable r => r.line = t.line
  | .comments r => r.start = t.span.start

namespace Outline

open Synopsis.Ecma.Tree

variable {source : Source} {root t : Tree} {event : Event}

theorem startsAt_of_mem_importEvents (h : event ∈ importEvents source t) : event.StartsAt t := by
  unfold importEvents at h
  split at h
  · cases h
  · cases List.mem_singleton.mp h
    rfl

theorem line_of_mem_declarationExports {line : Nat} {declaration : Tree} {e : ExportRecord}
    (h : e ∈ declarationExports source line declaration) : e.line = line := by
  unfold declarationExports at h
  split at h
  · cases List.mem_singleton.mp h
    rfl
  · split at h
    · cases List.mem_singleton.mp h
      rfl
    · split at h
      · obtain ⟨declarator, -, h⟩ := List.mem_filterMap.mp h
        obtain ⟨name, -, rfl⟩ := Option.map_eq_some_iff.mp h
        rfl
      · cases h

theorem line_of_mem_listedExports {e : ExportRecord} (h : e ∈ listedExports source t) :
    e.line = t.line := by
  obtain ⟨clause, -, h⟩ := List.mem_flatMap.mp h
  obtain ⟨spec, -, h⟩ := List.mem_filterMap.mp h
  split at h
  · cases h
  · obtain ⟨name, -, rfl⟩ := Option.map_eq_some_iff.mp h
    rfl

theorem startsAt_of_mem_exportEvents (h : event ∈ exportEvents source t) : event.StartsAt t := by
  unfold exportEvents at h
  split at h
  · cases List.mem_singleton.mp h
    rfl
  · obtain ⟨e, mem, rfl⟩ := List.mem_map.mp h
    rcases List.mem_append.mp mem with mem | mem
    · split at mem
      · exact line_of_mem_declarationExports mem
      · cases mem
    · exact line_of_mem_listedExports mem

/-- All declarators of a declaration are told on the line of the declaration. -/
theorem startsAt_of_mem_declarationEvents (h : event ∈ declarationEvents source t) :
    event.StartsAt t := by
  obtain ⟨d, -, tells⟩ := List.mem_filterMap.mp h
  obtain ⟨name, -, rfl⟩ := Option.map_eq_some_iff.mp tells
  split <;> rfl

/-- Whatever a node tells, it tells where it starts. -/
theorem startsAt_of_mem_nodeEvents (h : event ∈ nodeEvents source t) : event.StartsAt t := by
  unfold nodeEvents at h
  split at h
  case h_1 => cases List.mem_singleton.mp h; rfl
  case h_2 => exact startsAt_of_mem_importEvents h
  case h_3 => exact startsAt_of_mem_exportEvents h
  case h_4 | h_5 => cases List.mem_singleton.mp h; rfl
  case h_6 | h_7 => cases List.mem_singleton.mp h; rfl
  case h_8 | h_9 => exact startsAt_of_mem_declarationEvents h
  case h_10 => cases h

/-- Two events tell the starts of nodes that do not stand in the wrong order. -/
def Ordered (a b : Event) : Prop :=
  ∃ t u : Tree, a.StartsAt t ∧ b.StartsAt u ∧ t.span.start ≤ u.span.start ∧ t.line ≤ u.line

theorem pairwise_events (laid : root.LaidOut source) :
    (events source root).Pairwise Ordered := by
  rw [events, walk_eq_nodes]
  refine List.pairwise_flatMap.mpr ⟨fun t _ => ?_, ?_⟩
  · refine List.pairwise_of_forall_mem_list fun a ha b hb => ?_
    exact ⟨t, t, startsAt_of_mem_nodeEvents ha, startsAt_of_mem_nodeEvents hb, Nat.le_refl _,
      Nat.le_refl _⟩
  · refine (laid.pairwise_start.and laid.pairwise_line).imp fun {t u} before a ha b hb => ?_
    exact ⟨t, u, startsAt_of_mem_nodeEvents ha, startsAt_of_mem_nodeEvents hb, before⟩

/-- A list that is gathered from the events is in order if the records of ordered events are. -/
theorem pairwise_gathered {α : Type} {record? : Event → Option α} {before : α → α → Prop}
    (laid : root.LaidOut source)
    (keeps : ∀ a b r s, Ordered a b → record? a = some r → record? b = some s → before r s) :
    ((events source root).filterMap record?).Pairwise before := by
  refine List.pairwise_filterMap.mpr ((pairwise_events laid).imp ?_)
  exact fun {a b} ordered r told s told' => keeps a b r s ordered told told'

/-- Of a tree that is laid out over a source, every list of facts is in document order. -/
theorem facts_in_document_order (laid : root.LaidOut source) :
    (facts source root).imports.Pairwise (·.line ≤ ·.line) ∧
      (facts source root).exports.Pairwise (·.line ≤ ·.line) ∧
      (facts source root).functions.Pairwise (·.line ≤ ·.line) ∧
      (facts source root).classes.Pairwise (·.line ≤ ·.line) ∧
      (facts source root).«variables».Pairwise (·.line ≤ ·.line) ∧
      (facts source root).comments.Pairwise (·.start ≤ ·.start) := by
  refine ⟨?_, ?_, ?_, ?_, ?_, ?_⟩
  all_goals
    refine pairwise_gathered laid ?_
    rintro a b r s ⟨t, u, here, there, starts, lines⟩ told told'
    cases a <;> cases told
    cases b <;> cases told'
    dsimp only [Event.StartsAt] at here there ⊢
    omega

/-- A variable inside of a function, and a variable and a comment on one line after it. -/
def closure : Source := .ofText "function f() \x7b\n  let a;\n\x7d\nlet b; // end"

/-- The tree of the closure, without its tokens. -/
def closureTree : Tree :=
  let node kind field start stop row column :=
    Tree.node { kind, field, span := ⟨start, stop, row, column⟩ }
  node "program" none 0 39 0 0 [
    node "function_declaration" none 0 25 0 0 [
      node "identifier" (some "name") 9 10 0 9 [],
      node "statement_block" (some "body") 13 25 0 13 [
        node "lexical_declaration" none 17 23 1 2 [
          node "variable_declarator" none 21 22 1 6 [
            node "identifier" (some "name") 21 22 1 6 []]]]],
    node "lexical_declaration" none 26 32 3 0 [
      node "variable_declarator" none 30 31 3 4 [
        node "identifier" (some "name") 30 31 3 4 []]],
    node "comment" none 33 39 3 7 []]

theorem closure_in_document_order :
    closureTree.LaidOut closure ∧
      (facts closure closureTree).functions.map (·.line) = [1] ∧
      (facts closure closureTree).«variables».map (·.line) = [2, 4] ∧
      (facts closure closureTree).«variables».Pairwise (·.line ≤ ·.line) ∧
      (facts closure closureTree).comments.Pairwise (·.start ≤ ·.start) := by
  have laid : closureTree.LaidOut closure :=
    ⟨by decide +kernel, by decide +kernel, by decide +kernel, by decide +kernel⟩
  obtain ⟨-, -, -, -, ofVariables, ofComments⟩ := facts_in_document_order laid
  exact ⟨laid, by decide +kernel, by decide +kernel, ofVariables, ofComments⟩

end Outline

end Synopsis.Ecma
