import Mathlib.Data.List.Forall2
import Synopsis.Ecma.Outline
import Synopsis.Proofs.Ecma.Places

/-!
# Walks with a stack

A walk takes nodes off a stack and puts their children there, until nothing is left. The nodes that
were visited and those that are still ahead make up the pre-order of the tree after every turn, so a
walk comes to its end and visits every place of the tree once, in pre-order. The events of a tree
are told in this order.
-/

namespace Synopsis.Ecma

namespace Tree

/-- Some turns of a walk, with the nodes that they take. -/
inductive Turns : Array Tree → List Tree → Array Tree → Prop
  | none (stack : Array Tree) : Turns stack [] stack
  | next {stack mid last : Array Tree} {t : Tree} {ts : List Tree} :
      walkTurn stack = some (t, mid) → Turns mid ts last → Turns stack (t :: ts) last

variable {stack : Array Tree}

theorem eq_empty_of_walkTurn (ended : walkTurn stack = none) : stack = #[] := by
  simpa [walkTurn] using ended

/-- A walk ends when it has taken all that is ahead. -/
theorem turns_ahead (stack : Array Tree) : Turns stack (ahead stack) #[] := by
  cases turn : walkTurn stack with
  | none =>
    rw [eq_empty_of_walkTurn turn]
    exact .none #[]
  | some next =>
    obtain ⟨t, rest⟩ := next
    rw [ahead_of_walkTurn turn]
    exact .next turn (turns_ahead rest)
termination_by (ahead stack).length
decreasing_by exact length_ahead_lt turn

/-- However far a walk has come, it adds what is ahead to what was visited. -/
theorem toList_walkFrom (stack visited : Array Tree) :
    (walkFrom stack visited).toList = visited.toList ++ ahead stack := by
  fun_induction walkFrom stack visited with
  | case1 stack visited ended =>
    rw [eq_empty_of_walkTurn ended]
    exact (List.append_nil _).symm
  | case2 stack visited t rest turn shorter ih =>
    rw [ih, ahead_of_walkTurn turn, Array.toList_push, List.append_assoc, List.singleton_append]

theorem ahead_singleton (t : Tree) : ahead #[t] = t.nodes := List.append_nil _

/-- A walk goes through the nodes of a tree in pre-order. -/
theorem walk_eq_nodes (t : Tree) : t.walk = t.nodes := by
  rw [walk, toList_walkFrom, ahead_singleton]
  rfl

theorem walk_eq (t : Tree) : t.walk = t :: t.children.flatMap walk := by
  rw [walk_eq_nodes, nodes_eq, nodesOf_eq_flatMap, funext walk_eq_nodes]

/-- The places of a tree in pre-order go with the nodes of a walk. -/
theorem forall₂_walk (root : Tree) : List.Forall₂ (fun p t => root.at? p = some t)
    (root.placed.map Prod.fst) root.walk := by
  rw [walk_eq_nodes, ← map_snd_placed, List.forall₂_map_left_iff, List.forall₂_map_right_iff,
    List.forall₂_same]
  exact fun _ here => mem_placed.mp here

theorem mem_map_fst_placed {root : Tree} {p : Place} :
    p ∈ root.placed.map Prod.fst ↔ ∃ t, root.at? p = some t := by
  simp [mem_placed]

end Tree

namespace Outline

open Synopsis.Ecma.Tree

/-- The events of a tree are those of its root, and then those of its children in turn. -/
theorem events_eq (source : Source) (root : Tree) :
    events source root = nodeEvents source root ++ root.children.flatMap (events source) := by
  rw [events, walk_eq, List.flatMap_cons, List.flatMap_assoc]
  rfl

/-- A walk with a stack comes to its end, and visits every place of the tree once and in
pre-order, as the recursion does. So the events of the root come first, and those of its
children follow from left to right. -/
theorem walked_in_preorder (source : Source) (root : Tree) :
    Turns #[root] root.walk #[] ∧ root.walk = root.nodes ∧
      (∃ places : List Place, places.Pairwise (· < ·) ∧
        (∀ p, p ∈ places ↔ ∃ t, root.at? p = some t) ∧
        List.Forall₂ (fun p t => root.at? p = some t) places root.walk) ∧
      events source root = nodeEvents source root ++ root.children.flatMap (events source) := by
  have ended : Turns #[root] root.walk #[] := by
    rw [walk_eq_nodes, ← ahead_singleton]
    exact turns_ahead #[root]
  have ordered : (root.placed.map Prod.fst).Pairwise (· < ·) :=
    List.pairwise_map.mpr (pairwise_placed root)
  exact ⟨ended, walk_eq_nodes root,
    ⟨_, ordered, fun _ => mem_map_fst_placed, forall₂_walk root⟩, events_eq source root⟩

end Outline

end Synopsis.Ecma
