import Synopsis.Ecma.Tree

/-!
# Places in a syntax tree

The place of a node is the way to it from the root, by the numbers of the children. Two nodes may be
the same as trees, but never stand at the same place. The list of all nodes goes through the places
in lexicographic order: a node comes before its children, and children come from left to right.
-/

namespace Synopsis.Ecma.Tree

/-- The way to a node. -/
abbrev Place := List Nat

/-- The node at a place. -/
def at? : Tree → Place → Option Tree
  | t, [] => some t
  | t, i :: p => t.children[i]?.bind fun child => at? child p

theorem at?_concat {t : Tree} {p : Place} {i : Nat} :
    t.at? (p ++ [i]) = (t.at? p).bind fun u => u.children[i]? := by
  induction p generalizing t with
  | nil => simp [at?]
  | cons j p ih =>
    cases h : t.children[j]? with
    | none => simp [at?, h]
    | some child => simp [at?, h, ih]

mutual
/-- The nodes of a tree with their places, each before its children. -/
def placed : Tree → List (Place × Tree)
  | .node head children => ([], .node head children) :: placedFrom 0 children

/-- The nodes of the children from a number on, with their places. -/
def placedFrom (i : Nat) : List Tree → List (Place × Tree)
  | [] => []
  | t :: ts => (placed t).map (fun (p, u) => (i :: p, u)) ++ placedFrom (i + 1) ts
end

mutual
theorem map_snd_placed (t : Tree) : t.placed.map Prod.snd = t.nodes := by
  cases t with
  | node head children =>
    rw [placed, nodes, List.map_cons, map_snd_placedFrom 0 children]

theorem map_snd_placedFrom (i : Nat) (ts : List Tree) :
    (placedFrom i ts).map Prod.snd = nodesOf ts := by
  cases ts with
  | nil => rfl
  | cons t ts =>
    rw [placedFrom, nodesOf, List.map_append, List.map_map, ← map_snd_placed t,
      map_snd_placedFrom (i + 1) ts]
    rfl
end

mutual
theorem mem_placed {t u : Tree} {p : Place} : (p, u) ∈ t.placed ↔ t.at? p = some u := by
  cases t with
  | node head children =>
    cases p with
    | nil =>
      have deep : ([], u) ∉ placedFrom 0 children := fun h => by
        obtain ⟨j, q, v, ⟨⟩, -⟩ := mem_placedFrom.mp h
      simp [placed, at?, deep, eq_comm]
    | cons i p =>
      rw [placed, List.mem_cons, mem_placedFrom]
      simp [at?, Tree.children, Option.bind_eq_some_iff, and_assoc]

theorem mem_placedFrom {i : Nat} {ts : List Tree} {u : Tree} {p : Place} :
    (p, u) ∈ placedFrom i ts ↔
      ∃ j q v, p = (i + j) :: q ∧ ts[j]? = some v ∧ v.at? q = some u := by
  cases ts with
  | nil => simp [placedFrom]
  | cons t ts =>
    rw [placedFrom, List.mem_append, List.mem_map, mem_placedFrom]
    constructor
    · rintro (⟨⟨q, v⟩, h, ⟨⟩⟩ | ⟨j, q, v, rfl, h⟩)
      · exact ⟨0, q, t, rfl, rfl, mem_placed.mp h⟩
      · exact ⟨j + 1, q, v, by rw [Nat.add_right_comm, Nat.add_assoc], h⟩
    · rintro ⟨_ | j, q, v, rfl, h, there⟩
      · cases h
        exact Or.inl ⟨(q, u), mem_placed.mpr there, rfl⟩
      · exact Or.inr ⟨j, q, v, by rw [Nat.add_right_comm, Nat.add_assoc], h, there⟩
end

mutual
/-- The nodes are listed in the order of their places. -/
theorem pairwise_placed (t : Tree) : t.placed.Pairwise (·.1 < ·.1) := by
  cases t with
  | node head children =>
    rw [placed, List.pairwise_cons]
    refine ⟨fun (p, u) h => ?_, pairwise_placedFrom 0 children⟩
    obtain ⟨j, q, v, rfl, -⟩ := mem_placedFrom.mp h
    exact List.nil_lt_cons _ _

theorem pairwise_placedFrom (i : Nat) (ts : List Tree) :
    (placedFrom i ts).Pairwise (·.1 < ·.1) := by
  cases ts with
  | nil => exact .nil
  | cons t ts =>
    rw [placedFrom, List.pairwise_append]
    refine ⟨?_, pairwise_placedFrom (i + 1) ts, fun first h other h' => ?_⟩
    · rw [List.pairwise_map]
      exact (pairwise_placed t).imp fun less => List.cons_lt_cons_self.mpr less
    · obtain ⟨first, -, rfl⟩ := List.mem_map.mp h
      obtain ⟨j, q, v, later, -⟩ := mem_placedFrom.mp h'
      rw [later]
      exact List.cons_lt_cons_iff.mpr (Or.inl (by omega))
end

/-! ## Numbered children -/

/-- The named children of a kind, with their numbers. -/
def numbered (kind : String) (t : Tree) : List (Tree × Nat) :=
  t.children.zipIdx.filter fun child => child.1.head.named && child.1.kind == kind

theorem map_fst_numbered (kind : String) (t : Tree) :
    (t.numbered kind).map Prod.fst = t.namedChildren.filter (·.kind == kind) := by
  rw [namedChildren, List.filter_filter, ← List.zipIdx_map_fst 0 t.children, List.filter_map]
  refine congrArg _ (List.filter_congr fun child _ => ?_)
  exact Bool.and_comm _ _

theorem mem_numbered {kind : String} {t child : Tree} {i : Nat} :
    (child, i) ∈ t.numbered kind ↔
      t.children[i]? = some child ∧ child.head.named = true ∧ child.kind = kind := by
  simp [numbered, List.mem_zipIdx_iff_getElem?]

theorem pairwise_numbered (kind : String) (t : Tree) : (t.numbered kind).Pairwise (·.2 < ·.2) := by
  refine List.Pairwise.filter _ (List.pairwise_map.mp ?_)
  rw [List.zipIdx_map_snd]
  exact List.pairwise_lt_range'

/-- The first child in a field, with its number. -/
def numberedField? (name : String) (t : Tree) : Option (Tree × Nat) :=
  t.children.zipIdx.find? fun child => child.1.head.field == some name

theorem map_fst_numberedField? (name : String) (t : Tree) :
    (t.numberedField? name).map Prod.fst = t.field? name := by
  rw [field?, ← List.zipIdx_map_fst 0 t.children, List.find?_map]
  rfl

theorem getElem?_of_numberedField? {name : String} {t child : Tree} {i : Nat}
    (h : t.numberedField? name = some (child, i)) : t.children[i]? = some child :=
  List.mem_zipIdx_iff_getElem?.mp (List.mem_of_find?_eq_some h)

end Synopsis.Ecma.Tree
