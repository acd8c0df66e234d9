import Synopsis.Extract
import Synopsis.Proofs.Ecma.Places

/-!
# The node that is blamed for an error

The search for a faulty node goes down from child to child and never comes back. Since an error of a
node is one of every node above it, this finds what a search through all nodes in pre-order would
find first. Whether a node of a real text has an error is left open here.
-/

namespace Synopsis.Ecma.Tree

/-- A node to blame for an error: an error node, a missing one, or one with an error
that none of its children has. -/
def IsCulprit (t : Tree) : Prop :=
  t.kind = "ERROR" ∨ t.head.missing = true ∨
    (t.hasError = true ∧ ∀ child ∈ t.children, child.hasError = false)

/-- The node at the first place in pre-order at which a culprit stands. -/
def FirstCulprit (root u : Tree) : Prop :=
  ∃ p, root.at? p = some u ∧ u.IsCulprit ∧
    ∀ q v, q < p → root.at? q = some v → ¬ v.IsCulprit

/-! ## Errors -/

theorem anyError_eq (ts : List Tree) : anyError ts = ts.any hasError := by
  induction ts with
  | nil => rfl
  | cons t ts ih => rw [anyError, ih, List.any_cons]

theorem hasError_iff {t : Tree} : t.hasError = true ↔
    t.isFlawed = true ∨ ∃ child ∈ t.children, child.hasError = true := by
  cases t with
  | node head children =>
      rw [hasError, anyError_eq, Bool.or_eq_true, List.any_eq_true, Tree.children]

theorem IsCulprit.hasError {t : Tree} (culprit : t.IsCulprit) : t.hasError = true := by
  rcases culprit with isError | missing | ⟨h, -⟩
  · exact hasError_iff.mpr (Or.inl (by simp [isFlawed, isError]))
  · exact hasError_iff.mpr (Or.inl (by simp [isFlawed, missing]))
  · exact h

/-- An error at any place is one of the whole tree. -/
theorem hasError_of_at? {t u : Tree} {p : Place} (here : t.at? p = some u)
    (h : u.hasError = true) : t.hasError = true := by
  induction p generalizing t with
  | nil =>
    cases here
    exact h
  | cons i p ih =>
    obtain ⟨child, found, here⟩ := Option.bind_eq_some_iff.mp here
    exact hasError_iff.mpr (Or.inr ⟨child, List.mem_of_getElem? found, ih here⟩)

theorem not_culprit_of_at? {t u : Tree} {p : Place} (sound : t.hasError = false)
    (here : t.at? p = some u) : ¬ u.IsCulprit := by
  intro culprit
  have faulty := hasError_of_at? here culprit.hasError
  rw [sound] at faulty
  cases faulty

/-! ## The way down -/

theorem blameAmong_eq (ts : List Tree) : blameAmong ts = (ts.find? hasError).map blame := by
  induction ts with
  | nil => rfl
  | cons t ts ih =>
    rw [blameAmong, List.find?_cons]
    cases t.hasError with
    | true => rfl
    | false => exact ih

/-- The child to which the search goes on. It stays at an error node, at a missing one, and where no
child has an error. -/
def faultyChild? (t : Tree) : Option Tree :=
  if t.kind == "ERROR" || t.head.missing then none
  else t.children.find? fun child => child.hasError || child.head.missing

/-- The search ends where it cannot go on. -/
theorem blame_eq (t : Tree) : t.blame = (t.faultyChild?.map blame).getD t := by
  cases t with
  | node head children =>
    have faulty : (fun child : Tree => child.hasError || child.head.missing) = hasError := by
      funext child
      cases missing : child.head.missing with
      | false => exact Bool.or_false _
      | true => simp [IsCulprit.hasError (Or.inr (Or.inl missing))]
    have turn : (node head children).faultyChild? =
        if head.kind == "ERROR" || head.missing then none else children.find? hasError := by
      rw [faultyChild?, faulty]
      rfl
    rw [blame, blameAmong_eq, turn]
    split
    · rfl
    · rfl

/-- Where the search stays there is a culprit. -/
theorem culprit_of_stay {t : Tree} (h : t.hasError = true) (stay : t.faultyChild? = none) :
    t.IsCulprit := by
  unfold faultyChild? at stay
  split at stay
  · rename_i own
    simp only [Bool.or_eq_true, beq_iff_eq] at own
    exact own.imp_right Or.inl
  · refine Or.inr (Or.inr ⟨h, fun child inside => ?_⟩)
    have sound := List.find?_eq_none.mp stay child inside
    simp only [Bool.or_eq_true, not_or, Bool.not_eq_true] at sound
    exact sound.1

/-- Where the search goes on there is no culprit, nor in any child
before the one to which it goes. -/
theorem passed_of_faultyChild? {t child : Tree} (on : t.faultyChild? = some child) :
    ¬ t.IsCulprit ∧ child.hasError = true ∧ ∃ i, t.children[i]? = some child ∧
      ∀ (j : Nat) (other : Tree), j < i → t.children[j]? = some other → other.hasError = false := by
  unfold faultyChild? at on
  split at on
  · cases on
  · rename_i own
    simp only [Bool.or_eq_true, beq_iff_eq, not_or, Bool.not_eq_true] at own
    obtain ⟨faulty, i, bound, found, before⟩ := List.find?_eq_some_iff_getElem.mp on
    have h : child.hasError = true := by
      rcases Bool.or_eq_true_iff.mp faulty with h | missing
      · exact h
      · exact IsCulprit.hasError (Or.inr (Or.inl missing))
    refine ⟨?_, h, i, List.getElem?_eq_some_iff.mpr ⟨bound, found⟩, fun j other less there => ?_⟩
    · rintro (isError | missing | ⟨-, sound⟩)
      · exact own.1 isError
      · exact absurd missing (by simp [own.2])
      · have inside : child ∈ t.children := found ▸ List.getElem_mem bound
        rw [sound child inside] at h
        cases h
    · obtain ⟨inside, rfl⟩ := List.getElem?_eq_some_iff.mp there
      have sound := before j less
      simp only [Bool.not_eq_true', Bool.or_eq_false_iff] at sound
      exact sound.1

/-- If the search goes on to a child, the first culprit below that child is the first one of all. -/
theorem FirstCulprit.of_faultyChild? {t child u : Tree} (on : t.faultyChild? = some child)
    (first : child.FirstCulprit u) : t.FirstCulprit u := by
  obtain ⟨innocent, -, i, found, before⟩ := passed_of_faultyChild? on
  obtain ⟨p, here, culprit, earliest⟩ := first
  refine ⟨i :: p, by rw [at?, found]; exact here, culprit, fun q v less there => ?_⟩
  cases q with
  | nil =>
    cases there
    exact innocent
  | cons j q =>
    obtain ⟨other, found', there⟩ := Option.bind_eq_some_iff.mp there
    rcases List.cons_lt_cons_iff.mp less with earlier | ⟨rfl, below⟩
    · exact not_culprit_of_at? (before j other earlier found') there
    · cases found.symm.trans found'
      exact earliest q v below there

/-- Of a tree with an error the first culprit is blamed. -/
theorem firstCulprit_blame {t : Tree} (h : t.hasError = true) : t.FirstCulprit t.blame := by
  cases on : t.faultyChild? with
  | none =>
    rw [blame_eq, on]
    exact ⟨[], rfl, culprit_of_stay h on, fun q _ less => absurd less (List.not_lt_nil q)⟩
  | some child =>
    rw [blame_eq, on]
    exact .of_faultyChild? on (firstCulprit_blame (passed_of_faultyChild? on).2.1)
termination_by sizeOf t
decreasing_by
  obtain ⟨i, found, -⟩ := (passed_of_faultyChild? on).2.2
  have inside := List.sizeOf_lt_of_mem (List.mem_of_getElem? found)
  cases t with
  | node head children =>
    simp only [Tree.children] at inside
    simp only [node.sizeOf_spec]
    omega

theorem FirstCulprit.unique {root u v : Tree} (first : root.FirstCulprit u)
    (other : root.FirstCulprit v) : u = v := by
  obtain ⟨p, here, culprit, earliest⟩ := first
  obtain ⟨q, there, culprit', earliest'⟩ := other
  have same : p = q := List.le_antisymm
    (List.not_lt.mp fun less => earliest q v less there culprit')
    (List.not_lt.mp fun less => earliest' p u less here culprit)
  rw [same] at here
  exact Option.some.inj (here.symm.trans there)

/-! ## The report -/

theorem exists_firstCulprit_iff {root : Tree} :
    (∃ u, root.FirstCulprit u) ↔ root.hasError = true := by
  constructor
  · rintro ⟨u, p, here, culprit, -⟩
    exact hasError_of_at? here culprit.hasError
  · exact fun h => ⟨root.blame, firstCulprit_blame h⟩

theorem firstError?_eq_some_iff {root u : Tree} :
    root.firstError? = some u ↔ root.FirstCulprit u := by
  unfold firstError?
  constructor
  · intro found
    split at found
    · rename_i h
      cases found
      exact firstCulprit_blame h
    · cases found
  · intro first
    have h : root.hasError = true := exists_firstCulprit_iff.mp ⟨u, first⟩
    rw [if_pos h, (firstCulprit_blame h).unique first]

theorem firstError?_eq_none_iff {root : Tree} :
    root.firstError? = none ↔ ∀ u ∈ root.nodes, ¬ u.IsCulprit := by
  constructor
  · intro unblamed u inside culprit
    rw [← map_snd_placed] at inside
    obtain ⟨⟨p, _⟩, here, rfl⟩ := List.mem_map.mp inside
    have h : root.hasError = true := hasError_of_at? (mem_placed.mp here) culprit.hasError
    rw [firstError?, if_pos h] at unblamed
    cases unblamed
  · intro innocent
    refine Option.eq_none_iff_forall_ne_some.mpr fun u found => ?_
    obtain ⟨p, here, culprit, -⟩ := firstError?_eq_some_iff.mp found
    refine innocent u ?_ culprit
    rw [← map_snd_placed]
    exact List.mem_map.mpr ⟨(p, u), mem_placed.mpr here, rfl⟩

/-- A report ends with the place where the node starts. -/
theorem describeError_eq (u : Tree) : ∃ what, u.describeError =
    what ++ s!"at line {u.span.row + 1}, column {u.span.column + 1}" := by
  unfold describeError
  dsimp only
  split
  · exact ⟨s!"Missing {Text.quoted u.kind} ", rfl⟩
  · exact ⟨"Unexpected token ", rfl⟩

theorem parseError_of_parsed {parser : TreeParser} {dialect : Dialect} {text : String} {root : Tree}
    (parsed : parser dialect text = .ok root) (withTree : Bool) :
    (extractEcma parser dialect withTree text).parseError =
      root.firstError?.map describeError := by
  rw [extractEcma, parsed]
  dsimp only
  cases root.firstError? with
  | none => rfl
  | some u => rfl

/-- The search gives nothing when no node is a culprit, and else the first culprit in
pre-order. A text with such a tree has a parse error in the second case alone, and it
names the place of that node. -/
theorem first_culprit_reported (root : Tree) :
    (root.firstError? = none ↔ ∀ u ∈ root.nodes, ¬ u.IsCulprit) ∧
      (∀ u, root.firstError? = some u ↔ root.FirstCulprit u) ∧
      ∀ (parser : TreeParser) (dialect : Dialect) (text : String) (withTree : Bool),
        parser dialect text = .ok root →
          ((extractEcma parser dialect withTree text).parseError = none ↔
            ∀ u ∈ root.nodes, ¬ u.IsCulprit) ∧
          ∀ u, root.FirstCulprit u → ∃ what,
            (extractEcma parser dialect withTree text).parseError =
              some (what ++ s!"at line {u.span.row + 1}, column {u.span.column + 1}") := by
  refine ⟨firstError?_eq_none_iff, fun u => firstError?_eq_some_iff, ?_⟩
  intro parser dialect text withTree parsed
  rw [parseError_of_parsed parsed]
  constructor
  · rw [Option.map_eq_none_iff, firstError?_eq_none_iff]
  · intro u first
    obtain ⟨what, described⟩ := describeError_eq u
    exact ⟨what, by rw [firstError?_eq_some_iff.mpr first, Option.map_some, described]⟩

/-- An error node inside of a block that is flagged. -/
def strayToken : Tree := .node { kind := "ERROR", span := ⟨5, 7, 1, 2⟩ } []

/-- A tree with errors in and after a block. -/
def brokenBlock : Tree :=
  let node kind start stop flagged := Tree.node { kind, span := ⟨start, stop, 0, start⟩, flagged }
  node "program" 0 12 false [
    node "statement_block" 0 9 true [node "number" 1 2 false [], strayToken],
    node "ERROR" 10 12 false []]

theorem first_culprit_reported_brokenBlock :
    brokenBlock.FirstCulprit strayToken ∧ ∃ what,
      (extractEcma (fun _ _ => .ok brokenBlock) (.ofExtension ".js") false "").parseError =
        some (what ++ "at line 2, column 3") := by
  obtain ⟨-, found, reported⟩ := first_culprit_reported brokenBlock
  have first : brokenBlock.FirstCulprit strayToken := (found strayToken).mp rfl
  exact ⟨first, (reported (fun _ _ => .ok brokenBlock) _ _ _ rfl).2 strayToken first⟩

end Synopsis.Ecma.Tree
