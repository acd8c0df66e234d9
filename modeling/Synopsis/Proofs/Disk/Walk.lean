import Synopsis.Proofs.Disk.Tree

/-!
# Walking along a place

A walk along two stretches is a walk along the first and then one along the second, with the links
that are left. Along the names of entries of a tree that are no links, a walk ends where looking up
does. Nothing is said about how many links a walk meets.
-/

namespace Synopsis.Disk

variable {disk : Entry}

/-! ## Steps -/

theorem walk_nil (disk : Entry) (links : Nat) (here : Location) :
    walk disk links here [] = .ok here := by
  cases links <;> rfl

/-- A walk is made of steps; a step onto a link uses one up. -/
theorem walk_cons (disk : Entry) (links : Nat) (here : Location) (name : String)
    (rest : List String) :
    walk disk links here (name :: rest) = match step disk here name with
      | .stop cause => .error cause
      | .on place => walk disk links place rest
      | .link target =>
        match links with
        | 0 => .error .loop
        | links + 1 =>
          if target == "" then .error .missing
          else walk disk links (startOf here target) (Path.segments target ++ rest) := by
  cases links <;> rfl

/-- Induction along a walk: over the names that are left, and over the links that are left. -/
theorem walk_induction {motive : Nat → Location → List String → Prop}
    (nil : ∀ links here, motive links here [])
    (cons : ∀ links here name rest, (∀ place, motive links place rest) →
      (∀ fewer place names, links = fewer + 1 → motive fewer place names) →
      motive links here (name :: rest)) :
    ∀ links here names, motive links here names := by
  intro links
  induction links with
  | zero =>
    intro here names
    induction names generalizing here with
    | nil => exact nil 0 here
    | cons name rest ih => exact cons 0 here name rest ih fun _ _ _ h => by cases h
  | succ links onward =>
    intro here names
    induction names generalizing here with
    | nil => exact nil _ here
    | cons name rest ih =>
      refine cons _ here name rest ih ?_
      rintro fewer place names h
      cases h
      exact onward place names

/-- A name of its own, neither empty nor dots. -/
def LeadsOn (name : String) : Prop := name ≠ "" ∧ name ≠ "." ∧ name ≠ ".."

theorem leadsOn_of_isName {name : String} (h : IsName name) : LeadsOn name :=
  ⟨h.ne_empty, h.ne_here, h.ne_above⟩

/-- Where a step that goes on can lead, and from where. -/
theorem step_on {here place : Location} {name : String} (h : step disk here name = .on place) :
    (∃ entry, disk.at? here = some entry ∧ entry.isFolder = true) ∧
      ((name = "" ∨ name = ".") ∧ place = here ∨ name = ".." ∧ place = here.dropLast ∨
        ∃ entry, disk.at? (here ++ [name]) = some entry ∧ (∀ target, entry ≠ .link target) ∧
          place = here ++ [name]) := by
  unfold step at h
  split at h
  · cases h
  rename_i isFolder
  refine ⟨?_, ?_⟩
  · cases hentry : disk.at? here with
    | none => simp [hentry] at isFolder
    | some entry => exact ⟨entry, rfl, by simpa [hentry] using isFolder⟩
  split at h
  · rename_i blank
    cases h
    exact Or.inl ⟨by simpa using blank, rfl⟩
  split at h
  · rename_i up
    cases h
    exact Or.inr (Or.inl ⟨by simpa using up, rfl⟩)
  split at h
  · cases h
  split at h
  · cases h
  · cases h
  · rename_i entry noLink present
    cases h
    exact Or.inr (Or.inr ⟨entry, present, noLink, rfl⟩)

/-- Where a step misses something: it leads on, from a folder that holds nothing of the name. -/
theorem step_missing {here : Location} {name : String} (h : step disk here name = .stop .missing) :
    ∃ entries, disk.at? here = some (.folder entries) ∧ LeadsOn name ∧
      name.utf8ByteSize ≤ longestName ∧ disk.at? (here ++ [name]) = none := by
  unfold step at h
  split at h
  · cases h
  rename_i folder
  split at h
  · cases h
  rename_i own
  split at h
  · cases h
  rename_i down
  split at h
  · cases h
  rename_i short
  split at h
  · rename_i vacant
    cases hentry : disk.at? here with
    | none => simp [hentry] at folder
    | some entry =>
      obtain ⟨entries, rfl⟩ := Entry.isFolder_iff.mp (by simpa [hentry] using folder)
      refine ⟨entries, rfl, ⟨?_, ?_, by simpa using down⟩, Nat.not_lt.mp short, vacant⟩
      · exact fun h => own (by simp [h])
      · exact fun h => own (by simp [h])
  · cases h
  · cases h

/-- Where a step can meet a link. -/
theorem step_link {here : Location} {name target : String}
    (h : step disk here name = .link target) :
    disk.at? (here ++ [name]) = some (.link target) := by
  unfold step at h
  split at h
  · cases h
  split at h
  · cases h
  split at h
  · cases h
  split at h
  · cases h
  split at h
  · cases h
  · rename_i link
    cases h
    exact link
  · cases h

/-- An empty name leads nowhere else. -/
theorem step_empty {here : Location} {entry : Entry} (present : disk.at? here = some entry)
    (hfolder : entry.isFolder = true) : step disk here "" = .on here := by
  have isFolder : ¬ (!((disk.at? here).map Entry.isFolder).getD false) = true := by
    simp [present, hfolder]
  rw [step, if_neg isFolder, if_pos (by decide)]

/-- A step to a name that leads on by itself. -/
theorem step_to {here : Location} {name : String} {entry : Entry} (named : LeadsOn name)
    (short : name.utf8ByteSize ≤ longestName) (present : disk.at? (here ++ [name]) = some entry)
    (noLink : ∀ target, entry ≠ .link target) : step disk here name = .on (here ++ [name]) := by
  obtain ⟨above, habove, hfolder⟩ := Entry.at?_above (by simp) present
  have isFolder : ¬ (!((disk.at? here).map Entry.isFolder).getD false) = true := by
    simp [habove, hfolder]
  have ownName : ¬ (name == "" || name == ".") = true := by simp [named.1, named.2.1]
  have down : ¬ (name == "..") = true := by simp [named.2.2]
  rw [step, if_neg isFolder, if_neg ownName, if_neg down, if_neg (Nat.not_lt.mpr short), present]
  cases entry with
  | link target => exact absurd rfl (noLink target)
  | file bytes => rfl
  | folder entries => rfl

/-! ## Walks -/

/-- A second stretch is walked from where the first one ends. -/
theorem walk_append (disk : Entry) (links : Nat) (here : Location) (front : List String) :
    ∃ left, ∀ rest, walk disk links here (front ++ rest) =
      (walk disk links here front).bind fun mid => walk disk left mid rest := by
  induction links, here, front using walk_induction with
  | nil links here => exact ⟨links, fun rest => by rw [walk_nil]; rfl⟩
  | cons links here name front next onward =>
    simp only [List.cons_append, walk_cons]
    cases step disk here name with
    | stop cause => exact ⟨links, fun rest => rfl⟩
    | on place => exact next place
    | link target =>
      cases links with
      | zero => exact ⟨0, fun rest => rfl⟩
      | succ links =>
        by_cases empty : (target == "") = true
        · simp only [if_pos empty]
          exact ⟨links, fun rest => rfl⟩
        · simp only [if_neg empty, ← List.append_assoc]
          exact onward links _ _ rfl

/-- A walk goes on to an entry that is no link where it ends. -/
theorem walk_concat {links : Nat} {here above front : Location} {name : String} {entry : Entry}
    (h : walk disk links here front = .ok above) (named : LeadsOn name)
    (short : name.utf8ByteSize ≤ longestName) (present : disk.at? (above ++ [name]) = some entry)
    (noLink : ∀ target, entry ≠ .link target) :
    walk disk links here (front ++ [name]) = .ok (above ++ [name]) := by
  obtain ⟨left, onward⟩ := walk_append disk links here front
  rw [onward, h]
  change walk disk left above [name] = _
  rw [walk_cons, step_to named short present noLink]
  exact walk_nil disk left _

/-- What is walked into is a folder. -/
theorem isFolder_of_walk {links : Nat} {here place : Location} {name : String} {rest : List String}
    (h : walk disk links here (name :: rest) = .ok place) :
    ∃ entry, disk.at? here = some entry ∧ entry.isFolder = true := by
  rw [walk_cons] at h
  cases hstep : step disk here name with
  | stop cause => rw [hstep] at h; cases h
  | on next => exact (step_on hstep).1
  | link target => exact Entry.at?_above (by simp) (step_link hstep)

/-- A walk passes no other names than dots, empty ones and names that a folder can hold. -/
theorem names_of_walk {links : Nat} {here place : Location} {names : List String}
    (tree : disk.IsTree) (h : walk disk links here names = .ok place) :
    ∀ name ∈ names, name = "" ∨ name = "." ∨ name = ".." ∨ IsName name := by
  have listed {here : Location} {name : String} {entry : Entry}
      (present : disk.at? (here ++ [name]) = some entry) : IsName name :=
    (tree.at? present).1 name (by simp)
  induction links, here, names using walk_induction with
  | nil => simp
  | cons links here name rest next onward =>
    rw [walk_cons] at h
    cases hstep : step disk here name with
    | stop cause => rw [hstep] at h; cases h
    | on mid =>
      rw [hstep] at h
      refine List.forall_mem_cons.mpr ⟨?_, next mid h⟩
      rcases (step_on hstep).2 with ⟨rfl | rfl, -⟩ | ⟨rfl, -⟩ | ⟨entry, present, -⟩
      · exact Or.inl rfl
      · exact Or.inr (Or.inl rfl)
      · exact Or.inr (Or.inr (Or.inl rfl))
      · exact Or.inr (Or.inr (Or.inr (listed present)))
    | link target =>
      rw [hstep] at h
      refine List.forall_mem_cons.mpr ⟨Or.inr (Or.inr (Or.inr (listed (step_link hstep)))), ?_⟩
      cases links with
      | zero => cases h
      | succ links =>
        simp only at h
        split at h
        · cases h
        · intro other hother
          exact onward links _ _ rfl h other (List.mem_append_right _ hother)

/-- None of them holds a slash or a null character. -/
theorem plain_of_walk {links : Nat} {here place : Location} {names : List String}
    (tree : disk.IsTree) (h : walk disk links here names = .ok place) :
    ∀ name ∈ names, '/' ∉ name.toList ∧ '\x00' ∉ name.toList := by
  intro name hname
  rcases names_of_walk tree h name hname with rfl | rfl | rfl | own
  · decide
  · decide
  · decide
  · exact ⟨own.no_slash, own.no_null⟩

/-- A walk to an entry of a tree that is no link ends at its place. -/
theorem walk_to_entry (tree : disk.IsTree) (links : Nat) {here names : Location} {entry : Entry}
    (present : disk.at? (here ++ names) = some entry) (noLink : ∀ target, entry ≠ .link target) :
    walk disk links here names = .ok (here ++ names) := by
  induction names generalizing here with
  | nil => rw [walk_nil, List.append_nil]
  | cons name rest ih =>
    have hsplit : here ++ name :: rest = (here ++ [name]) ++ rest := by simp
    have hname : IsName name := (tree.at? present).1 name (by simp)
    rw [hsplit] at present ⊢
    cases rest with
    | nil =>
      rw [List.append_nil] at present ⊢
      rw [walk_cons, step_to (leadsOn_of_isName hname) hname.short present noLink]
      exact walk_nil disk links _
    | cons next rest =>
      obtain ⟨above, habove, hfolder⟩ := Entry.at?_above (by simp) present
      have aboveNoLink : ∀ target, above ≠ .link target := by
        rintro target rfl
        cases hfolder
      rw [walk_cons, step_to (leadsOn_of_isName hname) hname.short habove aboveNoLink]
      exact ih present

/-- A walk that meets no link ends where its names lead by themselves. -/
theorem walk_straight {links : Nat} {here place names : Location}
    (h : walk disk links here names = .ok place)
    (named : ∀ name ∈ names, LeadsOn name)
    (direct : ∀ front target, front <+: names → disk.at? (here ++ front) ≠ some (.link target)) :
    place = here ++ names := by
  induction names generalizing here with
  | nil =>
    rw [walk_nil] at h
    cases h
    exact (List.append_nil _).symm
  | cons name rest ih =>
    obtain ⟨hempty, hhere, habove⟩ := named name List.mem_cons_self
    rw [walk_cons] at h
    cases hstep : step disk here name with
    | stop cause => rw [hstep] at h; cases h
    | link target => exact absurd (step_link hstep) (direct [name] target (by simp))
    | on next =>
      rw [hstep] at h
      have hnext : next = here ++ [name] := by
        rcases (step_on hstep).2 with ⟨blank, -⟩ | ⟨up, -⟩ | ⟨entry, -, -, rfl⟩
        · exact absurd blank (by simp [hempty, hhere])
        · exact absurd up habove
        · rfl
      subst hnext
      have hsplit : here ++ name :: rest = (here ++ [name]) ++ rest := by simp
      rw [hsplit]
      refine ih h (fun other hother => named other (List.mem_cons_of_mem _ hother)) ?_
      intro front target hfront
      simpa using direct (name :: front) target (List.cons_prefix_cons.mpr ⟨rfl, hfront⟩)

end Synopsis.Disk
