import Synopsis.Proofs.Disk.Writing

/-!
# Settled places

Every name of a settled place is a name of its own. If no link leads back to itself, the place holds
no link either, so that it leads to itself: what is written there changes it and the folders above
it that were missing, and nothing else. A place that was settled past an endless link may hold more
links, and nothing is said here about where it leads.
-/

namespace Synopsis.Disk

variable {disk before after : Entry} {here place target : Location} {names : List String}

/-! ## Names -/

/-- Double dots are gone from a rooted way. -/
theorem leadsOn_collapse {done : List String} (h : ∀ name ∈ done, LeadsOn name)
    (names : List String) : ∀ name ∈ Path.collapse true done names, LeadsOn name := by
  induction names generalizing done with
  | nil => simpa [Path.collapse] using h
  | cons name rest ih =>
    unfold Path.collapse
    split
    · exact ih h
    rename_i own
    split
    · rename_i down
      refine ih fun other hother => ?_
      rcases List.mem_cons.mp hother with rfl | hother
      · exact ⟨fun h => own (by simp [h]), fun h => own (by simp [h]), by simpa using down⟩
      · exact h other hother
    · split
      · exact ih (by simp)
      · exact absurd rfl (h ".." List.mem_cons_self).2.2
      · exact ih fun other hother => h other (List.mem_cons_of_mem _ hother)

/-- No link is at the place or above it. -/
def Straight (disk : Entry) (place : Location) : Prop :=
  ∀ front target, front <+: place → disk.at? front ≠ some (.link target)

/-- A place that leads to itself, by names of their own and past no link. -/
structure Direct (disk : Entry) (place : Location) : Prop where
  named : ∀ name ∈ place, LeadsOn name
  straight : Straight disk place

namespace Direct

theorem above (h : Direct disk place) : Direct disk place.dropLast where
  named name hname := h.named name ((List.dropLast_sublist place).subset hname)
  straight front target hfront :=
    h.straight front target (hfront.trans (List.dropLast_prefix place))

theorem concat {name : String} (h : Direct disk here) (named : LeadsOn name)
    (noLink : ∀ target, disk.at? (here ++ [name]) ≠ some (.link target)) :
    Direct disk (here ++ [name]) where
  named other hother := by
    rcases List.mem_append.mp hother with hother | hother
    · exact h.named other hother
    · exact List.mem_singleton.mp hother ▸ named
  straight front target hfront := by
    rcases List.prefix_concat_iff.mp hfront with rfl | hfront
    · exact noLink target
    · exact h.straight front target hfront

end Direct

/-- The place of an entry of a tree that is no link leads to itself. -/
theorem direct_of_present {entry : Entry} (tree : disk.IsTree) (h : disk.at? place = some entry)
    (noLink : ∀ target, entry ≠ .link target) : Direct disk place where
  named name hname := leadsOn_of_isName ((tree.at? h).1 name hname)
  straight := by
    rintro front target ⟨rest, rfl⟩ link
    rw [Entry.at?_append, link] at h
    cases rest with
    | nil =>
      cases h
      exact noLink target rfl
    | cons name rest => cases h

/-- A way that meets no link leads to the place of its names. -/
theorem Direct.eq_of_leads {way : Location} (h : Direct disk target) (sub : way <+: target)
    (leads : Leads disk way place) : place = way :=
  walk_straight leads (fun name hname => h.named name (sub.subset hname))
    fun front link hfront => h.straight front link (hfront.trans sub)

/-! ## Settling -/

/-- Where a path starts, from a place that leads to itself. -/
theorem Direct.startOf (h : Direct disk here) (path : String) :
    Direct disk (Disk.startOf here path) := by
  rw [Disk.startOf]
  split
  · exact ⟨by simp, fun front target hfront =>
      h.straight front target (hfront.trans (List.nil_prefix))⟩
  · exact h

theorem Direct.settleStep {name : String} {next : Location} (h : Direct disk here)
    (settled : Disk.settleStep disk here name = (next, none)) : Direct disk next := by
  unfold Disk.settleStep at settled
  split at settled
  · cases settled
    exact h
  rename_i own
  split at settled
  · cases settled
    exact h.above
  rename_i down
  split at settled
  · cases settled
  · rename_i noLink
    cases settled
    exact h.concat ⟨fun h => own (by simp [h]), fun h => own (by simp [h]), by simpa using down⟩
      noLink

theorem Direct.settleWith {follow : Location → Location → List String → Settled}
    {active : List Location} (h : Direct disk here)
    (onward : ∀ next start names place, Direct disk start →
      follow next start names = .place place → Direct disk place)
    (settled : Disk.settleWith disk follow active here names = .place place) :
    Direct disk place := by
  induction names generalizing here with
  | nil =>
    cases settled
    exact h
  | cons name rest ih =>
    unfold Disk.settleWith at settled
    split at settled
    · rename_i next step
      exact ih (h.settleStep step) settled
    · rename_i next target step
      split at settled
      · cases settled
      split at settled
      · cases settled
      · rename_i place' followed
        exact ih (onward _ _ _ _ (h.startOf target) followed) settled

/-- Where no link leads back to itself, a path is settled at a place that leads to itself. -/
theorem Direct.settle {fuel : Nat} {active : List Location} (h : Direct disk here)
    (settled : Disk.settle disk fuel active here names = .place place) : Direct disk place := by
  induction fuel generalizing active here names place with
  | zero => exact h.settleWith (fun _ _ _ _ _ followed => by cases followed) settled
  | succ fuel ih => exact h.settleWith (fun _ _ _ _ start followed => ih start followed) settled

/-- No link that a path meets leads back to itself. -/
def Ends (disk : Entry) (working : Location) (path : String) : Prop :=
  ∃ place, Disk.settle disk (disk.linkCount + 1) [] (startOf working path) (Path.segments path) =
    .place place

theorem leadsOn_of_resolve {working : Location} {path : String} (h : Direct disk working)
    (resolved : resolve disk working path = .ok place) : ∀ name ∈ place, LeadsOn name := by
  unfold resolve at resolved
  split at resolved
  · cases resolved
  split at resolved
  · rename_i settled
    cases resolved
    exact ((h.startOf path).settle settled).named
  · simp only at resolved
    split at resolved
    · cases resolved
    · cases resolved
      exact leadsOn_collapse (by simp) _

theorem direct_of_resolve {working : Location} {path : String} (h : Direct disk working)
    (ends : Ends disk working path) (resolved : resolve disk working path = .ok place) :
    Direct disk place := by
  obtain ⟨found, settled⟩ := ends
  unfold resolve at resolved
  split at resolved
  · cases resolved
  · rw [settled] at resolved
    cases resolved
    exact (h.startOf path).settle settled

/-! ## What is written there -/

/-- New folders and files leave a place without links. -/
theorem Direct.later (h : Direct disk target) (nodes : ∀ front link, front <+: target →
      after.at? front = some (.link link) → after.node? front = disk.node? front) :
    Direct after target where
  named := h.named
  straight front link hfront hlink := by
    have node := nodes front link hfront hlink
    rw [Entry.node?, hlink, Entry.node?] at node
    obtain ⟨entry, hentry, halone⟩ := Option.map_eq_some_iff.mp node.symm
    cases entry <;> cases halone
    exact h.straight front link hfront hentry

/-- A new folder is no link. -/
theorem NewFolder.not_link {link : String} (h : NewFolder target before after place) :
    after.at? place ≠ some (.link link) := by
  intro hlink
  have made := h.made
  rw [Entry.node?, hlink] at made
  cases made

/-- Folders for a place that leads to itself are made above it. -/
theorem FoldersMade.direct (h : FoldersMade target before after) (direct : Direct before target) :
    ∀ place, after.node? place ≠ before.node? place → place <+: target := by
  have later : Direct after target := direct.later fun front link _ hlink =>
    Classical.byContradiction fun differs => (h.changed front differs).not_link hlink
  intro place differs
  obtain ⟨way, hway, leads⟩ := (h.changed place differs).onWay
  exact later.eq_of_leads hway leads ▸ hway

/-- A file at a place that leads to itself is written there, below folders above it. -/
theorem FileWritten.direct {bytes : ByteArray} (h : FileWritten target bytes before after)
    (direct : Direct before target) :
    after.at? target = some (.file bytes) ∧
      ∀ place, after.node? place ≠ before.node? place → place <+: target := by
  obtain ⟨spot, leads, written, others⟩ := h.written
  have later : Direct after target := by
    refine direct.later fun front link _ hlink => Classical.byContradiction fun differs => ?_
    by_cases here : front = spot
    · rw [here, written] at hlink
      cases hlink
    · exact (others front here differs).not_link hlink
  obtain rfl := later.eq_of_leads (List.prefix_refl target) leads
  refine ⟨written, fun place differs => ?_⟩
  by_cases here : place = spot
  · exact here ▸ List.prefix_refl _
  · obtain ⟨way, hway, leads⟩ := (others place here differs).onWay
    have sub := hway.trans (List.dropLast_prefix spot)
    exact later.eq_of_leads sub leads ▸ sub

end Synopsis.Disk
