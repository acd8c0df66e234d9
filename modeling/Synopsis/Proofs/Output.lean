import Mathlib.Data.List.TakeWhile
import Synopsis.Output
import Synopsis.Proofs.Disk.Settling
import Synopsis.Proofs.Outcome

/-!
# What is written

What is left of a text when its escape sequences are taken away in one pass from the left, and what
writing it changes on a disk. At each place of a text at most one sequence starts, so that only one
text is left; what the pass joins may look like another sequence, and stays. Nothing is said about
writing where the working place is missing.
-/

namespace Synopsis

/-- An escape sequence: an escape character and a bracket, digits and semicolons, and a letter. -/
def IsEscape (cs : List Char) : Prop :=
  ∃ parameters letter, cs = '\x1b' :: '[' :: (parameters ++ [letter]) ∧
    (∀ c ∈ parameters, isEscapeParameter c = true) ∧ letter.isAlpha = true

/-- One pass from the left over the first text leaves the second one. -/
inductive Stripped : List Char → List Char → Prop
  | nil : Stripped [] []
  | escape {front rest kept : List Char} :
      IsEscape front → Stripped rest kept → Stripped (front ++ rest) kept
  | other {c : Char} {rest kept : List Char} :
      (∀ front after, c :: rest = front ++ after → ¬ IsEscape front) →
        Stripped rest kept → Stripped (c :: rest) (c :: kept)

/-- A letter ends the digits and semicolons before it. -/
theorem isEscapeParameter_of_isAlpha {c : Char} (h : c.isAlpha = true) :
    ¬ isEscapeParameter c = true := by
  intro parameter
  rcases Bool.or_eq_true_iff.mp parameter with digit | semicolon
  · have most : c.toNat ≤ 57 :=
      UInt32.le_iff_toNat_le.mp (of_decide_eq_true (Bool.and_eq_true_iff.mp digit).2)
    have least : 65 ≤ c.toNat := by
      rcases Bool.or_eq_true_iff.mp h with upper | lower
      · exact UInt32.le_iff_toNat_le.mp (of_decide_eq_true upper).1
      · have high : 97 ≤ c.toNat :=
          UInt32.le_iff_toNat_le.mp (of_decide_eq_true (Bool.and_eq_true_iff.mp lower).1)
        omega
    omega
  · rw [beq_iff_eq] at semicolon
    subst semicolon
    revert h
    decide

/-- What follows a sequence is found exactly where the text starts with one. -/
theorem afterEscape?_eq_some_iff {cs after : List Char} :
    afterEscape? cs = some after ↔ ∃ front, IsEscape front ∧ cs = front ++ after := by
  constructor
  · intro h
    unfold afterEscape? at h
    split at h
    · rename_i rest
      split at h
      · rename_i letter tail hrest
        split at h
        · rename_i isLetter
          cases h
          refine ⟨_, ⟨rest.takeWhile isEscapeParameter, letter, rfl, ?_, isLetter⟩, ?_⟩
          · exact fun c hc => List.mem_takeWhile_imp hc
          · have split := List.takeWhile_append_dropWhile (p := isEscapeParameter) (l := rest)
            rw [hrest] at split
            simp [split]
        · cases h
      · cases h
    · cases h
  · rintro ⟨front, ⟨parameters, letter, rfl, hparameters, isLetter⟩, rfl⟩
    have dropped : (parameters ++ [letter] ++ after).dropWhile isEscapeParameter =
        letter :: after := by
      rw [List.append_assoc, List.dropWhile_append_of_pos hparameters, List.singleton_append,
        List.dropWhile_cons_of_neg (isEscapeParameter_of_isAlpha isLetter)]
    simp only [List.cons_append, afterEscape?, dropped, if_pos isLetter]

theorem withoutEscapes_of_escape {cs after : List Char} (h : afterEscape? cs = some after) :
    withoutEscapes cs = withoutEscapes after := by
  rw [withoutEscapes]
  split
  · rename_i other hother
    rw [Option.some.inj (h.symm.trans hother)]
  · rename_i none
    cases h.symm.trans none

theorem withoutEscapes_of_other {c : Char} {rest : List Char}
    (h : afterEscape? (c :: rest) = none) :
    withoutEscapes (c :: rest) = c :: withoutEscapes rest := by
  rw [withoutEscapes]
  split
  · rename_i other hother
    cases h.symm.trans hother
  · rfl

/-- A pass from the left leaves what is written, and nothing else. -/
theorem stripped_iff {cs kept : List Char} : Stripped cs kept ↔ kept = withoutEscapes cs := by
  constructor
  · intro h
    induction h with
    | nil => rw [withoutEscapes]; rfl
    | escape escapes _ ih =>
      rw [withoutEscapes_of_escape (afterEscape?_eq_some_iff.mpr ⟨_, escapes, rfl⟩), ih]
    | @other c rest kept none _ ih =>
      rw [withoutEscapes_of_other, ih]
      refine Option.eq_none_iff_forall_ne_some.mpr fun after h => ?_
      obtain ⟨front, escapes, split⟩ := afterEscape?_eq_some_iff.mp h
      exact none front after split escapes
  · rintro rfl
    induction cs using withoutEscapes.induct with
    | case1 cs after found _ ih =>
      obtain ⟨front, escapes, rfl⟩ := afterEscape?_eq_some_iff.mp found
      rw [withoutEscapes_of_escape found]
      exact .escape escapes ih
    | case2 =>
      rw [withoutEscapes]
      exact .nil
    | case3 c rest none ih =>
      rw [withoutEscapes_of_other none]
      refine .other (fun front after split escapes => ?_) ih
      rw [afterEscape?_eq_some_iff.mpr ⟨front, escapes, split⟩] at none
      cases none

namespace Workspace

variable {w : Workspace} {path : String} {target : Location}

theorem locate_eq_ok : w.locate path = .ok target ↔
    ∃ full, w.withHome path = .ok full ∧ Disk.resolve w.disk w.working full = .ok target :=
  bind_eq_ok

/-- No link that the path meets leads back to itself. -/
def Ends (w : Workspace) (path : String) : Prop :=
  ∀ full, w.withHome path = .ok full → Disk.Ends w.disk w.working full

/-- A workspace on a disk as file systems keep it, in a folder that is there. -/
structure Standing (w : Workspace) : Prop where
  tree : w.disk.IsTree
  folder : ∃ entries, w.disk.at? w.working = some (.folder entries)

/-- Folders were made on the way to a target, above it if the path to it ends. -/
structure Prepared (w : Workspace) (path : String) (target : Location) (after : Entry) : Prop where
  made : Disk.FoldersMade target.dropLast w.disk after
  direct : w.Ends path →
    ∀ place, after.node? place ≠ w.disk.node? place → place <+: target.dropLast

/-- A file was written where a target leads, which is the target itself if the path to it ends, and
nothing else changed but folders that were missing. -/
structure Wrote (w : Workspace) (path : String) (target : Location) (bytes : ByteArray)
    (after : Entry) : Prop where
  written : Disk.FileWritten target bytes w.disk after
  direct : w.Ends path → after.at? target = some (.file bytes) ∧
    ∀ place, after.node? place ≠ w.disk.node? place → place <+: target

namespace Standing

theorem root (standing : w.Standing) : w.disk.isFolder = true := by
  obtain ⟨entries, h⟩ := standing.folder
  by_cases atRoot : w.working = []
  · rw [atRoot, Entry.at?_nil] at h
    rw [Option.some.inj h]
    rfl
  · have split : w.disk.at? ([] ++ w.working) = some (.folder entries) := h
    obtain ⟨folder, hfolder, isFolder⟩ := Entry.at?_above atRoot split
    exact Option.some.inj hfolder ▸ isFolder

theorem working (standing : w.Standing) : Disk.Direct w.disk w.working := by
  obtain ⟨entries, h⟩ := standing.folder
  exact Disk.direct_of_present standing.tree h nofun

theorem leadsOn (standing : w.Standing) (located : w.locate path = .ok target) :
    ∀ name ∈ target, Disk.LeadsOn name := by
  obtain ⟨full, -, resolved⟩ := locate_eq_ok.mp located
  exact Disk.leadsOn_of_resolve standing.working resolved

theorem direct (standing : w.Standing) (located : w.locate path = .ok target) (ends : w.Ends path) :
    Disk.Direct w.disk target := by
  obtain ⟨full, homed, resolved⟩ := locate_eq_ok.mp located
  exact Disk.direct_of_resolve standing.working (ends full homed) resolved

end Standing

/-- A text is written at the place that its path names, without its escape sequences, or else
nothing but folders is made. -/
theorem writeOutput_cases (standing : w.Standing) (path text : String) :
    (∃ fault, w.locate path = .error fault ∧ w.writeOutput path text = (w, .error fault)) ∨
    ∃ target disk, w.locate path = .ok target ∧
      ((∃ fault, w.writeOutput path text = ({ w with disk }, .error fault) ∧
          w.Prepared path target disk) ∨
        ∃ kept, w.writeOutput path text = ({ w with disk }, .ok target) ∧
          Stripped text.toList kept ∧ w.Wrote path target (String.ofList kept).toUTF8 disk) := by
  unfold writeOutput
  cases located : w.locate path with
  | error fault => exact Or.inl ⟨fault, rfl, rfl⟩
  | ok target =>
    have named := standing.leadsOn located
    have direct := standing.direct located
    have cases := Disk.writeBelowFolders_cases standing.tree standing.root named (outputBytes text)
    simp only
    generalize Disk.writeBelowFolders w.disk target (outputBytes text) = result at cases ⊢
    obtain ⟨disk, fault⟩ := result
    refine Or.inr ⟨target, disk, rfl, ?_⟩
    rcases cases with ⟨fault, rfl, made⟩ | ⟨rfl, written⟩
    · exact Or.inl ⟨fault, rfl, made, fun ends => made.direct (direct ends).above⟩
    · exact Or.inr ⟨withoutEscapes text.toList, rfl, stripped_iff.mpr rfl, written,
        fun ends => written.direct (direct ends)⟩

end Workspace

end Synopsis
