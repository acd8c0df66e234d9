import Synopsis.Command.Basic
import Synopsis.Proofs.Disk.Agreement

/-!
# Worlds that are alike

Telling changes a world in two ways only: the session holds more notices, and so does the file of
the journal. Worlds are alike when they differ at most in their sessions and in files that are left
open. What is written to alike worlds ends in the same way, and keeps them alike.
-/

namespace Synopsis

/-- A journal in a file that is there stays in one, and leaves all other files. -/
theorem Journal.write_of_present {journal : Journal} {disk : Entry} {present : ByteArray}
    (h : disk.at? journal.place = some (.file present)) (now : Moment) (notices : List Notice) :
    Disk.Agree (· ≠ journal.place) disk (journal.write now notices disk) ∧
      ∃ bytes, (journal.write now notices disk).at? journal.place = some (.file bytes) := by
  simp only [Journal.write]
  split
  · exact ⟨.refl disk, present, h⟩
  · exact Disk.extendFile_of_present h _

namespace World

/-- A journal is kept in a file that is there. -/
def Journaled (world : World) : Prop :=
  ∀ journal ∈ world.journal, ∃ bytes, world.workspace.disk.at? journal.place = some (.file bytes)

/-- A place where no journal is kept. -/
def OffJournal (world : World) (place : Location) : Prop :=
  ∀ journal ∈ world.journal, place ≠ journal.place

/-- The worlds differ at most in their sessions and in files at places that are not `known`. -/
structure Alike (known : Location → Prop) (world other : World) : Prop where
  now : world.now = other.now
  journal : world.journal = other.journal
  working : world.workspace.working = other.workspace.working
  homes : world.workspace.homes = other.workspace.homes
  disks : Disk.Agree known world.workspace.disk other.workspace.disk

namespace Alike

variable {known : Location → Prop} {world other third : World}

theorem refl (world : World) : Alike known world world := ⟨rfl, rfl, rfl, rfl, .refl _⟩

theorem trans (h : Alike known world other) (h' : Alike known other third) :
    Alike known world third :=
  ⟨h.now.trans h'.now, h.journal.trans h'.journal, h.working.trans h'.working,
    h.homes.trans h'.homes, h.disks.trans h'.disks⟩

theorem mono {fewer : Location → Prop} (h : Alike known world other)
    (sub : ∀ place, fewer place → known place) : Alike fewer world other :=
  ⟨h.now, h.journal, h.working, h.homes, h.disks.mono sub⟩

/-- Telling the same keeps worlds alike. -/
theorem withSession (h : Alike known world other) {session session' : Session}
    (told : session.notices.drop world.session.notices.length =
      session'.notices.drop other.session.notices.length) :
    Alike known (world.withSession session) (other.withSession session') := by
  refine ⟨h.now, h.journal, h.working, h.homes, ?_⟩
  simp only [World.withSession, told, h.journal]
  cases other.journal with
  | none => exact h.disks
  | some journal =>
    simp only [Journal.write, h.now]
    split
    · exact h.disks
    · exact (h.disks.extendFile _ _).2

end Alike

/-! ## Later worlds -/

/-- The second world came of the first one by talking alone. -/
def Later (world after : World) : Prop :=
  world.Journaled → after.Journaled ∧ Alike world.OffJournal world after

theorem Later.refl (world : World) : Later world world := fun journaled => ⟨journaled, .refl world⟩

theorem Later.trans {world mid after : World} (h : Later world mid) (h' : Later mid after) :
    Later world after := by
  intro journaled
  obtain ⟨journaled, alike⟩ := h journaled
  obtain ⟨journaled, alike'⟩ := h' journaled
  refine ⟨journaled, alike.trans (alike'.mono fun place off journal hjournal => ?_)⟩
  exact off journal (alike.journal ▸ hjournal)

theorem later_withSession (world : World) (session : Session) :
    Later world (world.withSession session) := by
  intro journaled
  cases hjournal : world.journal with
  | none =>
    have hdisk : (world.withSession session).workspace.disk = world.workspace.disk := by
      simp only [World.withSession, hjournal]
    refine ⟨fun journal h => ?_, ⟨rfl, rfl, rfl, rfl, hdisk ▸ .refl _⟩⟩
    exact absurd (hjournal.symm.trans h) (by simp)
  | some journal =>
    have hdisk : (world.withSession session).workspace.disk = journal.write world.now
        (session.notices.drop world.session.notices.length) world.workspace.disk := by
      simp only [World.withSession, hjournal]
    obtain ⟨present, hpresent⟩ := journaled journal hjournal
    obtain ⟨agree, extended⟩ := Journal.write_of_present hpresent world.now
      (session.notices.drop world.session.notices.length)
    refine ⟨fun other h => ?_, ⟨rfl, rfl, rfl, rfl, ?_⟩⟩
    · cases hjournal.symm.trans h
      exact hdisk ▸ extended
    · exact hdisk ▸ agree.mono fun place off => off journal hjournal

end World

namespace Workspace

variable {known : Location → Prop} {world other : World}

/-- A file is read in alike worlds with the same success, and with the same bytes if its place is a
known one. -/
theorem contentOf_alike (h : World.Alike known world other) (path : String) :
    (∃ fault, world.workspace.contentOf path = .error fault ∧
      other.workspace.contentOf path = .error fault) ∨
    ∃ place bytes bytes',
      Disk.openPath world.workspace.disk world.workspace.working path = .ok place ∧
      world.workspace.contentOf path = .ok bytes ∧ other.workspace.contentOf path = .ok bytes' ∧
      (known place → bytes = bytes') := by
  have opened := h.disks.openPath world.workspace.working path
  simp only [contentOf, entryOf, Disk.entryOf, ← h.working, ← opened]
  cases Disk.openPath world.workspace.disk world.workspace.working path with
  | error fault => exact Or.inl ⟨fault, rfl, rfl⟩
  | ok place =>
    have shape : (world.workspace.disk.at? place).map Entry.bare =
        (other.workspace.disk.at? place).map Entry.bare := by
      rw [← Entry.at?_bare, ← Entry.at?_bare, h.disks.shape]
    have files := h.disks.files place
    unfold Entry.fileAt? at files
    simp only
    generalize world.workspace.disk.at? place = left at shape files ⊢
    generalize other.workspace.disk.at? place = right at shape files ⊢
    rcases left with _ | ⟨bytes | entries | target⟩ <;>
      rcases right with _ | ⟨bytes' | entries' | target'⟩ <;>
      simp only [Option.map_none, Option.map_some, Entry.bare, reduceCtorEq, Option.some.injEq]
        at shape
    · exact Or.inl ⟨_, rfl, rfl⟩
    · refine Or.inr ⟨place, bytes, bytes', rfl, rfl, rfl, fun hplace => ?_⟩
      exact Option.some.inj (files hplace)
    · exact Or.inl ⟨_, rfl, rfl⟩
    · exact Or.inl ⟨_, rfl, rfl⟩

theorem locate_alike (h : World.Alike known world other) (path : String) :
    world.workspace.locate path = other.workspace.locate path := by
  have homes : world.workspace.withHome path = other.workspace.withHome path := by
    simp only [withHome, h.homes]
  have resolved : Disk.resolve world.workspace.disk world.workspace.working =
      Disk.resolve other.workspace.disk other.workspace.working := by
    funext path
    rw [h.working]
    exact h.disks.resolve _ path
  simp only [locate, homes, resolved]

/-- A report is written in alike worlds with the same success; the worlds then agree on it. -/
theorem writeOutput_alike (h : World.Alike known world other) (path text : String) :
    (world.workspace.writeOutput path text).2 = (other.workspace.writeOutput path text).2 ∧
      ∀ place, (world.workspace.writeOutput path text).2 = .ok place →
        World.Alike (fun file => file = place ∨ known file)
          { world with workspace := (world.workspace.writeOutput path text).1 }
          { other with workspace := (other.workspace.writeOutput path text).1 } := by
  unfold writeOutput
  rw [← locate_alike h path]
  cases world.workspace.locate path with
  | error fault => exact ⟨rfl, fun place hplace => by cases hplace⟩
  | ok target =>
    obtain ⟨faults, -, written⟩ := h.disks.writeBelowFolders target (outputBytes text)
    simp only
    generalize Disk.writeBelowFolders world.workspace.disk target (outputBytes text) = left
      at faults written
    generalize Disk.writeBelowFolders other.workspace.disk target (outputBytes text) = right
      at faults written
    obtain ⟨left, fault⟩ := left
    obtain ⟨right, fault'⟩ := right
    cases faults
    cases fault with
    | some fault => exact ⟨rfl, fun place hplace => by cases hplace⟩
    | none =>
      refine ⟨rfl, fun place hplace => ?_⟩
      cases hplace
      exact ⟨h.now, h.journal, h.working, h.homes, written rfl⟩

end Workspace

end Synopsis
