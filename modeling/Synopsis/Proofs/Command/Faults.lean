import Synopsis.Proofs.Command.Stages
import Synopsis.Proofs.Disk.Opening
import Synopsis.Proofs.Outcome

/-!
# What the system refuses

The system may refuse to look something up, to read it or to write it. Only a few steps of a command
fail for that: places are found without asking for anything that may be refused, and what cannot be
read of a manifest, of a file that is weighed or of a file that a report documents is passed over.
-/

namespace Synopsis

/-- The system refused something, or the root of a scan is not there or no folder. -/
inductive Failure.OfSystem : Failure → Prop
  | disk {fault : Disk.Fault} : fault.isSystem = true → OfSystem (.disk fault)
  | scanned {fault : Disk.Fault} : fault.isSystem = true → OfSystem (.scan (.disk fault))
  | missing {root : String} : OfSystem (.scan (.missing root))
  | notFolder {root : String} : OfSystem (.scan (.notFolder root))
  | project {fault : Disk.Fault} : fault.isSystem = true → OfSystem (.project (.disk fault))

/-- A user is told of whatever the system refused. -/
theorem Failure.OfSystem.isReported {failure : Failure} (refused : failure.OfSystem) :
    failure.isReported = true := by
  cases refused with
  | disk isSystem => exact isSystem
  | scanned isSystem => exact isSystem
  | missing => rfl
  | notFolder => rfl
  | project isSystem => exact isSystem

/-! ## Places are found without asking -/

theorem Disk.not_isSystem_of_resolve {disk : Entry} {working : Location} {path : String}
    {fault : Fault} (unresolved : resolve disk working path = .error fault) :
    fault.isSystem = false := by
  rcases resolve_eq_error unresolved with rfl | ⟨place, rfl⟩
  · rfl
  · rfl

theorem Workspace.not_isSystem_of_locate {w : Workspace} {path : String} {fault : Disk.Fault}
    (unlocated : w.locate path = .error fault) : fault.isSystem = false := by
  rcases bind_eq_error.mp unlocated with homeless | ⟨home, -, unresolved⟩
  · unfold withHome at homeless
    dsimp only at homeless
    split at homeless
    · split at homeless
      · cases homeless
        rfl
      · cases homeless
    · cases homeless
  · exact Disk.not_isSystem_of_resolve unresolved

namespace Project

variable {w : Workspace} {root : Location} {path : String} {files : List String}

theorem not_isSystem_of_wayFrom {fault : Disk.Fault} (h : wayFrom w root path = .error fault) :
    fault.isSystem = false := by
  have textual (h : textualWay w root path = .error fault) : fault.isSystem = false := by
    unfold textualWay at h
    split at h
    · cases h
    · cases h
      rfl
  unfold wayFrom at h
  split at h
  · split at h
    · cases h
    · cases h
    · exact textual h
  · exact textual h
  · rename_i unresolved
    cases h
    exact Disk.not_isSystem_of_resolve unresolved

theorem not_isSystem_of_sizeOf {fault : Disk.Fault} (h : sizeOf w path = .error fault) :
    fault.isSystem = false := by
  unfold sizeOf at h
  split at h
  · cases h
  · cases h
    rfl
  · cases h

/-- The system refuses nothing that is looked up for the facts about a project. -/
theorem not_ofSystem_of_facts {fault : Fault} (h : facts w root files = .error fault) :
    ¬ (Failure.project fault).OfSystem := by
  rintro (_ | _ | _ | _ | isSystem)
  rename_i fault
  have lifted {α : Type} {result : Except Disk.Fault α}
      (h : lift .disk result = .error (.disk fault)) : result = .error fault := by
    cases result with
    | error other =>
      cases h
      rfl
    | ok a => cases h
  have unlifted {α : Type} {result : Except Manifest.Fault α} :
      lift .manifest result ≠ .error (.disk fault) := by
    cases result <;> rintro ⟨⟩
  rcases bind_eq_error.mp h with h | ⟨ways, -, h⟩
  · obtain ⟨path, -, unfound⟩ := mapM_eq_error (lifted h)
    cases isSystem.symm.trans (not_isSystem_of_wayFrom unfound)
  rcases bind_eq_error.mp h with h | ⟨sizes, -, h⟩
  · obtain ⟨path, -, unweighed⟩ := mapM_eq_error (lifted h)
    cases isSystem.symm.trans (not_isSystem_of_sizeOf unweighed)
  rcases bind_eq_error.mp h with h | ⟨declared, -, h⟩
  · exact unlifted h
  rcases bind_eq_error.mp h with h | ⟨package, -, h⟩
  · exact unlifted h
  cases h

end Project

namespace Command

variable {α β ε : Type} {c : Command α} {f : α → Command β} {world after : World}
  {failure : Failure}

/-! ## Failing -/

/-- The command fails in the world. -/
def Fails (c : Command α) (world : World) (failure : Failure) : Prop :=
  ∃ after, c.run.run world = (.error failure, after)

theorem not_fails_of_isOk (h : (c.run.run world).1.isOk = true) : ¬ Fails c world failure := by
  rintro ⟨after, failed⟩
  rw [failed] at h
  cases h

theorem fails_bind_iff : Fails (c >>= f) world failure ↔
    Fails c world failure ∨
      ∃ a mid, c.run.run world = (.ok a, mid) ∧ Fails (f a) mid failure := by
  constructor
  · rintro ⟨after, failed⟩
    rcases run_bind_eq_error.mp failed with first | ⟨a, mid, first, rest⟩
    · exact Or.inl ⟨after, first⟩
    · exact Or.inr ⟨a, mid, first, after, rest⟩
  · rintro (⟨after, first⟩ | ⟨a, mid, first, after, rest⟩)
    · exact ⟨after, run_bind_error first⟩
    · exact ⟨after, by rw [run_bind_ok first, rest]⟩

theorem fails_workspace_bind_iff {f : Workspace → Command β} :
    Fails (workspace >>= f) world failure ↔ Fails (f world.workspace) world failure := by
  rw [Fails, Fails, run_bind_ok (run_workspace world)]

theorem fails_lift_iff {wrap : ε → Failure} {result : Except ε α} :
    Fails (lift wrap result) world failure ↔
      ∃ fault, result = .error fault ∧ wrap fault = failure := by
  constructor
  · rintro ⟨after, failed⟩
    exact (run_lift_eq_error.mp failed).1
  · exact fun told => ⟨world, run_lift_eq_error.mpr ⟨told, rfl⟩⟩

theorem fails_lift_bind_iff {wrap : ε → Failure} {result : Except ε α} :
    Fails (lift wrap result >>= f) world failure ↔
      (∃ fault, result = .error fault ∧ wrap fault = failure) ∨
        ∃ a, result = .ok a ∧ Fails (f a) world failure := by
  rw [fails_bind_iff, fails_lift_iff]
  refine or_congr_right ?_
  constructor
  · rintro ⟨a, mid, first, rest⟩
    obtain ⟨told, rfl⟩ := run_lift_eq_ok.mp first
    exact ⟨a, told, rest⟩
  · rintro ⟨a, told, rest⟩
    exact ⟨a, world, run_lift_eq_ok.mpr ⟨told, rfl⟩, rest⟩

theorem fails_write_iff {path text : String} : Fails (write path text) world failure ↔
    ∃ fault, (world.workspace.writeOutput path text).2 = .error fault ∧ .disk fault = failure := by
  rw [Fails, run_write]
  cases (world.workspace.writeOutput path text).2 with
  | ok place =>
    constructor
    · rintro ⟨after, ⟨⟩⟩
    · rintro ⟨fault, ⟨⟩, -⟩
  | error fault =>
    constructor
    · rintro ⟨after, ⟨⟩⟩
      exact ⟨fault, rfl, rfl⟩
    · rintro ⟨_, ⟨⟩, rfl⟩
      exact ⟨_, rfl⟩

/-- The system does not refuse to find a place. -/
theorem fails_locate_bind_iff {path : String} {w : Workspace} {f : Location → Command β}
    (refused : failure.OfSystem) : Fails (lift .disk (w.locate path) >>= f) world failure ↔
      ∃ place, w.locate path = .ok place ∧ Fails (f place) world failure := by
  rw [fails_lift_bind_iff]
  refine or_iff_right ?_
  rintro ⟨fault, unlocated, rfl⟩
  cases refused with
  | disk isSystem => cases isSystem.symm.trans (Workspace.not_isSystem_of_locate unlocated)

/-! ## Steps to which the system refuses nothing -/

/-- Whatever the command fails for, the system did not refuse anything. -/
def Unrefused (c : Command α) : Prop :=
  ∀ world failure, Fails c world failure → ¬ failure.OfSystem

namespace Unrefused

theorem of_succeeds (h : ∀ world, (c.run.run world).1.isOk = true) : Unrefused c :=
  fun world _ failed => absurd failed (not_fails_of_isOk (h world))

theorem pure (a : α) : Unrefused (Pure.pure a : Command α) := of_succeeds fun _ => rfl

theorem bind (hc : Unrefused c) (hf : ∀ a, Unrefused (f a)) : Unrefused (c >>= f) := by
  intro world failure failed
  rcases fails_bind_iff.mp failed with first | ⟨a, mid, -, rest⟩
  · exact hc world failure first
  · exact hf a mid failure rest

theorem lift {wrap : ε → Failure} {result : Except ε α}
    (h : ∀ fault, result = .error fault → ¬ (wrap fault).OfSystem) :
    Unrefused (Command.lift wrap result) := by
  intro world failure failed
  obtain ⟨fault, told, rfl⟩ := fails_lift_iff.mp failed
  exact h fault told

theorem workspace : Unrefused Command.workspace := of_succeeds fun _ => rfl

theorem talk (part : StateM Session α) : Unrefused (Command.talk part) := of_succeeds fun _ => rfl

theorem mapM {g : β → Command α} (items : List β) (h : ∀ item, Unrefused (g item)) :
    Unrefused (items.mapM g) := by
  induction items with
  | nil => exact pure []
  | cons item items ih =>
    rw [List.mapM_cons]
    exact bind (h item) fun first => bind ih fun rest => pure (first :: rest)

theorem forM {g : β → Command PUnit} (items : List β) (h : ∀ item, Unrefused (g item)) :
    Unrefused (items.forM g) := by
  induction items with
  | nil => exact pure PUnit.unit
  | cons item items ih => exact bind (h item) fun _ => ih

end Unrefused

theorem unrefused_extract (path text : String) (withTree : Bool) :
    Unrefused (extract path text withTree) := by
  unfold extract
  dsimp only
  split
  · split
    · exact .bind (.talk _) fun _ => .pure _
    · exact .pure _
  · exact .pure _

/-- A file that cannot be read is left out of a report. -/
theorem unrefused_parseFile (path : String) : Unrefused (parseFile path) := by
  refine .bind .workspace fun w => ?_
  split
  · exact .bind (.talk _) fun _ => .pure _
  · exact .bind (unrefused_extract _ _ _) fun _ => .pure _

theorem unrefused_parseFiles (files : List String) (limit : Int) :
    Unrefused (parseFiles files limit) :=
  .bind (.mapM _ unrefused_parseFile) fun _ => .pure _

theorem unrefused_aggregate (root : Location) (files : List String) :
    Unrefused (aggregate root files) :=
  .bind .workspace fun _ =>
    .bind (.lift fun _ unfound => Project.not_ofSystem_of_facts unfound) fun _ =>
      .bind (.forM _ fun _ => .talk _) fun _ => .pure _

/-- To the work on a project that was scanned the system refuses nothing. -/
theorem fails_analyze_iff {root : Location} {settings : Settings} {depth : Int}
    (refused : failure.OfSystem) : Fails (analyze root settings depth) world failure ↔
      ∃ fault, world.workspace.scan (Location.text root) depth settings.scan.excludePaths =
        .error fault ∧ Failure.scan fault = failure := by
  rw [analyze, fails_workspace_bind_iff, fails_lift_bind_iff]
  refine or_iff_left ?_
  rintro ⟨files, -, failed⟩
  have unrefused : Unrefused (do
      tell (.scanned (Location.text root) files.length depth)
      tell (.discovered files.length (Location.text root))
      aggregate root files) :=
    .bind (.talk _) fun _ => .bind (.talk _) fun _ => unrefused_aggregate _ _
  exact unrefused world failure failed refused

theorem unrefused_runner (settings : Settings) (useModel : Bool) :
    Unrefused (Command.runner settings useModel) := by
  unfold Command.runner
  split
  · exact .bind (.talk _) fun _ => .pure _
  · exact .pure _

theorem unrefused_summarize (runner : Option Runner) (subject : Subject) :
    Unrefused (summarize runner subject) := by
  unfold summarize
  split
  · exact .pure _
  · exact .bind (.talk _) fun _ => .lift fun _ _ => nofun

theorem unrefused_summarizeAll (runner : Option Runner) (facts : ProjectFacts) (limit : Int)
    (parsed : List (FileRecord × String)) :
    Unrefused (summarizeAll runner facts limit parsed) := by
  refine .bind (unrefused_summarize _ _) fun summary => ?_
  split
  · exact .pure _
  · exact .bind (.bind (.mapM _ fun _ => unrefused_summarize _ _) fun _ => .pure _) fun _ => .pure _

theorem unrefused_summary_compose (options : SummaryOptions) (known : Settings × ProjectFacts) :
    Unrefused ((summaryStages options).compose known) :=
  .bind (unrefused_runner _ _) fun _ => .bind (unrefused_summarize _ _) fun _ =>
    .lift fun _ _ => nofun

theorem unrefused_file_compose (options : FileOptions) (known : Settings × FileRecord × String) :
    Unrefused ((fileStages options).compose known) :=
  .bind (unrefused_runner _ _) fun _ => .bind (unrefused_summarize _ _) fun _ =>
    .lift fun _ _ => nofun

theorem unrefused_report_compose (options : ExportOptions)
    (known : Settings × ProjectFacts × List (FileRecord × String)) :
    Unrefused ((reportStages options).compose known) :=
  .bind (unrefused_runner _ _) fun _ => .bind (unrefused_summarizeAll _ _ _ _) fun _ =>
    .bind (.of_succeeds fun _ => rfl) fun _ => .bind (.lift fun _ _ => nofun) fun _ => .pure _

end Command

end Synopsis
