import Synopsis.Command.Reports
import Synopsis.Proofs.Command.World

/-!
# Running commands

What the steps of a command do to a world, one equation a step, and relations between worlds that
every step keeps. A command that fails ends in the world of the step that failed.
-/

namespace Synopsis.Command

variable {α β ε : Type} {c : Command α} {f : α → Command β} {world after : World}

/-! ## Equations -/

@[simp]
theorem run_pure (a : α) (world : World) : (pure a : Command α).run.run world = (.ok a, world) :=
  rfl

theorem run_bind (c : Command α) (f : α → Command β) (world : World) :
    (c >>= f).run.run world = match c.run.run world with
      | (.ok a, after) => (f a).run.run after
      | (.error failure, after) => (.error failure, after) := by
  rw [ExceptT.run_bind, StateT.run_bind]
  rcases c.run.run world with ⟨_ | a, after⟩
  · rfl
  · rfl

theorem run_bind_ok {a : α} (h : c.run.run world = (.ok a, after)) :
    (c >>= f).run.run world = (f a).run.run after := by
  rw [run_bind, h]

theorem run_bind_error {failure : Failure} (h : c.run.run world = (.error failure, after)) :
    (c >>= f).run.run world = (.error failure, after) := by
  rw [run_bind, h]

theorem exists_run_of_isOk (c : Command α) (world : World) (h : (c.run.run world).1.isOk = true) :
    ∃ a after, c.run.run world = (.ok a, after) := by
  rcases hrun : c.run.run world with ⟨result, after⟩
  rw [hrun] at h
  cases result with
  | error failure => cases h
  | ok a => exact ⟨a, after, rfl⟩

/-- A command that succeeds has succeeded in its first step. -/
theorem run_bind_eq_ok {b : β} : (c >>= f).run.run world = (.ok b, after) ↔
    ∃ a mid, c.run.run world = (.ok a, mid) ∧ (f a).run.run mid = (.ok b, after) := by
  rw [run_bind]
  constructor
  · intro h
    split at h
    · exact ⟨_, _, ‹_›, h⟩
    · cases h
  · rintro ⟨a, mid, first, rest⟩
    rw [first]
    exact rest

/-- A command fails in its first step or after it. -/
theorem run_bind_eq_error {failure : Failure} :
    (c >>= f).run.run world = (.error failure, after) ↔
      c.run.run world = (.error failure, after) ∨
        ∃ a mid, c.run.run world = (.ok a, mid) ∧ (f a).run.run mid = (.error failure, after) := by
  rw [run_bind]
  rcases c.run.run world with ⟨other | a, mid⟩
  · constructor
    · intro h
      cases h
      exact Or.inl rfl
    · rintro (h | ⟨a, mid, ⟨⟩, -⟩)
      cases h
      rfl
  · constructor
    · exact fun h => Or.inr ⟨a, mid, rfl, h⟩
    · rintro (⟨⟨⟩⟩ | ⟨a, mid, h, rest⟩)
      cases h
      exact rest

@[simp]
theorem run_workspace (world : World) : workspace.run.run world = (.ok world.workspace, world) :=
  rfl

@[simp]
theorem run_get (world : World) : (get : Command World).run.run world = (.ok world, world) := rfl

theorem run_set (world after : World) :
    (set after : Command PUnit).run.run world = (.ok PUnit.unit, after) := rfl

@[simp]
theorem run_lift_ok (wrap : ε → Failure) (a : α) (world : World) :
    (lift wrap (.ok a)).run.run world = (.ok a, world) := rfl

@[simp]
theorem run_lift_error (wrap : ε → Failure) (e : ε) (world : World) :
    (lift wrap (.error e) : Command α).run.run world = (.error (wrap e), world) := rfl

theorem run_lift_eq_ok {wrap : ε → Failure} {result : Except ε α} {a : α} :
    (lift wrap result).run.run world = (.ok a, after) ↔ result = .ok a ∧ world = after := by
  constructor
  · intro h
    cases result with
    | error e => cases h
    | ok value => cases h; exact ⟨rfl, rfl⟩
  · rintro ⟨rfl, rfl⟩
    rfl

theorem run_lift_eq_error {wrap : ε → Failure} {result : Except ε α} {failure : Failure} :
    (lift wrap result).run.run world = (.error failure, after) ↔
      (∃ fault, result = .error fault ∧ wrap fault = failure) ∧ world = after := by
  constructor
  · intro h
    cases result with
    | error fault => cases h; exact ⟨⟨fault, rfl, rfl⟩, rfl⟩
    | ok value => cases h
  · rintro ⟨⟨fault, rfl, rfl⟩, rfl⟩
    rfl

@[simp]
theorem run_talk (part : StateM Session α) (world : World) :
    (talk part).run.run world =
      (.ok (part.run world.session).1, world.withSession (part.run world.session).2) := rfl

@[simp]
theorem run_tell (notice : Notice) (world : World) :
    (tell notice).run.run world = (.ok (), world.withSession
      { world.session with notices := world.session.notices ++ [notice] }) := rfl

theorem run_write (path text : String) (world : World) :
    (write path text).run.run world =
      ((world.workspace.writeOutput path text).2.mapError .disk,
        { world with workspace := (world.workspace.writeOutput path text).1 }) := by
  rw [write, run_bind_ok (run_get world)]
  generalize world.workspace.writeOutput path text = written
  rw [run_bind_ok (run_set world _)]
  cases written.2 <;> rfl

/-- A text is given when it can be rendered, and written if it is to be. -/
theorem run_conclude_eq_ok {output : Option String} {text : Except SizeOverflow String}
    {outcome : Outcome} : (conclude output text).run.run world = (.ok outcome, after) ↔
      text = .ok outcome.text ∧
        (writeIf output outcome.text).run.run world = (.ok outcome.place, after) := by
  constructor
  · intro h
    obtain ⟨text, _, rendering, h⟩ := run_bind_eq_ok.mp h
    obtain ⟨rendered, rfl⟩ := run_lift_eq_ok.mp rendering
    obtain ⟨place, mid, written, h⟩ := run_bind_eq_ok.mp h
    cases h
    exact ⟨rendered, written⟩
  · rintro ⟨rendered, written⟩
    rw [conclude, run_bind_ok (run_lift_eq_ok.mpr ⟨rendered, rfl⟩), run_bind_ok written]
    rfl

/-- A report is published when it can be rendered and written. -/
theorem run_publish_eq_ok {output : String} {includeCode : Bool} {facts : ProjectFacts}
    {summary : Option String} {parsed : List (FileRecord × String)}
    {summaries : List (Option String)} {outcome : ExportOutcome} :
    (publish output includeCode facts summary parsed summaries).run.run world =
        (.ok outcome, after) ↔
      ∃ text mid, Markdown.report world.workspace.workingText facts summary
          (docsOf parsed summaries) includeCode world.now.timestamp = .ok text ∧
        (write output text).run.run world = (.ok outcome.place, mid) ∧
        ((tell (.exported (Location.text outcome.place))).run.run mid).2 = after ∧
        outcome.documented = (docsOf parsed summaries).length ∧
        outcome.summarized = summaries.countP fun summary => summary.getD "" != "" := by
  constructor
  · intro h
    obtain ⟨_, _, got, h⟩ := run_bind_eq_ok.mp h
    cases got
    obtain ⟨text, _, rendering, h⟩ := run_bind_eq_ok.mp h
    obtain ⟨rendered, rfl⟩ := run_lift_eq_ok.mp rendering
    obtain ⟨place, mid, written, h⟩ := run_bind_eq_ok.mp h
    obtain ⟨_, told, telling, h⟩ := run_bind_eq_ok.mp h
    cases h
    exact ⟨text, mid, rendered, written, by rw [telling], rfl, rfl⟩
  · rintro ⟨text, mid, rendered, written, rfl, documented, summarized⟩
    rw [publish, run_bind_ok (run_get world), run_bind_ok (run_lift_eq_ok.mpr ⟨rendered, rfl⟩),
      run_bind_ok written, run_bind_ok (run_tell _ _), run_pure, ← documented, ← summarized]
    rfl

/-- What is made of a value changes no world. -/
theorem after_bind_pure (c : Command α) (g : α → β) (world : World) :
    ((c >>= fun a => pure (g a)).run.run world).2 = (c.run.run world).2 := by
  rw [run_bind]
  rcases c.run.run world with ⟨failure | a, after⟩
  · rfl
  · rfl

theorem length_of_run_mapM {f : α → Command β} {items : List α} {results : List β}
    (h : (items.mapM f).run.run world = (.ok results, after)) :
    results.length = items.length := by
  induction items generalizing results world with
  | nil =>
    cases h
    rfl
  | cons item items ih =>
    rw [List.mapM_cons] at h
    obtain ⟨first, mid, -, h⟩ := run_bind_eq_ok.mp h
    obtain ⟨rest, last, others, h⟩ := run_bind_eq_ok.mp h
    cases h
    rw [List.length_cons, List.length_cons, ih others]

/-! ## Relations that are kept -/

/-- A relation that holds when nothing is done, and of what is done in turn. -/
class Lasting (R : World → World → Prop) : Prop where
  refl : ∀ world, R world world
  trans : ∀ {world mid after}, R world mid → R mid after → R world after

/-- The command ends in a related world, whether it fails or not. -/
def Keeps (R : World → World → Prop) (c : Command α) : Prop :=
  ∀ world, R world (c.run.run world).2

namespace Keeps

variable {R : World → World → Prop} [Lasting R]

theorem pure (a : α) : Keeps R (Pure.pure a : Command α) := Lasting.refl

theorem bind (hc : Keeps R c) (hf : ∀ a, Keeps R (f a)) : Keeps R (c >>= f) := by
  intro world
  have first := hc world
  rw [run_bind]
  split
  · rename_i a mid h
    rw [h] at first
    exact Lasting.trans first (hf a mid)
  · rename_i failure mid h
    rw [h] at first
    exact first

theorem lift (wrap : ε → Failure) (result : Except ε α) : Keeps R (Command.lift wrap result) := by
  cases result <;> exact Lasting.refl

theorem workspace : Keeps R Command.workspace := Lasting.refl

theorem mapM {g : β → Command α} (items : List β) (h : ∀ item, Keeps R (g item)) :
    Keeps R (items.mapM g) := by
  induction items with
  | nil => exact pure []
  | cons item items ih =>
    rw [List.mapM_cons]
    exact bind (h item) fun first => bind ih fun rest => pure (first :: rest)

theorem forM {g : β → Command PUnit} (items : List β) (h : ∀ item, Keeps R (g item)) :
    Keeps R (items.forM g) := by
  induction items with
  | nil => exact pure PUnit.unit
  | cons item items ih => exact bind (h item) fun _ => ih

end Keeps

/-! ## Telling and talking -/

/-- A lasting relation between worlds that telling keeps. -/
class Telling (R : World → World → Prop) : Prop extends Lasting R where
  tell : ∀ notice, Keeps R (tell notice)

/-- A lasting relation between worlds that anything keeps which concerns the session alone. -/
class Talking (R : World → World → Prop) : Prop extends Lasting R where
  talk : ∀ {γ : Type} (part : StateM Session γ), Keeps R (talk part)

instance {R : World → World → Prop} [Talking R] : Telling R := ⟨fun _ => Talking.talk _⟩

section

variable {R : World → World → Prop}

theorem keeps_tell [Telling R] (notice : Notice) : Keeps R (tell notice) := Telling.tell notice

theorem keeps_extract [Telling R] (path text : String) (withTree : Bool) :
    Keeps R (extract path text withTree) := by
  unfold extract
  dsimp only
  split
  · split
    · exact .bind (keeps_tell _) fun _ => .pure _
    · exact .pure _
  · exact .pure _

theorem keeps_analyze [Telling R] (root : Location) (settings : Settings) (depth : Int) :
    Keeps R (analyze root settings depth) := by
  refine .bind .workspace fun w => .bind (.lift _ _) fun files => .bind (keeps_tell _) fun _ =>
    .bind (keeps_tell _) fun _ => .bind .workspace fun w => .bind (.lift _ _) fun facts =>
    .bind (.forM _ keeps_tell) fun _ => .pure facts

theorem keeps_parseFile [Telling R] (path : String) : Keeps R (parseFile path) := by
  refine .bind .workspace fun w => ?_
  split
  · exact .bind (keeps_tell _) fun _ => .pure _
  · exact .bind (keeps_extract _ _ _) fun _ => .pure _

theorem keeps_parseFiles [Telling R] (files : List String) (limit : Int) :
    Keeps R (parseFiles files limit) :=
  .bind (.mapM _ keeps_parseFile) fun _ => .pure _

theorem keeps_runner [Talking R] (settings : Settings) (useModel : Bool) :
    Keeps R (Command.runner settings useModel) := by
  unfold Command.runner
  split
  · exact .bind (Talking.talk _) fun _ => .pure _
  · exact .pure _

theorem keeps_summarize [Talking R] (runner : Option Runner) (subject : Subject) :
    Keeps R (summarize runner subject) := by
  unfold summarize
  split
  · exact .pure _
  · exact .bind (Talking.talk _) fun _ => .lift _ _

theorem keeps_summarizeAll [Lasting R] {runner : Option Runner}
    (asks : ∀ subject, Keeps R (summarize runner subject)) (facts : ProjectFacts) (limit : Int)
    (parsed : List (FileRecord × String)) : Keeps R (summarizeAll runner facts limit parsed) := by
  refine .bind (asks _) fun summary => ?_
  split
  · exact .pure _
  · refine .bind (.bind (.mapM _ fun entry => ?_) fun found => .pure _) fun summaries => .pure _
    exact asks _

end

/-- The second world came of the first one by notices alone. -/
structure OnlyNotices (world after : World) : Prop where
  later : World.Later world after
  session : after.session = { world.session with notices := after.session.notices }

instance : Talking World.Later where
  refl := World.Later.refl
  trans := World.Later.trans
  talk _ world := world.later_withSession _

instance : Telling OnlyNotices where
  refl world := ⟨.refl world, rfl⟩
  trans h h' := ⟨h.later.trans h'.later, by rw [h'.session, h.session]⟩
  tell _ world := ⟨world.later_withSession _, rfl⟩

end Synopsis.Command
