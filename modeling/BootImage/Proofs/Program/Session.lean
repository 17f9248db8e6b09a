import BootImage.Call.Scripted
import BootImage.Proofs.Program.Entrance

/-!
# Sessions

A session is a sequence of steps on one tree of files: runs of the program, builds on their own, and
loading of settings. As long as the programs that are called leave the files alone, nothing that is
there is ever lost or changed in a session, and a step that begins no build changes nothing. A step
that begins one either finds a file in the way of its output directory, or adds that directory with
those missing above it, before it runs anything; over links it may do neither.
-/

namespace BootImage

inductive SessionStep where
  | run (runner : Runner) (inv : Invocation)
  /-- a build of the project in `projectDir`, seen from `cwd`, with the dependency `found` -/
  | build (runner : Runner) (o : BuildOptions) (settings : Settings) (found : FoundDependency)
    (cwd projectDir : String)
  | load (complain : String → String) (env : Environment) (projectDir : String)

namespace SessionStep

def job (o : BuildOptions) (settings : Settings) (found : FoundDependency)
    (cwd projectDir : String) : Job where
  options := o
  layout := Layout.resolve cwd o found.dir.written projectDir settings
    (found.rootName.map WideText.written)
  settings := settings
  cwd := cwd

def loading (complain : String → String) (env : Environment) (projectDir : String) :
    Action (Except Settings.LoadError Settings) := do
  return Settings.load complain (← Action.tree) env projectDir

def perform (t : FileTree) : SessionStep → FileTree
  | run runner inv => (inv.observe runner t).tree
  | build runner o settings found cwd projectDir =>
    (((job o settings found cwd projectDir).run runner).run.run { tree := t }).2.tree
  | load complain env projectDir => ((loading complain env projectDir).run.run { tree := t }).2.tree

def projectDir? : SessionStep → Option String
  | run _ inv => some (Path.resolve inv.cwd [inv.projectDir])
  | build _ _ _ _ cwd projectDir => some (Path.resolve cwd [projectDir])
  | load .. => none

def LeavesFiles : SessionStep → Prop
  | run runner _ | build runner .. => runner.LeavesFiles
  | load .. => True

def BeginsBuild (t : FileTree) : SessionStep → Prop
  | run runner inv => inv.Enters runner { tree := t }
  | build .. => True
  | load .. => False

/-- A step takes the course of a build that prepares its output directory, and leaves what that
course leaves. -/
def Prepares (t : FileTree) (step : SessionStep) : Prop :=
  match step with
  | run runner inv => ∃ as status,
    inv.Runs runner { tree := t } as status ∧ inv.Unfolds runner { tree := t } as status ∧
    step.perform t = (after runner { tree := t } as).tree ∧
    BootImage.Prepares runner { tree := t } (t.way (outDirOf inv.cwd inv.projectDir)) as
      (.ok status)
  | build runner o settings found cwd projectDir => ∃ as outcome,
    let job := job o settings found cwd projectDir
    Takes runner (job.run runner) { tree := t } as outcome ∧
    job.Builds runner { tree := t } as outcome ∧
    step.perform t = (after runner { tree := t } as).tree ∧
    BootImage.Prepares runner { tree := t } (t.way (outDirOf cwd projectDir)) as outcome
  | load .. => True

end SessionStep

def session (t : FileTree) (steps : List SessionStep) : FileTree :=
  steps.foldl SessionStep.perform t

theorem FileTree.canName_congr {t u : FileTree} (h : u.origin = t.origin) (path : String) :
    u.canName path = t.canName path := by
  rw [canName, canName, way, way, h]

namespace SessionStep

variable {t : FileTree} {runner : Runner}

theorem prepares_of_enters {inv : Invocation} {s : RunState} {as : List Act} {status : Int}
    (unfolds : inv.Unfolds runner s as status) (enters : inv.Enters runner s)
    (still : runner.LeavesFiles) (proper : s.tree.Proper)
    (named : s.tree.canName (outDirOf inv.cwd inv.projectDir) = true)
    (direct : s.tree.Direct [] (s.tree.way (outDirOf inv.cwd inv.projectDir))) :
    BootImage.Prepares runner s (s.tree.way (outDirOf inv.cwd inv.projectDir)) as
      (.ok status) := by
  obtain ⟨job, first, bs, o, rfl, rfl, hd, hx, outDir, builds⟩ := unfolds.exists_builds enters
  have tree := still.tree_after s hd
  rw [← outDir, ← tree] at named direct ⊢
  rw [← tree] at proper
  have status (h : o = .ok 1) : (.ok (exitStatus o) : Except Failure Int) = .ok 1 := by
    rw [h, exitStatus]
  exact (builds.prepares still proper named direct).extend still hd hx
    (Invocation.directories_closing o) (Invocation.exchanges_closing o) status

theorem perform_of_beginsBuild {step : SessionStep} (still : step.LeavesFiles)
    (begins : step.BeginsBuild t) : ∃ d ∈ step.projectDir?,
      step.perform t = (t.makeDirectories (Path.join [d, "out"])).2 := by
  cases step with
  | load complain env projectDir => exact begins.elim
  | build runner o settings found cwd projectDir =>
      obtain ⟨as, outcome, takes, builds⟩ :=
        (job o settings found cwd projectDir).run_builds runner { tree := t }
      exact ⟨_, rfl, (congrArg (fun r => r.2.tree) takes.ends).trans (builds.tree_after still)⟩
  | run runner inv => exact ⟨_, rfl, Invocation.tree_observe_of_enters still begins⟩

/-- A step that begins no build changes nothing. -/
theorem perform_of_not_beginsBuild {step : SessionStep} (still : step.LeavesFiles)
    (stays : ¬ step.BeginsBuild t) : step.perform t = t := by
  cases step with
  | load complain env projectDir => rfl
  | build runner o settings found cwd projectDir => exact absurd trivial stays
  | run runner inv => exact Invocation.tree_observe_of_not_enters still stays

theorem perform_eq {step : SessionStep} (still : step.LeavesFiles) :
    step.perform t = t ∨ ∃ path, step.perform t = (t.makeDirectories path).2 := by
  by_cases begins : step.BeginsBuild t
  · obtain ⟨d, -, made⟩ := perform_of_beginsBuild still begins
    exact .inr ⟨_, made⟩
  · exact .inl (perform_of_not_beginsBuild still begins)

theorem find?_perform {step : SessionStep} (still : step.LeavesFiles) {l : Location} {e : Entry}
    (he : t.find? l = some e) : (step.perform t).find? l = some e := by
  rcases perform_eq (t := t) still with same | ⟨path, made⟩
  · rwa [same]
  · rw [made]
    exact FileTree.find?_makeDirectories_of_eq_some he path

theorem prepares {step : SessionStep} (proper : t.Proper) (still : step.LeavesFiles)
    (named : ∀ d ∈ step.projectDir?,
      Path.isAbsolute d.toList = true ∧ t.canName (Path.join [d, "out"]) = true)
    (unlinked : ∀ d ∈ step.projectDir?, t.Unlinked [] (t.way (Path.join [d, "out"])))
    (begins : step.BeginsBuild t) : step.Prepares t := by
  cases step with
  | load complain env projectDir => trivial
  | build runner o settings found cwd projectDir =>
      obtain ⟨absolute, named⟩ := named _ rfl
      obtain ⟨as, outcome, takes, builds⟩ :=
        (job o settings found cwd projectDir).run_builds runner { tree := t }
      have direct := FileTree.direct_join absolute (by decide) (by decide) (unlinked _ rfl)
      exact ⟨as, outcome, takes, builds, congrArg (fun r => r.2.tree) takes.ends,
        builds.prepares still proper named direct⟩
  | run runner inv =>
      obtain ⟨absolute, named⟩ := named _ rfl
      obtain ⟨as, status, runs, unfolds⟩ := inv.run_unfolds runner { tree := t }
      have direct := FileTree.direct_join absolute (by decide) (by decide) (unlinked _ rfl)
      exact ⟨as, status, runs, unfolds, runs.tree_observe,
        prepares_of_enters unfolds begins still proper named direct⟩

end SessionStep

/-- What every session keeps: files that lie in directories, the directory that they are seen from,
and ways without links. -/
theorem session_keeps {t : FileTree} {steps : List SessionStep}
    (still : ∀ step ∈ steps, step.LeavesFiles) :
    (t.Proper → (session t steps).Proper) ∧ (session t steps).origin = t.origin ∧
      ∀ names, t.Unlinked [] names → (session t steps).Unlinked [] names := by
  induction steps generalizing t with
  | nil => exact ⟨id, rfl, fun _ => id⟩
  | cons step steps ih =>
      rw [List.forall_mem_cons] at still
      have first : session t (step :: steps) = session (step.perform t) steps := rfl
      obtain ⟨proper, origin, unlinked⟩ := ih (t := step.perform t) still.2
      rw [first]
      rcases SessionStep.perform_eq (t := t) still.1 with same | ⟨path, made⟩
      · rw [same] at proper origin unlinked ⊢
        exact ⟨proper, origin, unlinked⟩
      · rw [made] at proper origin unlinked ⊢
        exact ⟨fun h => proper (h.makeDirectories path),
          origin.trans (FileTree.origin_makeDirectories t path),
          fun names h => unlinked names (h.makeDirectories path)⟩

/-- In every session each step does only what it may to the files that it meets. What is there stays
as it is, and steps that begin no build change nothing. If no link lies on the way to the output
directory of a build, a file that is in the way of it keeps the build from running anything and
gives it the status 1, and otherwise just the missing directories are added, before the build runs
anything. -/
theorem session_frames {t : FileTree} (proper : t.Proper) {steps : List SessionStep}
    (still : ∀ step ∈ steps, step.LeavesFiles)
    (named : ∀ step ∈ steps, ∀ d ∈ step.projectDir?,
      Path.isAbsolute d.toList = true ∧ t.canName (Path.join [d, "out"]) = true)
    {before later : List SessionStep} {step : SessionStep}
    (cut : steps = before ++ step :: later) :
    let u := session t before
    (∀ l e, u.find? l = some e → (step.perform u).find? l = some e) ∧
      (¬ step.BeginsBuild u → step.perform u = u) ∧
      (step.BeginsBuild u →
        (∀ d ∈ step.projectDir?, t.Unlinked [] (t.way (Path.join [d, "out"]))) →
        step.Prepares u) := by
  rw [cut, List.forall_mem_append, List.forall_mem_cons] at still named
  obtain ⟨proper', origin, kept⟩ := session_keeps (t := t) still.1
  have way (path : String) : (session t before).way path = t.way path := by
    rw [FileTree.way, FileTree.way, origin]
  refine ⟨fun l e => SessionStep.find?_perform still.2.1,
    SessionStep.perform_of_not_beginsBuild still.2.1, fun begins unlinked =>
      SessionStep.prepares (proper' proper) still.2.1 (fun d hd => ?_) (fun d hd => ?_) begins⟩
  · rw [FileTree.canName_congr origin]
    exact named.2.1 d hd
  · rw [way]
    exact kept _ (unlinked d hd)

/-- A session that loads settings, asks for help, builds, and finds a file in the way of another
build. A link beside the output directories does not matter. -/
theorem session_frames_kernel :
    let t : FileTree := ⟨"/work", [(["work"], .directory), (["srv"], .file [] false),
      (["work", "latest"], .link "kernel/out")]⟩
    let last : SessionStep := .build (.scripted []) {} {} ⟨"/boot", none⟩ "/work" "/srv/kernel"
    last.Prepares (session t [.load (fun _ => "") [] "/work/kernel",
      .run (.scripted []) { args := ["--help"] },
      .build (.scripted []) {} {} ⟨"/boot", none⟩ "/work" "kernel"]) := by
  have still : Runner.LeavesFiles (.scripted []) := fun _ _ _ => rfl
  intro t last
  refine (session_frames (t := t) (by decide) ?_ ?_ (show _ = _ ++ last :: [] from rfl)).2.2
    trivial ?_
  · simp only [List.cons_append, List.nil_append, List.forall_mem_cons]
    exact ⟨trivial, still, still, still, by simp⟩
  · simp only [List.cons_append, List.nil_append, List.forall_mem_cons, SessionStep.projectDir?,
      Option.mem_some_iff, forall_eq', Option.not_mem_none, false_implies, implies_true, true_and,
      last]
    decide +kernel
  · simp only [SessionStep.projectDir?, Option.mem_some_iff, forall_eq', last]
    decide +kernel

/-- A link that leads nowhere in the place of the output directory keeps a build from making it,
though no file is in the way. -/
theorem session_frames_not_over_link :
    let t : FileTree := ⟨"/work", [(["work"], .directory), (["work", "out"], .link "nowhere")]⟩
    let step : SessionStep := .build (.scripted []) {} {} ⟨"/boot", none⟩ "/work" "."
    t.Proper ∧ step.LeavesFiles ∧ step.projectDir? = some "/work" ∧
      t.canName (Path.join ["/work", "out"]) = true ∧ step.BeginsBuild t ∧
      ¬ t.Blocked (t.way (Path.join ["/work", "out"])) ∧
      (step.perform t).find? ["work", "out"] = some (.link "nowhere") ∧
      (step.perform t).find? ["work", "nowhere"] = none := by
  intro t step
  exact ⟨by decide, fun _ _ _ => rfl, by decide +kernel, by decide +kernel, trivial,
    by decide +kernel, by decide +kernel, by decide +kernel⟩

end BootImage
