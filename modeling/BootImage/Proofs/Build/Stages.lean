import BootImage.Build.Pipeline
import BootImage.Proofs.Action.Course

/-!
# The course of a stage

Each stage but the first and the last makes one call. It announces the call before, tells the
problems the call shows after, and when the images were built it tells where they are. The status
of the stage is that of the call.
-/

namespace BootImage

def Line.stage? : Line → Option Stage
  | detail (.stage s) => some s
  | _ => none

@[simp] theorem Line.stage?_progress (p : Progress) : (Line.progress p).stage? = none := rfl

@[simp] theorem Line.stage?_problem (p : Problem) : (Line.problem p).stage? = none := rfl

@[simp] theorem Line.stage?_stage (s : Stage) : (Line.detail (.stage s)).stage? = some s := rfl

def stages (as : List Act) : List Stage := as.filterMap fun a => a.line?.bind Line.stage?

@[simp] theorem stages_nil : stages [] = [] := rfl

@[simp] theorem stages_line_cons (l : Line) (as : List Act) :
    stages (.line l :: as) = l.stage?.toList ++ stages as := by
  cases h : l.stage? <;> simp [stages, Act.line?, h]

@[simp] theorem stages_makeDirectories_cons (path : String) (made : Except FileError Unit)
    (as : List Act) : stages (.makeDirectories path made :: as) = stages as := rfl

@[simp] theorem stages_call_cons (c : Call) (outcome : Except Failure CallResult)
    (as : List Act) : stages (.call c outcome :: as) = stages as := rfl

@[simp] theorem stages_append (as bs : List Act) : stages (as ++ bs) = stages as ++ stages bs :=
  List.filterMap_append

@[simp] theorem stages_map_line (ls : List Line) :
    stages (ls.map .line) = ls.filterMap Line.stage? := by
  induction ls with
  | nil => rfl
  | cons l ls ih => cases h : l.stage? <;> simp [ih, h]

/-- The lines of a call's problems; a failure to make the call is not told here. -/
def Exchange.problems (x : Exchange) : List Line :=
  match x.outcome with
  | .ok r => (callProblems x.call.command r).map .problem
  | .error _ => []

theorem eq_of_mem_callProblems {command : String} {r : CallResult} {p : Problem}
    (h : p ∈ callProblems command r) :
    p = .notFound command ∨ p = .emulatorNeeded ∨ p = .emulatorSource ∨
      (∃ message, p = .notStarted command message) ∨ ∃ signal, p = .signalled signal := by
  rw [callProblems, List.mem_append] at h
  rcases h with h | h
  · split at h
    · rw [spawnProblems] at h
      split at h
      · rcases List.mem_cons.1 h with rfl | h
        · exact .inl rfl
        · split at h <;> simp at h
          exact .inr (h.imp_right .inl)
      · exact .inr (.inr (.inr (.inl ⟨_, List.mem_singleton.1 h⟩)))
    · cases h
  · obtain ⟨signal, -, rfl⟩ := Option.map_eq_some_iff.1 (Option.mem_toList.1 h)
    exact .inr (.inr (.inr (.inr ⟨signal, rfl⟩)))

namespace Job

def startActs (x : Exchange) : List Act :=
  .line (.progress (.running x.call.command x.call.args)) :: .call x.call x.outcome ::
    x.problems.map .line

def outDirActs (job : Job) (made : Except FileError Unit) : List Act :=
  .makeDirectories job.layout.outDir made :: match made with
    | .ok () => []
    | .error e => [.line (.problem (.outDirNotMade job.layout.outDir e))]

def outDirStatus : Except FileError Unit → Int
  | .ok () => 0
  | .error _ => 1

def call? (job : Job) : Stage → Option Call
  | .ensureOutDir | .done => none
  | .compile =>
    some ⟨.run, job.settings.cargoPath.written, compileArgs job.options, some job.layout.projectDir⟩
  | .buildImage =>
    some ⟨.run, job.settings.cargoPath.written, imageArgs job.layout,
      some job.layout.dependencyRootDir⟩
  | .run =>
    some ⟨.run, job.settings.qemuPath.written,
      emulatorArgs job.options job.biosPath (job.layout.artifact .uefiImage),
      some job.layout.projectDir⟩

def notices (job : Job) : Stage → List Line
  | .run => if job.options.waitForDebugger then [.progress .waitingForDebugger] else []
  | _ => []

def results (job : Job) (tree : FileTree) : Stage → Except Failure Int → List Line
  | .buildImage, .ok 0 => .progress .diskImages :: Artifact.all.map (job.artifactLine tree)
  | _, _ => []

def heralds (job : Job) (s : Stage) (c : Call) : List Line :=
  .detail (.stage s) :: (job.notices s ++ [.progress (.running c.command c.args)])

def callActs (job : Job) (s : Stage) (x : Exchange) : List Act :=
  (job.notices s).map .line ++ startActs x

def stageActs (job : Job) (s : Stage) (x : Exchange) (tree : FileTree) : List Act :=
  job.callActs s x ++ (job.results tree s x.status).map .line

@[simp] theorem exchanges_startActs (x : Exchange) : exchanges (startActs x) = [x] := by
  simp [startActs]

@[simp] theorem exchanges_stageActs (job : Job) (s : Stage) (x : Exchange) (tree : FileTree) :
    exchanges (job.stageActs s x tree) = [x] := by
  simp [stageActs, callActs]

@[simp] theorem directories_stageActs (job : Job) (s : Stage) (x : Exchange) (tree : FileTree) :
    directories (job.stageActs s x tree) = [] := by
  simp [stageActs, callActs, startActs]

theorem head?_args_of_call? {job : Job} {st : Stage} {c : Call} (h : job.call? st = some c) :
    c.args.head? = match st with
      | .compile => some "build"
      | .buildImage => some "builder"
      | .run => some "-bios"
      | .ensureOutDir | .done => none := by
  cases st <;> cases h <;> rfl

/-- No two stages make the same call. -/
theorem eq_of_call? {job : Job} {st st' : Stage} {c : Call} (h : job.call? st = some c)
    (h' : job.call? st' = some c) : st = st' := by
  have word := (head?_args_of_call? h).symm.trans (head?_args_of_call? h')
  cases st with
  | ensureOutDir | done => cases h
  | compile | buildImage | run => cases st' <;> first | rfl | simp at word

theorem eq_of_mem_notices {job : Job} {st : Stage} {l : Line} (h : l ∈ job.notices st) :
    l = .progress .waitingForDebugger := by
  rw [Job.notices.eq_def] at h
  split at h
  · split at h
    · exact List.mem_singleton.1 h
    · cases h
  · cases h

theorem eq_of_mem_results {job : Job} {tree : FileTree} {st : Stage}
    {status : Except Failure Int} {l : Line} (h : l ∈ job.results tree st status) :
    st = .buildImage ∧ status = .ok 0 ∧
      (l = .progress .diskImages ∨ ∃ a, l = job.artifactLine tree a) := by
  rw [Job.results.eq_def] at h
  split at h
  · refine ⟨rfl, rfl, (List.mem_cons.1 h).imp_right fun h => ?_⟩
    obtain ⟨a, -, rfl⟩ := List.mem_map.1 h
    exact ⟨a, rfl⟩
  · cases h

@[simp] theorem stage?_artifactLine (job : Job) (tree : FileTree) (a : Artifact) :
    (job.artifactLine tree a).stage? = none := by
  rw [artifactLine]
  split <;> rfl

@[simp] theorem stages_stageActs (job : Job) (s : Stage) (x : Exchange) (tree : FileTree) :
    stages (job.stageActs s x tree) = [] := by
  have notices : (job.notices s).filterMap Line.stage? = [] := by
    refine List.filterMap_eq_nil_iff.2 fun l hl => ?_
    rw [eq_of_mem_notices hl, Line.stage?_progress]
  have problems : x.problems.filterMap Line.stage? = [] := by
    rw [Exchange.problems]
    split
    · simp [List.filterMap_eq_nil_iff]
    · rfl
  have results : (job.results tree s x.status).filterMap Line.stage? = [] := by
    refine List.filterMap_eq_nil_iff.2 fun l hl => ?_
    obtain ⟨-, -, rfl | ⟨a, rfl⟩⟩ := eq_of_mem_results hl
    · rfl
    · exact stage?_artifactLine job tree a
  simp [stageActs, callActs, startActs, notices, problems, results]

variable (runner : Runner) (job : Job) (s : RunState)

theorem perform_ensureOutDir_takes :
    Takes runner (job.perform runner .ensureOutDir) s
      (job.outDirActs (s.tree.makeDirectories job.layout.outDir).1)
      (.ok (outDirStatus (s.tree.makeDirectories job.layout.outDir).1)) := by
  have made := Takes.makeDirectories runner s job.layout.outDir
  revert made
  generalize (s.tree.makeDirectories job.layout.outDir).1 = result
  intro made
  cases result with
  | ok u => exact made.bind (Takes.pure runner _ 0)
  | error e => exact made.bind ((Takes.line runner _ _).bind_pure fun _ => 1)

theorem start_takes (command : String) (args : List String) (cwd : String) :
    ∃ x : Exchange, x.call = ⟨.run, command, args, some cwd⟩ ∧
      Takes runner (start runner command args cwd) s (startActs x) x.status := by
  have announced := Takes.line runner s (.progress (.running command args))
  have called := Takes.call runner (after runner s [.line (.progress (.running command args))])
    ⟨.run, command, args, some cwd⟩
  revert called
  generalize (runner _ _ _).outcome = outcome
  intro called
  refine ⟨⟨⟨.run, command, args, some cwd⟩, outcome⟩, rfl, announced.bind ?_⟩
  cases outcome with
  | error f => exact called.bind_error _
  | ok r =>
      exact called.bind ((Takes.lines runner _ _).bind_pure fun _ => r.exitCode)

theorem results_eq_nil {status : Except Failure Int} (h : status ≠ .ok 0) (tree : FileTree)
    (st : Stage) : job.results tree st status = [] := by
  unfold results
  split
  · exact absurd rfl h
  · rfl

/-- A stage that makes a call takes the course laid out for it, and its status is that of the
call. -/
theorem perform_takes {st : Stage} {c : Call} (h : job.call? st = some c) :
    ∃ x : Exchange, x.call = c ∧ Takes runner (job.perform runner st) s
      (job.stageActs st x (after runner s (job.callActs st x)).tree) x.status := by
  cases st with
  | ensureOutDir | done => cases h
  | compile =>
      obtain ⟨x, hx, started⟩ := start_takes runner s job.settings.cargoPath.written
        (compileArgs job.options) job.layout.projectDir
      refine ⟨x, hx.trans (Option.some.inj h), ?_⟩
      simp only [stageActs, callActs, notices, results, List.map_nil, List.nil_append,
        List.append_nil]
      exact started
  | buildImage =>
      obtain ⟨x, hx, started⟩ := start_takes runner s job.settings.cargoPath.written
        (imageArgs job.layout) job.layout.dependencyRootDir
      refine ⟨x, hx.trans (Option.some.inj h), ?_⟩
      simp only [stageActs, callActs, notices, List.map_nil, List.nil_append]
      cases hs : x.status with
      | error f =>
          rw [hs] at started
          rw [results_eq_nil job (by simp), List.map_nil, List.append_nil]
          exact started.bind_error _
      | ok status =>
          rw [hs] at started
          refine started.bind ?_
          by_cases h0 : status = 0
          · subst h0
            exact (Takes.tree runner _).bind ((Takes.lines runner _ _).bind_pure fun _ => 0)
          · rw [results_eq_nil job (by simpa using h0)]
            simp only [if_neg h0]
            exact Takes.pure runner _ status
  | run =>
      have started (t : RunState) := start_takes runner t job.settings.qemuPath.written
        (emulatorArgs job.options job.biosPath (job.layout.artifact .uefiImage))
        job.layout.projectDir
      simp only [stageActs, callActs, notices, results, List.map_nil, List.append_nil]
      by_cases hd : job.options.waitForDebugger
      · obtain ⟨x, hx, started⟩ :=
          started (after runner s [.line (.progress .waitingForDebugger)])
        refine ⟨x, hx.trans (Option.some.inj h), ?_⟩
        simp only [perform, hd, if_true, List.map_cons, List.map_nil]
        exact (Takes.line runner s _).bind started
      · obtain ⟨x, hx, started⟩ := started s
        refine ⟨x, hx.trans (Option.some.inj h), ?_⟩
        simp only [perform, hd]
        exact (Takes.pure runner s _).bind started

end Job

end BootImage
