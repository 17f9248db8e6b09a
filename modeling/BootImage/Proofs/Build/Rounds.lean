import BootImage.Proofs.Build.Stages

/-!
# The courses of a build

A build makes its output directory and goes on from stage to stage. `Rounds` lists the courses that
it can take from a stage after the first, with one constructor for each way in which a stage can
come out: its call cannot be made, the emulator ends and the build with it, the call does not return
0, or the next stage follows. `Builds` puts the first stage before them. Every build takes such a
course, so what is to hold of all builds is shown by induction on these. What a line of a build can
be is listed by `Tells`.
-/

namespace BootImage.Job

def roundActs (job : Job) (st : Stage) (x : Exchange) (tree : FileTree) (ls : List Line) :
    List Act :=
  .line (.detail (.stage st)) :: (job.stageActs st x tree ++ ls.map .line)

/-- The course of a stage that begins in `s`. What it says of its results goes by the tree that its
call leaves. -/
def round (runner : Runner) (job : Job) (st : Stage) (s : RunState) (x : Exchange)
    (ls : List Line) : List Act :=
  job.roundActs st x (after runner s (.line (.detail (.stage st)) :: job.callActs st x)).tree ls

/-- The courses of a build from a stage after the first, each with its outcome. -/
inductive Rounds (runner : Runner) (job : Job) :
    Stage → RunState → List Act → Except Failure Int → Prop
  | done (s : RunState) : Rounds runner job .done s [] (.ok 0)
  | threw {st : Stage} {s : RunState} {x : Exchange} {f : Failure}
      (call : job.call? st = some x.call) (status : x.status = .error f) :
      Rounds runner job st s (job.round runner st s x []) (.error f)
  | emulated {s : RunState} {x : Exchange} {code : Int} (call : job.call? .run = some x.call)
      (status : x.status = .ok code) :
      Rounds runner job .run s (job.round runner .run s x [.detail (.emulatorExited code)])
        (.ok code)
  | failed {st : Stage} {s : RunState} {x : Exchange} {code : Int}
      (call : job.call? st = some x.call) (status : x.status = .ok code) (other : st ≠ .run)
      (nonzero : code ≠ 0) :
      Rounds runner job st s (job.round runner st s x [.detail (.stageFailed st code)]) (.ok code)
  | passed {st : Stage} {s : RunState} {x : Exchange} {as : List Act} {o : Except Failure Int}
      (call : job.call? st = some x.call) (status : x.status = .ok 0) (other : st ≠ .run)
      (rest : Rounds runner job (st.next job.options)
        (after runner s (job.round runner st s x [])) as o) :
      Rounds runner job st s (job.round runner st s x [] ++ as) o

inductive Builds (runner : Runner) (job : Job) (s : RunState) :
    List Act → Except Failure Int → Prop
  | unmade {e : FileError} (made : (s.tree.makeDirectories job.layout.outDir).1 = .error e) :
      Builds runner job s
        [.line (.detail (.stage .ensureOutDir)), .makeDirectories job.layout.outDir (.error e),
          .line (.problem (.outDirNotMade job.layout.outDir e)),
          .line (.detail (.stageFailed .ensureOutDir 1))]
        (.ok 1)
  | made {as : List Act} {o : Except Failure Int}
      (made : (s.tree.makeDirectories job.layout.outDir).1 = .ok ())
      (rest : Rounds runner job .compile (after runner s [.line (.detail (.stage .ensureOutDir)),
        .makeDirectories job.layout.outDir (.ok ())]) as o) :
      Builds runner job s (.line (.detail (.stage .ensureOutDir)) ::
        .makeDirectories job.layout.outDir (.ok ()) :: as) o

variable (runner : Runner) (job : Job)

@[simp] theorem exchanges_roundActs (st : Stage) (x : Exchange) (tree : FileTree)
    (ls : List Line) : exchanges (job.roundActs st x tree ls) = [x] := by
  simp [roundActs]

theorem round_nil (st : Stage) (s : RunState) (x : Exchange) :
    job.round runner st s x [] = .line (.detail (.stage st)) :: job.stageActs st x
      (after runner s (.line (.detail (.stage st)) :: job.callActs st x)).tree := by
  rw [round, roundActs, List.map_nil, List.append_nil]

theorem round_eq (st : Stage) (s : RunState) (x : Exchange) (ls : List Line) :
    let met := after runner s ((job.heralds st x.call).map .line)
    job.round runner st s x ls =
      (job.heralds st x.call).map .line ++ .call x.call x.outcome ::
        (x.problems ++ job.results (runner met.trace met.tree x.call).tree st x.status ++ ls).map
          .line := by
  intro met
  have course : .line (.detail (.stage st)) :: job.callActs st x =
      (job.heralds st x.call).map .line ++ .call x.call x.outcome :: x.problems.map .line := by
    simp [callActs, startActs, heralds]
  have left : (after runner s (.line (.detail (.stage st)) :: job.callActs st x)).tree =
      (runner met.trace met.tree x.call).tree := by
    rw [course, after_append, after_cons, after_map_line]
    rfl
  rw [round, roundActs, stageActs, left, ← List.cons_append, ← List.cons_append, course]
  simp only [List.map_append, List.cons_append, List.append_assoc]

theorem exists_call? {st : Stage} (first : st ≠ .ensureOutDir) (last : st ≠ .done) :
    ∃ c, job.call? st = some c := by
  cases st with
  | ensureOutDir => exact absurd rfl first
  | done => exact absurd rfl last
  | _ => exact ⟨_, rfl⟩

theorem next_ne_ensureOutDir (o : BuildOptions) (st : Stage) : st.next o ≠ .ensureOutDir := by
  cases st with
  | buildImage =>
      rw [Stage.next]
      split <;> simp
  | _ => simp [Stage.next]

/-- From a stage after the first, a build takes one of the courses listed. -/
theorem runFrom_rounds (st : Stage) (hst : st ≠ .ensureOutDir) (s : RunState) :
    ∃ as o, Takes runner (runFrom runner job st) s as o ∧ Rounds runner job st s as o := by
  by_cases hd : st = .done
  · subst hd
    refine ⟨[], .ok 0, ?_, .done s⟩
    rw [runFrom, dif_pos rfl]
    exact Takes.pure runner s 0
  obtain ⟨c, hc⟩ := exists_call? job hst hd
  have begun := Takes.line runner s (.detail (.stage st))
  obtain ⟨x, rfl, performed⟩ :=
    perform_takes runner job (after runner s [.line (.detail (.stage st))]) hc
  rw [runFrom, dif_neg hd]
  cases hs : x.status with
  | error f =>
      rw [hs] at performed
      refine ⟨_, _, ?_, .threw hc hs⟩
      rw [round_nil]
      exact begun.bind (performed.bind_error _)
  | ok code =>
      rw [hs] at performed
      have told (t : RunState) (l : Line) := (Takes.line runner t l).bind_pure fun _ => code
      -- the emulator ends the build with any status, the other stages only with one that is not 0
      by_cases hr : st = .run
      · subst hr
        refine ⟨_, _, ?_, .emulated hc hs⟩
        exact begun.bind (performed.bind (told _ _))
      · by_cases h0 : code = 0
        · subst h0
          obtain ⟨as, o, continued, rest⟩ := runFrom_rounds (st.next job.options)
            (next_ne_ensureOutDir job.options st) (after runner s (job.round runner st s x []))
          refine ⟨_, _, ?_, .passed hc hs hr rest⟩
          rw [round_nil] at continued ⊢
          refine begun.bind (performed.bind ?_)
          rw [if_neg hr, if_neg (by simp)]
          exact continued
        · refine ⟨_, _, ?_, .failed hc hs hr h0⟩
          refine begun.bind (performed.bind ?_)
          rw [if_neg hr, if_pos h0]
          exact told _ _
termination_by st.remaining
decreasing_by exact Stage.remaining_next_lt job.options hd

theorem run_builds (s : RunState) :
    ∃ as o, Takes runner (run runner job) s as o ∧ Builds runner job s as o := by
  have begun := Takes.line runner s (.detail (.stage .ensureOutDir))
  have performed := perform_ensureOutDir_takes runner job
    (after runner s [.line (.detail (.stage .ensureOutDir))])
  change Takes runner _ _ (job.outDirActs (s.tree.makeDirectories _).1)
    (.ok (outDirStatus (s.tree.makeDirectories _).1)) at performed
  rw [run, runFrom, dif_neg (by simp)]
  cases h : (s.tree.makeDirectories job.layout.outDir).1 with
  | error e =>
      rw [h] at performed
      refine ⟨_, _, begun.bind (performed.bind ?_), .unmade h⟩
      rw [if_neg (by simp), if_pos (by simp [outDirStatus])]
      exact (Takes.line runner _ _).bind_pure fun _ => 1
  | ok u =>
      rw [h] at performed
      obtain ⟨as, o, continued, rest⟩ := runFrom_rounds runner job .compile (by simp)
        (after runner s [.line (.detail (.stage .ensureOutDir)),
          .makeDirectories job.layout.outDir (.ok ())])
      refine ⟨_, _, begun.bind (performed.bind ?_), .made h rest⟩
      rw [if_neg (by simp), if_neg (by simp [outDirStatus])]
      exact continued

/-- What a line of a build can be, when `xs` are the exchanges of the build. -/
inductive Tells (job : Job) (xs : List Exchange) : Line → Prop
  | detail (d : Detail) : Tells job xs (.detail d)
  | unmade (e : FileError) : Tells job xs (.problem (.outDirNotMade job.layout.outDir e))
  | waiting : Tells job xs (.progress .waitingForDebugger)
  | running {x : Exchange} (mem : x ∈ xs) :
      Tells job xs (.progress (.running x.call.command x.call.args))
  | problem {x : Exchange} {r : CallResult} {p : Problem} (mem : x ∈ xs)
      (outcome : x.outcome = .ok r) (shown : p ∈ callProblems x.call.command r) :
      Tells job xs (.problem p)
  | images {x : Exchange} (mem : x ∈ xs) (call : job.call? .buildImage = some x.call)
      (status : x.status = .ok 0) : Tells job xs (.progress .diskImages)
  | artifact {x : Exchange} (mem : x ∈ xs) (call : job.call? .buildImage = some x.call)
      (status : x.status = .ok 0) (tree : FileTree) (a : Artifact) :
      Tells job xs (job.artifactLine tree a)

variable {runner job}

theorem Tells.mono {xs ys : List Exchange} {l : Line} (h : Tells job xs l) (sub : xs ⊆ ys) :
    Tells job ys l := by
  cases h with
  | detail d => exact .detail d
  | unmade e => exact .unmade e
  | waiting => exact .waiting
  | running mem => exact .running (sub mem)
  | problem mem outcome shown => exact .problem (sub mem) outcome shown
  | images mem call status => exact .images (sub mem) call status
  | artifact mem call status tree a => exact .artifact (sub mem) call status tree a

/-- What holds of the course of each stage, and of two courses one after the other if it holds of
both, holds of every course. -/
theorem Rounds.of_round {P : List Act → Prop} (nil : P [])
    (round : ∀ {st : Stage} {s : RunState} {x : Exchange} (ds : List Detail),
      job.call? st = some x.call → P (job.round runner st s x (ds.map .detail)))
    (append : ∀ {as bs : List Act}, P as → P bs → P (as ++ bs)) {st : Stage} {s : RunState}
    {as : List Act} {o : Except Failure Int} (h : Rounds runner job st s as o) : P as := by
  induction h with
  | done s => exact nil
  | threw call _ => exact round [] call
  | emulated call _ => exact round [.emulatorExited _] call
  | failed call _ _ _ => exact round [.stageFailed _ _] call
  | passed call _ _ _ ih => exact append (round [] call) ih

theorem tells_of_mem_round {st : Stage} {s : RunState} {x : Exchange} {ds : List Detail} {l : Line}
    (call : job.call? st = some x.call)
    (h : .line l ∈ job.round runner st s x (ds.map .detail)) : Tells job [x] l := by
  have mem := List.mem_singleton_self x
  rw [round_eq] at h
  simp only [List.mem_append, List.mem_cons, List.mem_map, Act.line.injEq, exists_eq_right,
    reduceCtorEq, false_or] at h
  rcases h with herald | (problem | result) | detail
  · rw [heralds, List.mem_cons, List.mem_append, List.mem_singleton] at herald
    rcases herald with rfl | notice | rfl
    · exact .detail _
    · rw [eq_of_mem_notices notice]
      exact .waiting
    · exact .running mem
  · rw [Exchange.problems] at problem
    split at problem
    · next outcome =>
        obtain ⟨p, shown, rfl⟩ := List.mem_map.1 problem
        exact .problem mem outcome shown
    · cases problem
  · obtain ⟨rfl, status, rfl | ⟨a, rfl⟩⟩ := eq_of_mem_results result
    · exact .images mem call status
    · exact .artifact mem call status _ a
  · obtain ⟨d, -, rfl⟩ := detail
    exact .detail d

theorem Rounds.tells {st : Stage} {s : RunState} {as : List Act} {o : Except Failure Int}
    (h : Rounds runner job st s as o) : ∀ {l}, .line l ∈ as → Tells job (exchanges as) l := by
  refine h.of_round (P := fun as => ∀ {l}, .line l ∈ as → Tells job (exchanges as) l) ?_ ?_ ?_
  · intro l mem
    cases mem
  · intro st s x ds call l mem
    rw [Job.round, exchanges_roundActs]
    exact tells_of_mem_round call mem
  · intro as bs first second l mem
    rw [exchanges_append]
    rcases List.mem_append.1 mem with mem | mem
    · exact (first mem).mono (List.subset_append_left _ _)
    · exact (second mem).mono (List.subset_append_right _ _)

theorem Builds.tells {s : RunState} {as : List Act} {o : Except Failure Int}
    (h : Builds runner job s as o) {l : Line} (mem : .line l ∈ as) :
    Tells job (exchanges as) l := by
  cases h with
  | @unmade e _ =>
      simp only [List.mem_cons, Act.line.injEq, reduceCtorEq, List.not_mem_nil, or_false,
        false_or] at mem
      rcases mem with rfl | rfl | rfl
      · exact .detail _
      · exact .unmade e
      · exact .detail _
  | made _ rest =>
      simp only [List.mem_cons, Act.line.injEq, reduceCtorEq, false_or] at mem
      rcases mem with rfl | mem
      · exact .detail _
      · exact rest.tells mem

end BootImage.Job
