import BootImage.Proofs.Action.Pursuit
import BootImage.Proofs.Build.Rounds

/-!
# A build carries out a plan

The calls that a build can make follow from its options, its layout and its settings: they are its
plan. The stages carry the plan out, each stage handing on to the next only when its call returned
0, so that a build whose output directory can be made is the straight program that makes the calls
of its plan in turn until one does not return 0.
-/

namespace BootImage.Job

def plan (job : Job) : List Call :=
  [⟨.run, job.settings.cargoPath.written, compileArgs job.options, some job.layout.projectDir⟩,
    ⟨.run, job.settings.cargoPath.written, imageArgs job.layout,
      some job.layout.dependencyRootDir⟩] ++
  if job.options.shouldRun then
    [⟨.run, job.settings.qemuPath.written,
      emulatorArgs job.options job.biosPath (job.layout.artifact .uefiImage),
      some job.layout.projectDir⟩]
  else []

theorem plan_ne_nil (job : Job) : job.plan ≠ [] := List.cons_ne_nil _ _

def callsFrom (job : Job) (s : Stage) : List Call :=
  if _h : s = .done then [] else (job.call? s).toList ++ callsFrom job (s.next job.options)
termination_by s.remaining
decreasing_by exact Stage.remaining_next_lt job.options _h

variable (runner : Runner) (job : Job)

theorem callsFrom_done : job.callsFrom .done = [] := by
  rw [callsFrom, dif_pos rfl]

theorem callsFrom_of_call? {st : Stage} {c : Call} (h : job.call? st = some c) :
    job.callsFrom st = c :: job.callsFrom (st.next job.options) := by
  have hd : st ≠ .done := by
    rintro rfl
    cases h
  rw [callsFrom, dif_neg hd, h]
  rfl

theorem callsFrom_compile : job.callsFrom .compile = job.plan := by
  rw [callsFrom_of_call? job rfl, Stage.next, callsFrom_of_call? job rfl, Stage.next, plan]
  by_cases hr : job.options.shouldRun
  · rw [if_pos hr, if_pos hr, callsFrom_of_call? job rfl, Stage.next, callsFrom_done]
    rfl
  · rw [if_neg hr, if_neg hr, callsFrom_done]
    rfl

structure Carries (job : Job) (st : Stage) (as : List Act) : Prop where
  directories : directories as = []
  stages : (stages as).length ≤ st.remaining
  pursuit : Pursuit (job.callsFrom st) (exchanges as)

theorem remaining_pos {st : Stage} {c : Call} (h : job.call? st = some c) : 0 < st.remaining := by
  cases st with
  | done => cases h
  | _ => decide

theorem carries_last {st : Stage} {x : Exchange} (h : job.call? st = some x.call)
    (hl : st = .run ∨ x.status ≠ .ok 0) (tree : FileTree) {ls : List Line}
    (hls : ls.filterMap Line.stage? = []) : Carries job st (job.roundActs st x tree ls) := by
  refine ⟨by simp [roundActs], ?_, ?_⟩
  · have hpos : 1 ≤ st.remaining := remaining_pos job h
    simpa [roundActs, hls] using hpos
  · rw [exchanges_roundActs, callsFrom_of_call? job h]
    rcases hl with rfl | hs
    · rw [Stage.next, callsFrom_done]
      exact .single x
    · exact .stop hs

theorem carries_next {st : Stage} {x : Exchange} (h : job.call? st = some x.call)
    (hs : x.status = .ok 0) (tree : FileTree) {as : List Act}
    (ha : Carries job (st.next job.options) as) :
    Carries job st (job.roundActs st x tree [] ++ as) := by
  have hd : st ≠ .done := by
    rintro rfl
    cases h
  have hlt := Stage.remaining_next_lt job.options hd
  refine ⟨by simp [roundActs, ha.directories], ?_, ?_⟩
  · have hle := ha.stages
    simp [roundActs]
    omega
  · rw [exchanges_append, exchanges_roundActs, callsFrom_of_call? job h]
    exact .next hs ha.pursuit

/-- From a stage after the first, a build pursues the calls of that stage and of those after it. -/
theorem Rounds.carries {st : Stage} {s : RunState} {as : List Act} {o : Except Failure Int}
    (h : Rounds runner job st s as o) : Carries job st as ∧ o = lastStatus (exchanges as) := by
  induction h with
  | done s =>
      refine ⟨⟨rfl, Nat.zero_le _, ?_⟩, rfl⟩
      rw [callsFrom_done]
      exact .nil
  | threw call status =>
      refine ⟨carries_last job call (.inr (by simp [status])) _ rfl, ?_⟩
      rw [round, exchanges_roundActs, lastStatus_singleton, status]
  | emulated call status =>
      refine ⟨carries_last job call (.inl rfl) _ rfl, ?_⟩
      rw [round, exchanges_roundActs, lastStatus_singleton, status]
  | failed call status other nonzero =>
      refine ⟨carries_last job call (.inr (by simpa [status] using nonzero)) _ rfl, ?_⟩
      rw [round, exchanges_roundActs, lastStatus_singleton, status]
  | passed call status other rest ih =>
      obtain ⟨carries, rfl⟩ := ih
      refine ⟨carries_next job call status _ carries, ?_⟩
      rw [exchanges_append, round, exchanges_roundActs, List.singleton_append,
        lastStatus_cons status]

section Pursues

variable {runner job}

/-- A build that can make its output directory pursues its plan. -/
theorem Builds.pursuit {s : RunState} {as : List Act} {o : Except Failure Int}
    (h : Builds runner job s as o) (made : (s.tree.makeDirectories job.layout.outDir).1 = .ok ()) :
    Pursuit job.plan (exchanges as) := by
  cases h with
  | unmade failed => cases made.symm.trans failed
  | made _ rest =>
      rw [← callsFrom_compile]
      exact rest.carries.1.pursuit

theorem Builds.mem_plan {s : RunState} {as : List Act} {o : Except Failure Int}
    (h : Builds runner job s as o) {x : Exchange} (hx : x ∈ exchanges as) : x.call ∈ job.plan := by
  cases h with
  | unmade _ => cases hx
  | made made rest =>
      exact ((Builds.made made rest).pursuit made).isPrefix.subset (List.mem_map_of_mem hx)

end Pursues

/-- A build makes its output directory. If that fails its status is 1 and there is no call,
otherwise it carries out its plan. -/
theorem run_takes (s : RunState) :
    ∃ later outcome, Takes runner (run runner job) s
        (.line (.detail (.stage .ensureOutDir)) ::
          .makeDirectories job.layout.outDir (s.tree.makeDirectories job.layout.outDir).1 :: later)
        outcome ∧
      directories later = [] ∧ (stages later).length ≤ 3 ∧
      match (s.tree.makeDirectories job.layout.outDir).1 with
      | .error _ => exchanges later = [] ∧ outcome = .ok 1
      | .ok () => CarriedOut job.plan (exchanges later) outcome := by
  obtain ⟨as, o, takes, builds⟩ := run_builds runner job s
  cases builds with
  | unmade made =>
      rw [made]
      exact ⟨_, _, takes, rfl, by simp [Line.stage?], rfl, rfl⟩
  | made made rest =>
      obtain ⟨carries, rfl⟩ := rest.carries
      have pursuit := carries.pursuit
      rw [callsFrom_compile] at pursuit
      rw [made]
      exact ⟨_, _, takes, carries.directories, carries.stages, pursuit.carriedOut job.plan_ne_nil⟩

/-- The stages of a build refine the straight program that makes the calls of its plan in turn until
one does not return 0, whatever the runner answers and whatever its answers depend on. -/
theorem run_refines_plan (s : RunState) :
    ∃ as outcome, Takes runner (run runner job) s as outcome ∧
      (after runner s as).calls = s.calls ++ (exchanges as).map Exchange.call ∧
      (stages as).length ≤ 4 ∧
      match (s.tree.makeDirectories job.layout.outDir).1 with
      | .error _ => exchanges as = [] ∧ outcome = .ok 1
      | .ok () => CarriedOut job.plan (exchanges as) outcome := by
  obtain ⟨later, outcome, takes, -, hle, made⟩ := run_takes runner job s
  refine ⟨_, outcome, takes, calls_after runner s _, ?_, ?_⟩
  · rw [stages_line_cons, stages_makeDirectories_cons]
    exact Nat.succ_le_succ hle
  · rw [exchanges_line_cons, exchanges_makeDirectories_cons]
    exact made

end BootImage.Job
