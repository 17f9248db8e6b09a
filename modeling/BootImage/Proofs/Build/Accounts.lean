import BootImage.Proofs.Build.Rounds

/-!
# What a build says of its calls and of its end

A build announces each program right before it runs it, and where its status is not 0 it says why,
unless the program that it ran last says so itself. `Announced` holds of a course if it holds of the
parts that the course is put together from. `Blamed` depends on the end of a course only, so it is
enough to look at the stage that ended the build.
-/

namespace BootImage

/-- The course explains a status that is not 0: the last program it ran gave this status, without
anything to tell of it, or its last line beside details tells a problem. -/
inductive Blamed (status : Int) (as : List Act) : Prop
  | exited {x : Exchange} {r : CallResult} (last : (exchanges as).getLast? = some x)
      (mode : x.call.mode = .run) (outcome : x.outcome = .ok r) (started : r.spawnError = none)
      (ended : r.signal = none) (code : r.exitCode = status)
  | told (earlier : List Act) (p : Problem) (ds : List Detail)
      (h : as = earlier ++ .line (.problem p) :: (ds.map .detail).map .line)

theorem Blamed.prepend {status : Int} {bs : List Act} (h : Blamed status bs) (as : List Act) :
    Blamed status (as ++ bs) := by
  cases h with
  | exited last mode outcome started ended code =>
      refine .exited ?_ mode outcome started ended code
      rw [exchanges_append, List.getLast?_append, last]
      rfl
  | told earlier p ds h =>
      refine .told (as ++ earlier) p ds ?_
      rw [h, List.append_assoc]

def Act.IsPlain : Act → Prop
  | line (.progress (.running ..)) => False
  | call c _ => c.mode = .capture
  | _ => True

/-- A course in which each program is announced right before it is run, and nothing else is
announced. -/
inductive Announced : List Act → Prop
  | nil : Announced []
  | plain {a : Act} {as : List Act} (h : a.IsPlain) (rest : Announced as) : Announced (a :: as)
  | start {c : Call} {outcome : Except Failure CallResult} {as : List Act} (mode : c.mode = .run)
      (rest : Announced as) :
      Announced (.line (.progress (.running c.command c.args)) :: .call c outcome :: as)

namespace Announced

variable {as bs : List Act}

theorem append (h : Announced as) (h' : Announced bs) : Announced (as ++ bs) := by
  induction h with
  | nil => exact h'
  | plain h _ ih => exact .plain h ih
  | start mode _ ih => exact .start mode ih

theorem of_plain (h : ∀ a ∈ as, a.IsPlain) : Announced as := by
  induction as with
  | nil => exact .nil
  | cons a as ih =>
      rw [List.forall_mem_cons] at h
      exact .plain h.1 (ih h.2)

theorem lines {ls : List Line} (h : ∀ l ∈ ls, (Act.line l).IsPlain) :
    Announced (ls.map .line) :=
  of_plain (List.forall_mem_map.2 h)

theorem details (ds : List Detail) : Announced ((ds.map .detail).map .line) :=
  lines (List.forall_mem_map.2 fun _ _ => trivial)

end Announced

theorem callProblems_eq_nil_iff {command : String} {r : CallResult} :
    callProblems command r = [] ↔ r.spawnError = none ∧ r.signal = none := by
  have told (e : SpawnError) : spawnProblems command e ≠ [] := by
    rw [spawnProblems]
    split <;> simp
  rw [callProblems, List.append_eq_nil_iff]
  cases r.spawnError <;> cases r.signal <;> simp [told]

namespace Job

variable (job : Job)

theorem mode_of_call? {st : Stage} {c : Call} (h : job.call? st = some c) : c.mode = .run := by
  cases st <;> cases h <;> rfl

theorem announced_startActs {x : Exchange} (h : x.call.mode = .run) :
    Announced (startActs x) := by
  refine .start h (.lines ?_)
  intro l hl
  rw [Exchange.problems] at hl
  split at hl
  · obtain ⟨p, -, rfl⟩ := List.mem_map.1 hl
    trivial
  · cases hl

theorem announced_stageActs {st : Stage} {x : Exchange} (h : job.call? st = some x.call)
    (tree : FileTree) : Announced (job.stageActs st x tree) := by
  have notices : Announced ((job.notices st).map .line) := by
    refine .lines ?_
    intro l hl
    rw [eq_of_mem_notices hl]
    trivial
  have results : Announced ((job.results tree st x.status).map .line) := by
    refine .lines ?_
    intro l hl
    obtain ⟨-, -, rfl | ⟨a, rfl⟩⟩ := eq_of_mem_results hl
    · trivial
    · rw [artifactLine]
      split <;> trivial
  exact (notices.append (announced_startActs (job.mode_of_call? h))).append results

theorem announced_round {st : Stage} {x : Exchange} (h : job.call? st = some x.call)
    (runner : Runner) (s : RunState) (ds : List Detail) :
    Announced (job.round runner st s x (ds.map .detail)) :=
  .plain trivial ((job.announced_stageActs h _).append (.details ds))

theorem blamed_startActs {x : Exchange} {r : CallResult} (mode : x.call.mode = .run)
    (outcome : x.outcome = .ok r) (ds : List Detail) :
    Blamed r.exitCode (startActs x ++ (ds.map .detail).map .line) := by
  obtain ⟨c, _⟩ := x
  cases outcome
  rcases List.eq_nil_or_concat (callProblems c.command r) with hn | ⟨ps, p, hp⟩
  · obtain ⟨started, ended⟩ := callProblems_eq_nil_iff.1 hn
    have last : (exchanges (startActs ⟨c, .ok r⟩ ++ (ds.map .detail).map .line)).getLast? =
        some ⟨c, .ok r⟩ := by
      rw [exchanges_append, exchanges_startActs, exchanges_map_line]
      rfl
    exact .exited last mode rfl started ended rfl
  · refine .told (.line (.progress (.running c.command c.args)) :: .call c (.ok r) ::
      (ps.map .problem).map .line) p ds ?_
    simp only [startActs, Exchange.problems, hp, List.concat_eq_append, List.map_append,
      List.map_cons, List.map_nil, List.cons_append, List.append_assoc, List.nil_append]

theorem blamed_round {st : Stage} {x : Exchange} {code : Int} (h : job.call? st = some x.call)
    (status : x.status = .ok code) (nonzero : code ≠ 0) (runner : Runner) (s : RunState)
    (ds : List Detail) : Blamed code (job.round runner st s x (ds.map .detail)) := by
  obtain ⟨r, outcome, rfl⟩ : ∃ r, x.outcome = .ok r ∧ r.exitCode = code := by
    rw [Exchange.status] at status
    cases hx : x.outcome with
    | error f =>
        rw [hx] at status
        cases status
    | ok r =>
        rw [hx] at status
        exact ⟨r, rfl, Except.ok.inj status⟩
  have other : x.status ≠ .ok 0 := by simpa [status] using nonzero
  have results := job.results_eq_nil other
  rw [round, roundActs, stageActs, results, List.map_nil, List.append_nil, callActs,
    List.append_assoc]
  exact (blamed_startActs (job.mode_of_call? h) outcome ds).prepend
    (.line (.detail (.stage st)) :: (job.notices st).map .line)

variable {runner : Runner} {job}

theorem Rounds.announced {st : Stage} {s : RunState} {as : List Act} {o : Except Failure Int}
    (h : Rounds runner job st s as o) : Announced as :=
  h.of_round .nil (fun ds call => job.announced_round call runner _ ds) .append

theorem Rounds.blamed {st : Stage} {s : RunState} {as : List Act} {o : Except Failure Int}
    (h : Rounds runner job st s as o) {code : Int} (status : o = .ok code) (nonzero : code ≠ 0) :
    Blamed code as := by
  induction h with
  | done s =>
      cases status
      exact absurd rfl nonzero
  | threw _ _ => cases status
  | emulated call hs =>
      cases status
      exact job.blamed_round call hs nonzero runner _ [.emulatorExited _]
  | failed call hs _ _ =>
      cases status
      exact job.blamed_round call hs nonzero runner _ [.stageFailed _ _]
  | passed _ _ _ _ ih => exact (ih status).prepend _

theorem Builds.announced {s : RunState} {as : List Act} {o : Except Failure Int}
    (h : Builds runner job s as o) : Announced as := by
  cases h with
  | unmade _ => exact .of_plain (by simp [Act.IsPlain])
  | made _ rest => exact .plain trivial (.plain trivial rest.announced)

theorem Builds.blamed {s : RunState} {as : List Act} {o : Except Failure Int}
    (h : Builds runner job s as o) {code : Int} (status : o = .ok code) (nonzero : code ≠ 0) :
    Blamed code as := by
  cases h with
  | @unmade e _ =>
      exact .told [.line (.detail (.stage .ensureOutDir)),
        .makeDirectories job.layout.outDir (.error e)] _ [.stageFailed .ensureOutDir 1] rfl
  | made _ rest => exact (rest.blamed status nonzero).prepend [_, _]

end Job

end BootImage
