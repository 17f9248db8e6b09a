import BootImage.Call.Scripted
import BootImage.Proofs.Build.Plan

/-!
# The hint to install the emulator

A build takes a program for the emulator by its command. If a program is missing whose command holds
`qemu`, whichever stage called for it, the build hints at how to install the emulator. So the hints
of a build follow from its exchanges. They are given for the emulator and for nothing else in every
run exactly if the build tool's command does not hold the word and the emulator's does.
-/

namespace BootImage

def hint : List Line := [.problem .emulatorNeeded, .problem .emulatorSource]

def hintsIn (es : List Event) : List Line := (es.filterMap Event.line?).filter fun l => l ∈ hint

def hints (as : List Act) : List Line := (as.filterMap Act.line?).filter fun l => l ∈ hint

@[simp] theorem hints_append (as bs : List Act) : hints (as ++ bs) = hints as ++ hints bs := by
  rw [hints, List.filterMap_append, List.filter_append]
  rfl

@[simp] theorem hints_call_cons (c : Call) (outcome : Except Failure CallResult)
    (as : List Act) : hints (.call c outcome :: as) = hints as := rfl

theorem hints_map_line (ls : List Line) : hints (ls.map .line) = ls.filter fun l => l ∈ hint := by
  rw [hints, List.filterMap_map]
  exact congrArg _ List.filterMap_some

theorem hintsIn_written (runner : Runner) (s : RunState) (as : List Act) :
    hintsIn (written runner s as) = hints as := by
  refine filter_line?_written runner s as fun l meanwhile => ?_
  cases l with
  | detail d => simp [hint]
  | _ => cases meanwhile

namespace Exchange

/-- Whether a program could not be started because it is missing. -/
def isMissing (x : Exchange) : Bool :=
  match x.outcome with
  | .ok r => r.spawnError.bind SpawnError.code == some "ENOENT"
  | .error _ => false

def hint (x : Exchange) : List Line :=
  if x.isMissing = true ∧ Text.mentions "qemu" x.call.command = true then BootImage.hint else []

theorem filter_spawnProblems (command : String) (e : SpawnError) :
    ((spawnProblems command e).map Line.problem).filter (fun l => l ∈ BootImage.hint) =
      if e.code = some "ENOENT" ∧ Text.mentions "qemu" command = true then BootImage.hint
      else [] := by
  rw [spawnProblems]
  by_cases missing : e.code = some "ENOENT"
  · by_cases named : Text.mentions "qemu" command = true <;>
      simp [missing, named, BootImage.hint]
  · simp [missing, BootImage.hint]

theorem filter_problems (x : Exchange) :
    x.problems.filter (fun l => l ∈ BootImage.hint) = x.hint := by
  obtain ⟨c, outcome⟩ := x
  cases outcome with
  | error f => simp [problems, hint, isMissing]
  | ok r =>
      obtain ⟨code, signal, spawnError, stdout⟩ := r
      have signals : ((signal.map Problem.signalled).toList.map Line.problem).filter
          (fun l => l ∈ BootImage.hint) = [] := by
        cases signal <;> simp [BootImage.hint]
      cases spawnError with
      | none => simpa [problems, callProblems, hint, isMissing] using signals
      | some e =>
          simp only [problems, callProblems, List.map_append, List.filter_append, signals,
            List.append_nil, filter_spawnProblems, hint, isMissing, Option.bind_some, beq_iff_eq]

end Exchange

namespace Job

variable {runner : Runner} {job : Job} {s : RunState} {as : List Act} {o : Except Failure Int}

theorem hints_round {st : Stage} {x : Exchange} {ds : List Detail} :
    hints (job.round runner st s x (ds.map .detail)) = x.hint := by
  have heralds : (job.heralds st x.call).filter (fun l => l ∈ hint) = [] := by
    rw [List.filter_eq_nil_iff]
    intro l hl
    rw [Job.heralds, List.mem_cons, List.mem_append, List.mem_singleton] at hl
    rcases hl with rfl | hl | rfl
    · simp [hint]
    · simp [eq_of_mem_notices hl, hint]
    · simp [hint]
  have results (tree : FileTree) :
      (job.results tree st x.status).filter (fun l => l ∈ hint) = [] := by
    rw [List.filter_eq_nil_iff]
    intro l hl
    obtain ⟨-, -, rfl | ⟨a, rfl⟩⟩ := eq_of_mem_results hl
    · simp [hint]
    · rw [artifactLine]
      split <;> simp [hint]
  have details : (ds.map Line.detail).filter (fun l => l ∈ hint) = [] := by
    simp [List.filter_eq_nil_iff, hint]
  rw [round_eq, hints_append, hints_call_cons, hints_map_line, hints_map_line, heralds,
    List.filter_append, List.filter_append, results, details, x.filter_problems, List.nil_append,
    List.append_nil, List.append_nil]

theorem Rounds.hints_eq {st : Stage} (h : Rounds runner job st s as o) :
    hints as = (exchanges as).flatMap Exchange.hint := by
  refine h.of_round (P := fun as => hints as = (exchanges as).flatMap Exchange.hint) rfl ?_ ?_
  · intro st s x ds _
    rw [hints_round, Job.round, exchanges_roundActs, List.flatMap_singleton]
  · intro as bs first second
    rw [hints_append, exchanges_append, List.flatMap_append, first, second]

/-- The hints of a build are those of its exchanges, in turn. -/
theorem Builds.hints_eq (h : Builds runner job s as o) :
    hints as = (exchanges as).flatMap Exchange.hint := by
  cases h with
  | unmade _ =>
      refine List.filter_eq_nil_iff.2 fun l hl => ?_
      simp only [List.filterMap_cons, Act.line?, List.filterMap_nil, List.mem_cons,
        List.not_mem_nil, or_false] at hl
      rcases hl with rfl | rfl | rfl <;> simp [hint]
  | made _ rest => exact rest.hints_eq

/-- The emulator was called and could not be started because it is missing. -/
def EmulatorMissing (job : Job) (as : List Act) : Prop :=
  ∃ x ∈ exchanges as, job.call? .run = some x.call ∧ x.isMissing = true

/-- The hint is told once if the emulator is missing, and otherwise not at all. -/
structure HintsAtEmulator (job : Job) (as : List Act) (told : List Event) : Prop where
  given (missing : job.EmulatorMissing as) : hintsIn told = hint
  otherwise (there : ¬job.EmulatorMissing as) : hintsIn told = []

/-- What a run of a build writes has the hint for its emulator and for nothing else. -/
def HintsRightly (job : Job) (runner : Runner) (s : RunState) : Prop :=
  ∃ as o told, Takes runner (job.run runner) s as o ∧
    (after runner s as).trace = s.trace ++ told ∧ job.HintsAtEmulator as told

theorem command_of_call? {st : Stage} {c : Call} (call : job.call? st = some c)
    (other : st ≠ .run) : c.command = job.settings.cargoPath.written ∧ job.call? .run ≠ some c := by
  refine ⟨?_, fun emulator => other (eq_of_call? call emulator)⟩
  cases st with
  | run => exact absurd rfl other
  | ensureOutDir | done => cases call
  | compile | buildImage =>
      cases call
      rfl

theorem Rounds.exchanges_eq {st : Stage} (h : Rounds runner job st s as o) :
    ∃ xs ys, exchanges as = xs ++ ys ∧
      (∀ x ∈ xs, x.call.command = job.settings.cargoPath.written ∧ job.call? .run ≠ some x.call) ∧
      (ys = [] ∨ ∃ y, ys = [y] ∧ job.call? .run = some y.call) := by
  have single {st : Stage} {x : Exchange} (call : job.call? st = some x.call) (other : st ≠ .run) :
      ∀ y ∈ [x], y.call.command = job.settings.cargoPath.written ∧
        job.call? .run ≠ some y.call := by
    simpa using command_of_call? call other
  induction h with
  | done s => exact ⟨[], [], rfl, by simp, .inl rfl⟩
  | @threw st s x f call _ =>
      rw [round, exchanges_roundActs]
      by_cases emulator : st = .run
      · subst emulator
        exact ⟨[], [x], rfl, by simp, .inr ⟨x, rfl, call⟩⟩
      · exact ⟨[x], [], rfl, single call emulator, .inl rfl⟩
  | @emulated s x code call _ =>
      rw [round, exchanges_roundActs]
      exact ⟨[], [x], rfl, by simp, .inr ⟨x, rfl, call⟩⟩
  | @failed st s x code call _ other _ =>
      rw [round, exchanges_roundActs]
      exact ⟨[x], [], rfl, single call other, .inl rfl⟩
  | @passed st s x as o call _ other _ ih =>
      obtain ⟨xs, ys, split, tool, emulator⟩ := ih
      rw [exchanges_append, round, exchanges_roundActs, split]
      exact ⟨[x] ++ xs, ys, (List.append_assoc ..).symm,
        List.forall_mem_append.2 ⟨single call other, tool⟩, emulator⟩

theorem Builds.exchanges_eq (h : Builds runner job s as o) :
    ∃ xs ys, exchanges as = xs ++ ys ∧
      (∀ x ∈ xs, x.call.command = job.settings.cargoPath.written ∧ job.call? .run ≠ some x.call) ∧
      (ys = [] ∨ ∃ y, ys = [y] ∧ job.call? .run = some y.call) := by
  cases h with
  | unmade _ => exact ⟨[], [], rfl, by simp, .inl rfl⟩
  | made _ rest => exact rest.exchanges_eq

theorem shouldRun_of_mem_plan {c : Call} (mem : c ∈ job.plan) (call : job.call? .run = some c) :
    job.options.shouldRun = true := by
  refine Decidable.byContradiction fun stays => ?_
  rw [plan, if_neg stays, List.append_nil, List.mem_cons, List.mem_singleton] at mem
  rcases mem with rfl | rfl
  · cases eq_of_call? (show job.call? .compile = _ from rfl) call
  · cases eq_of_call? (show job.call? .buildImage = _ from rfl) call

/-- If the commands tell the emulator from the build tool, so does the hint. -/
theorem Builds.hintsAtEmulator (h : Builds runner job s as o)
    (tool : Text.mentions "qemu" job.settings.cargoPath.written = false)
    (emulator : job.options.shouldRun = true →
      Text.mentions "qemu" job.settings.qemuPath.written = true) :
    job.HintsAtEmulator as (written runner s as) := by
  have told := (hintsIn_written runner s as).trans h.hints_eq
  obtain ⟨xs, ys, split, built, last⟩ := h.exchanges_eq
  have silent : xs.flatMap Exchange.hint = [] := by
    refine List.flatMap_eq_nil_iff.2 fun x hx => ?_
    rw [Exchange.hint, (built x hx).1, if_neg (by simp [tool])]
  rw [split, List.flatMap_append, silent, List.nil_append] at told
  have behind {x : Exchange} (hx : x ∈ exchanges as) (call : job.call? .run = some x.call) :
      x ∈ ys := by
    rw [split, List.mem_append] at hx
    exact hx.resolve_left fun hx => (built x hx).2 call
  rcases last with rfl | ⟨y, rfl, call⟩
  · exact ⟨fun ⟨x, hx, call, _⟩ => absurd (behind hx call) List.not_mem_nil, fun _ => told⟩
  · have mem : y ∈ exchanges as := by simp [split]
    have named : Text.mentions "qemu" y.call.command = true := by
      rw [← Option.some.inj call]
      exact emulator (shouldRun_of_mem_plan (h.mem_plan mem) call)
    rw [List.flatMap_singleton, Exchange.hint] at told
    refine ⟨fun ⟨x, hx, call', missing⟩ => ?_, fun there => ?_⟩
    · obtain rfl := List.mem_singleton.1 (behind hx call')
      rw [told, if_pos ⟨missing, named⟩]
    · rw [told, if_neg fun missing => there ⟨y, mem, call, missing.1⟩]

end Job

def CallResult.missing : CallResult := { exitCode := 1, spawnError := some ⟨some "ENOENT", ""⟩ }

def Runner.answering (answer : Call → CallResult) : Runner := fun _ tree c =>
  { outcome := .ok (answer c), tree, meanwhile := Event.isMeanwhile_of_mem_nil }

theorem Course.outcome_of_answering {answer : Call → CallResult} {s : RunState} {as : List Act}
    (h : Course (.answering answer) s as) {x : Exchange} (hx : x ∈ exchanges as) :
    x.outcome = .ok (answer x.call) := by
  obtain ⟨t, answered⟩ := h.exists_answered hx
  exact answered

namespace Job

variable {job : Job} {s : RunState}

theorem HintsRightly.exists_course {runner : Runner} (h : job.HintsRightly runner s)
    {bs : List Act} {o' : Except Failure Int} (takes' : Takes runner (job.run runner) s bs o')
    (builds : Builds runner job s bs o') :
    ∃ as, Course runner s as ∧ (exchanges as).map Exchange.call = (exchanges bs).map Exchange.call ∧
      (job.EmulatorMissing as → (exchanges bs).flatMap Exchange.hint = hint) ∧
      (¬job.EmulatorMissing as → (exchanges bs).flatMap Exchange.hint = []) := by
  obtain ⟨as, o, told, takes, trace, right⟩ := h
  obtain ⟨same, calls⟩ := takes.eq_of_takes takes'
  rw [trace, trace_after, List.append_cancel_left_eq] at same
  rw [← builds.hints_eq, ← hintsIn_written runner s bs, ← same]
  exact ⟨as, takes.course, calls, right.given, right.otherwise⟩

theorem hint_ne_nil : hint ≠ [] := List.cons_ne_nil _ _

/-- A build tool that is called like the emulator is hinted at when it is missing. -/
theorem tool_not_mentions (right : ∀ runner, job.HintsRightly runner s)
    (made : (s.tree.makeDirectories job.layout.outDir).1 = .ok ()) :
    Text.mentions "qemu" job.settings.cargoPath.written = false := by
  refine Bool.eq_false_iff.2 fun named => ?_
  obtain ⟨bs, o, takes, builds⟩ := run_builds (.answering fun _ => .missing) job s
  obtain ⟨as, -, calls, -, otherwise⟩ := (right _).exists_course takes builds
  obtain ⟨x, ys, call, split, -, stop⟩ := (builds.pursuit made).exists_cons
  have outcome : x.outcome = .ok .missing :=
    takes.course.outcome_of_answering (by simp [split])
  have missing : x.isMissing = true := by
    rw [Exchange.isMissing, outcome]
    rfl
  have last : ys = [] := stop (by simp [Exchange.status, outcome, Except.map, CallResult.missing])
  have hinted : (exchanges bs).flatMap Exchange.hint = hint := by
    have holds : Text.mentions "qemu" x.call.command = true := by
      rw [call]
      exact named
    rw [split, last, List.flatMap_singleton, Exchange.hint, if_pos ⟨missing, holds⟩]
  -- the build ends with its first call, which is not the emulator's
  have there : ¬job.EmulatorMissing as := by
    rintro ⟨y, hy, emulator, -⟩
    have mem := List.mem_map_of_mem (f := Exchange.call) hy
    rw [calls, split, last, List.map_singleton, List.mem_singleton, call] at mem
    rw [mem] at emulator
    cases eq_of_call? (show job.call? .compile = _ from rfl) emulator
  exact hint_ne_nil (hinted.symm.trans (otherwise there))

def answerWithoutEmulator (job : Job) (c : Call) : CallResult :=
  if job.call? .run = some c then .missing else {}

theorem exists_emulator_exchange {as : List Act} {o : Except Failure Int}
    (builds : Builds (.answering job.answerWithoutEmulator) job s as o)
    (course : Course (.answering job.answerWithoutEmulator) s as)
    (made : (s.tree.makeDirectories job.layout.outDir).1 = .ok ())
    (runs : job.options.shouldRun = true) :
    ∃ x ∈ exchanges as, job.call? .run = some x.call := by
  have passed (st : Stage) (other : st ≠ .run) {x : Exchange} (hx : x ∈ exchanges as)
      (call : job.call? st = some x.call) : x.status = .ok 0 := by
    rw [Exchange.status, course.outcome_of_answering hx, answerWithoutEmulator,
      if_neg (command_of_call? call other).2]
    rfl
  have pursuit := builds.pursuit made
  rw [plan, if_pos runs] at pursuit
  obtain ⟨x, ys, compile, split, on, -⟩ := pursuit.exists_cons
  rw [split] at passed ⊢
  have compiled := passed .compile (by simp) List.mem_cons_self (congrArg some compile.symm)
  obtain ⟨y, zs, image, rfl, on', -⟩ := (on compiled).exists_cons
  have built : y.status = .ok 0 :=
    passed .buildImage (by simp) (by simp) (congrArg some image.symm)
  obtain ⟨z, _, emulator, rfl, -, -⟩ := (on' built).exists_cons
  exact ⟨z, by simp, congrArg some emulator.symm⟩

/-- An emulator that is called otherwise is not hinted at when it is missing. -/
theorem emulator_mentions (right : ∀ runner, job.HintsRightly runner s)
    (made : (s.tree.makeDirectories job.layout.outDir).1 = .ok ())
    (runs : job.options.shouldRun = true) :
    Text.mentions "qemu" job.settings.qemuPath.written = true := by
  refine Decidable.byContradiction fun unnamed => ?_
  obtain ⟨bs, o, takes, builds⟩ := run_builds (.answering job.answerWithoutEmulator) job s
  obtain ⟨as, course, calls, given, -⟩ := (right _).exists_course takes builds
  obtain ⟨x, hx, emulator⟩ := exists_emulator_exchange builds takes.course made runs
  have silent : (exchanges bs).flatMap Exchange.hint = [] := by
    refine List.flatMap_eq_nil_iff.2 fun y hy => ?_
    have outcome := takes.course.outcome_of_answering hy
    rw [answerWithoutEmulator] at outcome
    rw [Exchange.hint]
    refine if_neg fun ⟨missing, named⟩ => ?_
    by_cases call : job.call? .run = some y.call
    · rw [← Option.some.inj call] at named
      exact unnamed named
    · rw [if_neg call] at outcome
      rw [Exchange.isMissing, outcome] at missing
      cases missing
  have mem := List.mem_map_of_mem (f := Exchange.call) hx
  rw [← calls] at mem
  obtain ⟨y, hy, call⟩ := List.mem_map.1 mem
  rw [← call] at emulator
  have missing : y.isMissing = true := by
    rw [Exchange.isMissing, course.outcome_of_answering hy, answerWithoutEmulator, if_pos emulator]
    rfl
  exact hint_ne_nil ((given ⟨y, hy, emulator, missing⟩).symm.trans silent)

/-- The hints of a build are those of the calls whose program is missing and whose command holds
`qemu`. They are given for the emulator and for nothing else in every run of a build exactly if,
unless its output directory cannot be made, the build tool's command does not hold the word and that
of the emulator does where the emulator is run. -/
theorem hints_told (job : Job) (s : RunState) :
    (∀ runner, ∃ as o told, Takes runner (job.run runner) s as o ∧
      (after runner s as).trace = s.trace ++ told ∧
      hintsIn told = (exchanges as).flatMap Exchange.hint) ∧
    ((∀ runner, job.HintsRightly runner s) ↔
      ((s.tree.makeDirectories job.layout.outDir).1 = .ok () →
        Text.mentions "qemu" job.settings.cargoPath.written = false ∧
          (job.options.shouldRun = true →
            Text.mentions "qemu" job.settings.qemuPath.written = true))) := by
  refine ⟨fun runner => ?_, fun right made => ?_, fun told runner => ?_⟩
  · obtain ⟨as, o, takes, builds⟩ := run_builds runner job s
    exact ⟨as, o, _, takes, trace_after runner s as,
      (hintsIn_written runner s as).trans builds.hints_eq⟩
  · exact ⟨tool_not_mentions right made, emulator_mentions right made⟩
  · obtain ⟨as, o, takes, builds⟩ := run_builds runner job s
    refine ⟨as, o, _, takes, trace_after runner s as, ?_⟩
    cases made : (s.tree.makeDirectories job.layout.outDir).1 with
    | ok _ => exact builds.hintsAtEmulator (told made).1 (told made).2
    | error e =>
        have silent := (hintsIn_written runner s as).trans builds.hints_eq
        cases builds with
        | unmade _ => exact ⟨fun ⟨x, hx, _⟩ => absurd hx (by simp), fun _ => silent⟩
        | made made' _ => cases made.symm.trans made'

/-- A build that boots nothing and whose build tool is missing from `/opt/qemu` tells the user to
install the emulator. -/
theorem hint_without_emulator :
    let settings : Settings := { cargoPath := "/opt/qemu/bin/cargo" }
    let job : Job := ⟨{}, Layout.resolve "/work" {} "/deps/bootloader" "kernel" settings none,
      settings, "/work"⟩
    let runner := Runner.scripted [("/opt/qemu/bin/cargo build", { result :=
      { exitCode := 1, spawnError := some ⟨some "ENOENT", "spawn /opt/qemu/bin/cargo ENOENT"⟩ } })]
    let left := ((job.run runner).run.run { tree := ⟨"/work", [(["work"], .directory)]⟩ }).2
    hintsIn left.trace = hint ∧ ∀ c ∈ left.calls, job.call? .run ≠ some c := by
  decide +kernel

end Job

end BootImage
