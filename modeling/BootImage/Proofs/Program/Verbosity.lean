import BootImage.Proofs.Program.Ambient

/-!
# What a run shows and what it does

Two variables of the environment choose what a run shows: one names the components whose debug lines
are shown, the other leaves out the progress. Neither is looked at by anything a run does, so runs
that are started alike but for them have the same events. What is seen of each is what its choice
keeps of the run that shows everything.
-/

namespace BootImage

def Settings.withQuiet (s : Settings) (quiet : Bool) : Settings := { s with quiet }

theorem Settings.ofSources_eq_withQuiet {env env' : Environment} (file : SettingsFile)
    (h : ∀ name, name ≠ "BOOT_BUILDER_DEBUG" → name ≠ "BOOT_BUILDER_QUIET" →
      env.lookup name = env'.lookup name) :
    ofSources file env' = (ofSources file env).withQuiet (ofSources file env').quiet := by
  have cargo := h "BOOT_BUILDER_CARGO" (by decide) (by decide)
  have qemu := h "BOOT_BUILDER_QEMU" (by decide) (by decide)
  simp only [ofSources, withQuiet, Environment.value?, cargo, qemu]

namespace Job

variable (runner : Runner) (job : Job) (quiet : Bool)

def withQuiet : Job := { job with settings := job.settings.withQuiet quiet }

theorem perform_withQuiet (st : Stage) :
    (job.withQuiet quiet).perform runner st = job.perform runner st := by
  cases st <;> rfl

theorem runFrom_withQuiet (st : Stage) :
    runFrom runner (job.withQuiet quiet) st = runFrom runner job st := by
  rw [runFrom.eq_def, runFrom.eq_def runner job]
  by_cases hd : st = .done
  · rw [dif_pos hd, dif_pos hd]
  · have continued := runFrom_withQuiet (st.next job.options)
    rw [dif_neg hd, dif_neg hd, perform_withQuiet]
    refine bind_congr fun _ => bind_congr fun status => ?_
    rw [← continued]
    rfl
termination_by st.remaining
decreasing_by exact Stage.remaining_next_lt job.options hd

theorem run_withQuiet : (job.withQuiet quiet).run runner = job.run runner :=
  runFrom_withQuiet runner job quiet .ensureOutDir

end Job

namespace Invocation

/-- The runs are started alike, except for what their environments say of what is shown, and for the
choice of components that their processes were started with. -/
structure Alike (inv inv' : Invocation) : Prop where
  args : inv.args = inv'.args
  env (name : String) (debug : name ≠ "BOOT_BUILDER_DEBUG") (quiet : name ≠ "BOOT_BUILDER_QUIET") :
    inv.env.lookup name = inv'.env.lookup name
  projectDir : inv.projectDir = inv'.projectDir
  cwd : inv.cwd = inv'.cwd
  complain : inv.complain = inv'.complain

def loud (inv : Invocation) : Invocation :=
  { inv with env := ("BOOT_BUILDER_DEBUG", "all") :: ("BOOT_BUILDER_QUIET", "0") :: inv.env }

theorem alike_loud (inv : Invocation) : inv.Alike inv.loud where
  args := rfl
  env name debug quiet := by
    have debug' := beq_eq_false_iff_ne.2 debug
    have quiet' := beq_eq_false_iff_ne.2 quiet
    simp only [loud, List.lookup_cons, debug', quiet']
  projectDir := rfl
  cwd := rfl
  complain := rfl

theorem verbosity_loud (inv : Invocation) (tree : FileTree) : inv.loud.verbosity tree = .full := by
  have components : inv.loud.components = Component.all := by
    change Component.parse "all" = Component.all
    decide
  have quiet (file : SettingsFile) : (Settings.ofSources file inv.loud.env).quiet = false := by
    change isOn "0" = false
    decide
  rw [verbosity, settings, Settings.load, components, Verbosity.full]
  cases Settings.loadFile inv.loud.complain tree inv.loud.projectDir with
  | error e => rfl
  | ok file =>
      dsimp only [Except.map]
      rw [quiet]

variable (runner : Runner) {inv inv' : Invocation}

theorem settings_alike (h : inv.Alike inv') (tree : FileTree) :
    ∃ quiet, inv'.settings tree = (inv.settings tree).map fun s => s.withQuiet quiet := by
  rw [settings, settings, Settings.load, Settings.load, ← h.projectDir, ← h.complain]
  cases Settings.loadFile inv.complain tree inv.projectDir with
  | error e => exact ⟨false, rfl⟩
  | ok file =>
      refine ⟨(Settings.ofSources file inv'.env).quiet, ?_⟩
      exact congrArg Except.ok (Settings.ofSources_eq_withQuiet file h.env)

theorem conclude_alike (h : inv.Alike inv') (o : BuildOptions) (settings : Settings) (quiet : Bool)
    (found : Except MetadataError FoundDependency) :
    inv'.conclude runner o (settings.withQuiet quiet) found =
      inv.conclude runner o settings found := by
  cases found with
  | error e => rfl
  | ok found =>
      have job : inv'.job o (settings.withQuiet quiet) found =
          (inv.job o settings found).withQuiet quiet := by
        rw [Invocation.job, Invocation.job, ← h.cwd, ← h.projectDir]
        rfl
      rw [conclude, job, Job.run_withQuiet]
      rfl

theorem build_alike (h : inv.Alike inv') (o : BuildOptions) :
    inv'.build runner o = inv.build runner o := by
  refine bind_congr fun tree => ?_
  obtain ⟨quiet, settings⟩ := settings_alike h tree
  rw [settings]
  cases inv.settings tree with
  | error e => rfl
  | ok settings =>
      refine bind_congr fun _ => ?_
      change (findDependency _ _ _ _ _ >>= _) = (findDependency _ _ _ _ _ >>= _)
      rw [h.projectDir, h.complain]
      refine bind_congr fun found => ?_
      exact conclude_alike runner h o settings quiet found

/-- What a run does is the same whatever it is to show. -/
theorem run_alike (h : inv.Alike inv') : inv'.run runner = inv.run runner := by
  have built := build_alike runner h
  rw [run, run, ← h.args]
  simp only [built]

/-- Runs that are started alike do the same, and what is seen of them differs in the report only.
What is seen of a run is what its own choice keeps of the run that shows everything, in the same
order; problems are always kept. -/
theorem observe_alike (h : inv.Alike inv') (tree : FileTree) :
    let seen := inv.observe runner tree
    let seen' := inv'.observe runner tree
    let all := inv.loud.trace runner tree
    let kept := all.filter (Event.keptBy (inv.verbosity tree))
    (seen.status = seen'.status ∧ seen.tree = seen'.tree ∧
      seen.sights.filter (fun x => !x.isReport) = seen'.sights.filter (fun x => !x.isReport)) ∧
    (inv.Alike inv.loud ∧ inv.loud.verbosity tree = .full ∧
      (inv.loud.observe runner tree).sights = all.filterMap (Event.shown? .full)) ∧
    seen.sights = kept.filterMap (Event.shown? .full) ∧
    kept.filter Event.isProblem = all.filter Event.isProblem := by
  intro seen seen' all kept
  have traced : inv.trace runner tree = all := by
    rw [trace, ← run_alike runner (alike_loud inv)]
    rfl
  have traced' : inv'.trace runner tree = all := by
    rw [trace, run_alike runner h]
    exact traced
  refine ⟨⟨?_, ?_, ?_⟩, ⟨alike_loud inv, verbosity_loud inv tree, ?_⟩, ?_, ?_⟩
  · simp only [seen, seen', observe_eq, run_alike runner h]
  · simp only [seen, seen', observe_eq, run_alike runner h]
  · simp only [seen, seen', observe_eq, traced, traced']
    exact Event.filter_filterMap_shown? all
  · rw [observe_eq, verbosity_loud]
  · simp only [seen, observe_eq, traced]
    exact Event.filterMap_shown?_eq_filter _ all
  · exact Event.filter_isProblem_filter_keptBy _ all

/-- A quiet run and one that shows the details of its options, in a project without files. -/
theorem observe_alike_quiet_debug :
    let inv : Invocation :=
      { env := [("BOOT_BUILDER_QUIET", "1")], projectDir := "/work/kernel", cwd := "/work/kernel" }
    let inv' := { inv with env := [("BOOT_BUILDER_DEBUG", "args"), ("BOOT_BUILDER_QUIET", "0")] }
    let seen := inv.observe Runner.failing ⟨"/work", []⟩
    let seen' := inv'.observe Runner.failing ⟨"/work", []⟩
    inv.Alike inv' ∧ seen.status = seen'.status ∧ seen.sights ≠ seen'.sights ∧
      seen.sights.filter (fun x => !x.isReport) = seen'.sights.filter (fun x => !x.isReport) := by
  intro inv inv' seen seen'
  have alike : inv.Alike inv' := by
    refine ⟨rfl, ?_, rfl, rfl, rfl⟩
    intro name debug quiet
    have debug' := beq_eq_false_iff_ne.2 debug
    have quiet' := beq_eq_false_iff_ne.2 quiet
    simp only [inv, inv', List.lookup_cons, debug', quiet']
  obtain ⟨⟨status, -, sights⟩, -⟩ := observe_alike Runner.failing alike ⟨"/work", []⟩
  exact ⟨alike, status, by decide, sights⟩

end Invocation

end BootImage
