import BootImage.Proofs.Program.Plan
import BootImage.Proofs.Report.Shown

/-!
# What a run takes from the surroundings of its process

A run is given an environment of its own, but where that does not choose debug components, the
choice that the process was started with counts. It decides only which debug lines are shown: what
the run does is the same. So what is seen of a run is free of the surroundings exactly if its
environment makes a choice, be it an empty one, or if the components that tell anything are shown or
hidden alike.
-/

namespace BootImage

def Runner.failing : Runner := fun _ tree _ =>
  { outcome := .ok { exitCode := 101 }, tree, meanwhile := Event.isMeanwhile_of_mem_nil }

namespace Invocation

def started (inv : Invocation) (env : Environment) (ambient : Option String) : Invocation :=
  { inv with env, ambientDebug := ambient }

def trace (runner : Runner) (inv : Invocation) (tree : FileTree) : List Event :=
  ((inv.run runner).run { tree }).2.trace

variable (runner : Runner) (inv : Invocation) (env : Environment) (tree : FileTree)
  (a a' : Option String)

theorem run_started : (inv.started env a).run runner = (inv.started env a').run runner := by
  have built (o : BuildOptions) :
      (inv.started env a).build runner o = (inv.started env a').build runner o := by
    rfl
  rw [run, run]
  simp only [built]
  rfl

theorem trace_started :
    (inv.started env a).trace runner tree = (inv.started env a').trace runner tree := by
  rw [trace, trace, run_started runner inv env a a']

theorem observe_eq :
    inv.observe runner tree =
      ⟨((inv.run runner).run { tree }).1,
        (inv.trace runner tree).filterMap (Event.shown? (inv.verbosity tree)),
        ((inv.run runner).run { tree }).2.tree⟩ := rfl

/-- What is seen of a run is the same in two processes exactly if the run's environment makes a
choice or no component that tells a detail is shown in one of them only. -/
theorem observe_started_eq_iff :
    (inv.started env a).observe runner tree = (inv.started env a').observe runner tree ↔
      (env.lookup "BOOT_BUILDER_DEBUG").isSome ∨
      ∀ d, .line (.detail d) ∈ (inv.started env none).trace runner tree →
        (d.component ∈ Component.inEffect none a ↔ d.component ∈ Component.inEffect none a') := by
  have components (a : Option String) : ((inv.started env a).verbosity tree).components =
      Component.inEffect (env.lookup "BOOT_BUILDER_DEBUG") a := rfl
  rw [observe_eq, observe_eq, run_started runner inv env a none, run_started runner inv env a' none,
    trace_started runner inv env tree a none, trace_started runner inv env tree a' none]
  simp only [Observation.mk.injEq, true_and, and_true]
  rw [Event.filterMap_shown?_eq_iff (by rfl), components, components]
  cases hv : env.lookup "BOOT_BUILDER_DEBUG" with
  | none => simp
  | some text =>
      -- an environment that makes a choice leaves no say to the process
      refine iff_of_true ?_ (.inl rfl)
      intro d _
      exact Iff.rfl

theorem options_told_of_failing {o : BuildOptions} {settings : Settings}
    (hp : Request.parse inv.args = .build o) (hs : inv.settings tree = .ok settings) :
    .line (.detail (.options o)) ∈ inv.trace Runner.failing tree := by
  have searched : Takes Runner.failing (inv.search Runner.failing settings)
      { tree, trace := [.line (.detail (.options o))] } _
      (.ok (.error (.failed settings.cargoPath.written 101))) :=
    findDependency_takes ..
  have concluded := searched.bind (conclude_takes_of_error Runner.failing inv _ o settings _)
  have runs := runs_of_build Runner.failing inv { tree } hp
    (build_takes Runner.failing inv { tree } o hs concluded)
  rw [trace, runs.ends]
  refine (trace_prefix_after Runner.failing
    (after Runner.failing { tree } [.line (.detail (.options o))]) _).subset ?_
  exact List.mem_singleton.2 rfl

/-- The environments of runs in which nothing that is seen depends on the process are those that
make a choice. In general the status, the files and what is seen beside the report do not depend on
it, and the report does only by details that the process's choice shows or hides. -/
theorem observe_free_of_ambient_iff (env : Environment) :
    ((∀ (runner : Runner) (inv : Invocation) (tree : FileTree) (a a' : Option String),
        (inv.started env a).observe runner tree = (inv.started env a').observe runner tree) ↔
      (env.lookup "BOOT_BUILDER_DEBUG").isSome) ∧
    ∀ (runner : Runner) (inv : Invocation) (tree : FileTree) (a a' : Option String),
      let seen := (inv.started env a).observe runner tree
      let seen' := (inv.started env a').observe runner tree
      seen.status = seen'.status ∧ seen.tree = seen'.tree ∧
      seen.sights.filter (fun x => !x.isReport) = seen'.sights.filter (fun x => !x.isReport) ∧
      (seen = seen' ↔
        (env.lookup "BOOT_BUILDER_DEBUG").isSome ∨
        ∀ d, .line (.detail d) ∈ (inv.started env none).trace runner tree →
          (d.component ∈ Component.inEffect none a ↔
            d.component ∈ Component.inEffect none a')) := by
  constructor
  · constructor
    · intro free
      -- a run on no files at all tells its options before anything else
      have alike := free Runner.failing {} ⟨"/work", []⟩ none (some "all")
      rw [observe_started_eq_iff] at alike
      refine alike.resolve_right ?_
      intro h
      have loaded (complain : String → String) :
          Settings.loadFile complain ⟨"/work", []⟩ "/" = .ok {} := rfl
      have settings : (started {} env none).settings ⟨"/work", []⟩ = .ok (.ofSources {} env) := by
        rw [Invocation.settings, Settings.load, started, loaded]
        rfl
      have told := options_told_of_failing (started {} env none) ⟨"/work", []⟩ rfl settings
      exact absurd ((h _ told).2 (by decide)) (by decide)
    · intro h runner inv tree a a'
      exact (observe_started_eq_iff runner inv env tree a a').2 (.inl h)
  · intro runner inv tree a a'
    refine ⟨?_, ?_, ?_, observe_started_eq_iff runner inv env tree a a'⟩
    · rw [observe_eq, observe_eq, run_started runner inv env a a']
    · rw [observe_eq, observe_eq, run_started runner inv env a a']
    · rw [observe_eq, observe_eq, trace_started runner inv env tree a a']
      exact Event.filter_filterMap_shown? _

/-- A run whose environment says nothing shows its options in a process that was started with the
choice of all components, and nothing of them in a process that was started with none. -/
theorem observe_not_free_of_ambient :
    ((started { projectDir := "/work/kernel" } [] (some "all")).observe Runner.failing
      ⟨"/work", []⟩).sights ≠
    ((started { projectDir := "/work/kernel" } [] none).observe Runner.failing
      ⟨"/work", []⟩).sights := by
  decide

end Invocation

end BootImage
