import BootImage.Program
import BootImage.Proofs.Build.Plan
import BootImage.Proofs.Dependency.Outcome
import BootImage.Proofs.Options

/-!
# A run carries out a plan

What a run calls and how it ends follow from the words of the command line, the settings, the search
for the dependency, the output directory and the plan of the build, in this order: the first of them
that fails decides, and nothing after it happens. A failure that ends a build is told at the end of
the run.
-/

namespace BootImage

/-- The status of a run that a build ends, be it with a status or with a failure. -/
def exitStatus : Except Failure Int → Int
  | .ok status => status
  | .error _ => 1

namespace Invocation

/-- From `s` the run takes the course `as` and ends with `status`. -/
structure Runs (runner : Runner) (inv : Invocation) (s : RunState) (as : List Act)
    (status : Int) : Prop where
  ends : (inv.run runner).run s = (status, after runner s as)
  course : Course runner s as

def closing : Except Failure Int → List Act
  | .ok _ => []
  | .error f => [.line (.problem (.failure f))]

@[simp] theorem exchanges_closing (outcome : Except Failure Int) :
    exchanges (closing outcome) = [] := by
  cases outcome <;> rfl

@[simp] theorem directories_closing (outcome : Except Failure Int) :
    directories (closing outcome) = [] := by
  cases outcome <;> rfl

variable (runner : Runner) (inv : Invocation) (s : RunState)

theorem runs_of_help (h : Request.parse inv.args = .help) :
    inv.Runs runner s [.print (helpText ++ "\n")] 0 := by
  refine ⟨?_, trivial, trivial⟩
  rw [run, h]
  rfl

theorem runs_of_refused {e : UsageError} (h : Request.parse inv.args = .refused e) :
    inv.Runs runner s [.print s!"Error: {e.message}\n", .print (usageText ++ "\n")] 1 := by
  refine ⟨?_, trivial, trivial, trivial⟩
  rw [run, h]
  change ((1 : Int), { s with trace := s.trace ++ [Event.print _, Event.print _] }) = _
  simp [Act.after]

theorem runs_of_build {o : BuildOptions} {as : List Act} {outcome : Except Failure Int}
    (h : Request.parse inv.args = .build o)
    (built : Takes runner (inv.build runner o) s as outcome) :
    inv.Runs runner s (as ++ closing outcome) (exitStatus outcome) := by
  constructor
  · rw [run, h, after_append]
    dsimp only
    rw [StateT.run_bind, built.ends]
    cases outcome <;> rfl
  · refine built.course.append ?_
    cases outcome with
    | ok status => trivial
    | error f => exact ⟨trivial, trivial⟩

theorem build_takes_of_settings_eq_error {e : Settings.LoadError} (o : BuildOptions)
    (h : inv.settings s.tree = .error e) :
    Takes runner (inv.build runner o) s [] (.error (.ofLoadError e)) := by
  refine (Takes.tree runner s).bind ?_
  rw [h]
  exact .throw runner _ _

theorem build_takes {settings : Settings} (o : BuildOptions)
    (h : inv.settings s.tree = .ok settings) {as : List Act} {outcome : Except Failure Int}
    (searched : Takes runner (inv.search runner settings >>= inv.conclude runner o settings)
      (after runner s [.line (.detail (.options o))]) as outcome) :
    Takes runner (inv.build runner o) s (.line (.detail (.options o)) :: as) outcome := by
  refine (Takes.tree runner s).bind ?_
  rw [h]
  exact (Takes.line runner s _).bind searched

theorem conclude_takes_of_error (o : BuildOptions) (settings : Settings) (e : MetadataError) :
    Takes runner (inv.conclude runner o settings (.error e)) s
      [.line (.problem (.failure (.metadata e)))] (.ok 1) :=
  (Takes.line runner s _).bind_pure fun _ => 1

end Invocation

end BootImage
