import BootImage.Proofs.Program.Plan

/-!
# The courses of a run

A run prints its help or what is wrong with its words, or it is for a build. A build can lack its
settings, its search can stop or come to nothing, or it finds its dependency and its stages begin.
`Unfolds` has one constructor for each of these, with all that the run does and the status it ends
with, so that what holds of all runs is shown case by case.
-/

namespace BootImage.Invocation

section Search

variable (runner : Runner) (inv : Invocation) (s : RunState) (o : BuildOptions)
  (settings : Settings)

def answer : Except Failure CallResult :=
  (runner (s.trace ++ [.line (.detail (.options o))]) s.tree
    (metadataCall settings.cargoPath.written (some inv.projectDir))).outcome

def found : Except Failure (Except MetadataError FoundDependency) :=
  (inv.answer runner s o settings).bind
    (searchOutcome inv.complain settings.cargoPath.written settings.bootloaderDependency)

def searched : List Act :=
  .line (.detail (.options o)) :: searchActs inv.complain settings.cargoPath.written
    (some inv.projectDir) settings.bootloaderDependency (inv.answer runner s o settings)

@[simp] theorem exchanges_searched :
    exchanges (inv.searched runner s o settings) =
      [⟨metadataCall settings.cargoPath.written (some inv.projectDir),
        inv.answer runner s o settings⟩] := by
  rw [searched, exchanges_line_cons, exchanges_searchActs]

@[simp] theorem directories_searched :
    directories (inv.searched runner s o settings) = [] := by
  rw [searched, directories_line_cons, directories_searchActs]

end Search

/-- The courses of a run from `s`, each with its status. -/
inductive Unfolds (runner : Runner) (inv : Invocation) (s : RunState) : List Act → Int → Prop
  | help (request : Request.parse inv.args = .help) :
      Unfolds runner inv s [.print (helpText ++ "\n")] 0
  | refused {e : UsageError} (request : Request.parse inv.args = .refused e) :
      Unfolds runner inv s [.print s!"Error: {e.message}\n", .print (usageText ++ "\n")] 1
  | unset {o : BuildOptions} {e : Settings.LoadError} (request : Request.parse inv.args = .build o)
      (loaded : inv.settings s.tree = .error e) :
      Unfolds runner inv s [.line (.problem (.failure (.ofLoadError e)))] 1
  | stopped {o : BuildOptions} {settings : Settings} {f : Failure}
      (request : Request.parse inv.args = .build o) (loaded : inv.settings s.tree = .ok settings)
      (found : inv.found runner s o settings = .error f) :
      Unfolds runner inv s
        (inv.searched runner s o settings ++ [.line (.problem (.failure f))]) 1
  | unfound {o : BuildOptions} {settings : Settings} {e : MetadataError}
      (request : Request.parse inv.args = .build o) (loaded : inv.settings s.tree = .ok settings)
      (found : inv.found runner s o settings = .ok (.error e)) :
      Unfolds runner inv s
        (inv.searched runner s o settings ++ [.line (.problem (.failure (.metadata e)))]) 1
  | built {o : BuildOptions} {settings : Settings} {dependency : FoundDependency} {job : Job}
      {as : List Act} {outcome : Except Failure Int} (request : Request.parse inv.args = .build o)
      (loaded : inv.settings s.tree = .ok settings)
      (found : inv.found runner s o settings = .ok (.ok dependency))
      (given : inv.job o settings dependency = job)
      (builds : job.Builds runner (after runner s (inv.searched runner s o settings ++
        [.line (.detail (.binary job.layout.expectedBinaryPath))])) as outcome) :
      Unfolds runner inv s (inv.searched runner s o settings ++
          .line (.detail (.binary job.layout.expectedBinaryPath)) :: (as ++ closing outcome))
        (exitStatus outcome)

theorem run_unfolds (runner : Runner) (inv : Invocation) (s : RunState) :
    ∃ as status, inv.Runs runner s as status ∧ inv.Unfolds runner s as status := by
  cases hp : Request.parse inv.args with
  | help => exact ⟨_, _, runs_of_help runner inv s hp, .help hp⟩
  | refused e => exact ⟨_, _, runs_of_refused runner inv s hp, .refused hp⟩
  | build o =>
      cases hs : inv.settings s.tree with
      | error e =>
          have built := build_takes_of_settings_eq_error runner inv s o hs
          exact ⟨_, _, runs_of_build runner inv s hp built, .unset hp hs⟩
      | ok settings =>
          have search : Takes runner (inv.search runner settings)
              (after runner s [.line (.detail (.options o))]) _ (inv.found runner s o settings) :=
            findDependency_takes ..
          cases hf : inv.found runner s o settings with
          | error f =>
              rw [hf] at search
              have built := build_takes runner inv s o hs (search.bind_error _)
              exact ⟨_, _, runs_of_build runner inv s hp built, .stopped hp hs hf⟩
          | ok result =>
              rw [hf] at search
              cases result with
              | error e =>
                  have concluded := conclude_takes_of_error runner inv
                    (after runner s (inv.searched runner s o settings)) o settings e
                  have built := build_takes runner inv s o hs (search.bind concluded)
                  have runs := runs_of_build runner inv s hp built
                  rw [closing, List.append_nil] at runs
                  exact ⟨_, _, runs, .unfound hp hs hf⟩
              | ok dependency =>
                  generalize hj : inv.job o settings dependency = job
                  have told := Takes.line runner
                    (after runner s (inv.searched runner s o settings))
                    (.detail (.binary job.layout.expectedBinaryPath))
                  obtain ⟨as, outcome, ran, builds⟩ := job.run_builds runner
                    (after runner s (inv.searched runner s o settings ++
                      [.line (.detail (.binary job.layout.expectedBinaryPath))]))
                  rw [after_append] at ran
                  have concluded : Takes runner (inv.conclude runner o settings (.ok dependency))
                      (after runner s (inv.searched runner s o settings))
                      (.line (.detail (.binary job.layout.expectedBinaryPath)) :: as) outcome := by
                    rw [conclude, hj]
                    exact told.bind ran
                  have built := build_takes runner inv s o hs (search.bind concluded)
                  have runs := runs_of_build runner inv s hp built
                  rw [List.cons_append, List.append_assoc, List.cons_append] at runs
                  exact ⟨_, _, runs, .built hp hs hf hj builds⟩

end BootImage.Invocation
