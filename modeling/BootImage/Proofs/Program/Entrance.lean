import BootImage.Proofs.Build.Frame
import BootImage.Proofs.Program.Courses

/-!
# Runs that begin a build

A run begins a build if its words ask for one, its settings can be loaded and its search finds the
dependency. All other runs end before, and they make no directory. What precedes the build in a run
makes no directory and runs no program either, so what a run does to the files is what its build
does.
-/

namespace BootImage

def outDirOf (cwd projectDir : String) : String :=
  Path.join [Path.resolve cwd [projectDir], "out"]

theorem Layout.outDir_resolve (cwd : String) (o : BuildOptions) (dependencyDir projectDir : String)
    (settings : Settings) (rootName : Option String) :
    (Layout.resolve cwd o dependencyDir projectDir settings rootName).outDir =
      outDirOf cwd projectDir := rfl

namespace Invocation

def Enters (runner : Runner) (inv : Invocation) (s : RunState) : Prop :=
  ∃ o settings dependency, Request.parse inv.args = .build o ∧
    inv.settings s.tree = .ok settings ∧ inv.found runner s o settings = .ok (.ok dependency)

variable {runner : Runner} {inv : Invocation} {s : RunState} {as : List Act} {status : Int}

theorem mode_of_mem_searched {o : BuildOptions} {settings : Settings} {x : Exchange}
    (h : x ∈ exchanges (inv.searched runner s o settings)) : x.call.mode = .capture := by
  rw [exchanges_searched, List.mem_singleton] at h
  rw [h]
  rfl

/-- A run that does not begin a build makes no directory. -/
theorem Unfolds.directories_eq_nil (h : inv.Unfolds runner s as status)
    (stays : ¬ inv.Enters runner s) : directories as = [] := by
  cases h with
  | help _ => rfl
  | refused _ => rfl
  | unset _ _ => rfl
  | stopped _ _ _ => simp
  | unfound _ _ _ => simp
  | built request loaded found _ _ => exact absurd ⟨_, _, _, request, loaded, found⟩ stays

/-- A run that begins a build is that build, behind acts that make no directory and run no
program. -/
theorem Unfolds.exists_builds (h : inv.Unfolds runner s as status)
    (enters : inv.Enters runner s) :
    ∃ (job : Job) (first bs : List Act) (o : Except Failure Int),
      as = first ++ (bs ++ closing o) ∧ status = exitStatus o ∧ directories first = [] ∧
      (∀ x ∈ exchanges first, x.call.mode ≠ .run) ∧
      job.layout.outDir = outDirOf inv.cwd inv.projectDir ∧
      job.Builds runner (after runner s first) bs o := by
  obtain ⟨o, settings, dependency, request, loaded, found⟩ := enters
  cases h with
  | help request' => cases request.symm.trans request'
  | refused request' => cases request.symm.trans request'
  | unset _ loaded' => cases loaded.symm.trans loaded'
  | stopped request' loaded' found' =>
      cases request.symm.trans request'
      cases loaded.symm.trans loaded'
      cases found.symm.trans found'
  | unfound request' loaded' found' =>
      cases request.symm.trans request'
      cases loaded.symm.trans loaded'
      cases found.symm.trans found'
  | @built o' settings' dependency' job bs outcome _ _ _ given builds =>
      refine ⟨job, _, bs, outcome, by simp, rfl, ?_, ?_, ?_, builds⟩
      · simp
      · intro x hx
        rw [exchanges_append, exchanges_line_cons, exchanges_nil, List.append_nil] at hx
        simp [mode_of_mem_searched hx]
      · rw [← given]
        exact Layout.outDir_resolve ..

theorem Unfolds.tree_after (h : inv.Unfolds runner s as status) (still : runner.LeavesFiles)
    (enters : inv.Enters runner s) :
    (after runner s as).tree =
      (s.tree.makeDirectories (outDirOf inv.cwd inv.projectDir)).2 := by
  obtain ⟨job, first, bs, o, rfl, -, hd, -, outDir, builds⟩ := h.exists_builds enters
  rw [after_append, after_append, still.tree_after _ (directories_closing o),
    builds.tree_after still, still.tree_after _ hd, outDir]

section Observe

variable {t : FileTree}

theorem Runs.tree_observe (h : inv.Runs runner { tree := t } as status) :
    (inv.observe runner t).tree = (after runner { tree := t } as).tree :=
  congrArg (fun r => r.2.tree) h.ends

variable (still : runner.LeavesFiles)

include still

theorem tree_observe_of_enters (enters : inv.Enters runner { tree := t }) :
    (inv.observe runner t).tree =
      (t.makeDirectories (outDirOf inv.cwd inv.projectDir)).2 := by
  obtain ⟨as, status, runs, unfolds⟩ := inv.run_unfolds runner { tree := t }
  rw [runs.tree_observe, unfolds.tree_after still enters]

theorem tree_observe_of_not_enters (stays : ¬ inv.Enters runner { tree := t }) :
    (inv.observe runner t).tree = t := by
  obtain ⟨as, status, runs, unfolds⟩ := inv.run_unfolds runner { tree := t }
  rw [runs.tree_observe, still.tree_after _ (unfolds.directories_eq_nil stays)]

end Observe

end Invocation

end BootImage
