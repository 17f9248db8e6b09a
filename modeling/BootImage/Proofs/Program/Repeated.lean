import BootImage.Call.Scripted
import BootImage.Json.Render
import BootImage.Proofs.Program.Ambient
import BootImage.Proofs.Program.Entrance

/-!
# A run and the same run once more

A run leaves behind its output directory at most, and if no links are on the ways to that directory
and to the settings file, the same run on what it left does and shows the same and leaves the same.
The directory that is there already is made once more to no effect; the settings file does not lie
on the way to it, so it is found as before; and the programs that are called know nothing of the
files.
-/

namespace BootImage

/-- What a runner says of a call does not depend on the files, and its programs leave them as they
are. -/
structure Runner.Unseeing (runner : Runner) : Prop where
  still : runner.LeavesFiles
  outcome (past : List Event) (t u : FileTree) (c : Call) :
    (runner past t c).outcome = (runner past u c).outcome
  events (past : List Event) (t u : FileTree) (c : Call) :
    (runner past t c).events = (runner past u c).events

theorem Runner.unseeing_scripted {key : String} {answer : ScriptedAnswer}
    (h : answer.creates = []) : (Runner.scripted [(key, answer)]).Unseeing where
  still past tree c := by
    have nothing : ((List.lookup c.key [(key, answer)]).getD {}).creates = [] := by
      rw [List.lookup_cons]
      cases c.key == key
      · rfl
      · exact h
    rw [scripted]
    simp only [nothing, List.foldl_nil]
  outcome _ _ _ _ := rfl
  events _ _ _ _ := rfl

/-- Where no directories are made, the files do not matter. -/
theorem Runner.Unseeing.after_eq {runner : Runner} (unseeing : runner.Unseeing) {as : List Act}
    (hd : directories as = []) (s : RunState) (u : FileTree) :
    after runner ⟨u, s.trace⟩ as = ⟨u, (after runner s as).trace⟩ := by
  induction as generalizing s with
  | nil => rfl
  | cons a as ih =>
      cases a with
      | print text => exact ih hd (Act.after runner s (.print text))
      | line l => exact ih hd (Act.after runner s (.line l))
      | makeDirectories path made => cases hd
      | call c outcome =>
          have called : Act.after runner ⟨u, s.trace⟩ (.call c outcome) =
              ⟨u, (Act.after runner s (.call c outcome)).trace⟩ := by
            simp only [Act.after, unseeing.still s.trace u c, unseeing.events s.trace u s.tree c]
          rw [after_cons, after_cons, called]
          exact ih hd (Act.after runner s (.call c outcome))

theorem Settings.load_congr {t u : FileTree} {projectDir : String}
    (h : t.at? (pathIn projectDir) = u.at? (pathIn projectDir)) (complain : String → String)
    (env : Environment) : load complain t env projectDir = load complain u env projectDir := by
  rw [load, load, loadFile, loadFile, FileTree.exists?, FileTree.exists?, FileTree.read,
    FileTree.read, h]

section Settings

variable {t : FileTree} {projectDir : String}
  (absolute : Path.isAbsolute projectDir.toList = true)

include absolute

theorem isAbsolute_resolve_projectDir (cwd : String) :
    Path.isAbsolute (Path.resolve cwd [projectDir]).toList = true :=
  Path.isAbsolute_resolve (.inr ⟨projectDir, List.mem_singleton_self _, absolute⟩)

theorem way_outDirOf (t : FileTree) (cwd : String) :
    t.way (outDirOf cwd projectDir) =
      (Path.reduce false projectDir.toList).map String.ofList ++ ["out"] := by
  rw [outDirOf, FileTree.way_join (isAbsolute_resolve_projectDir absolute cwd) (by decide)
    (by decide), Path.reduce_resolve absolute]

theorem direct_outDirOf {cwd : String}
    (unlinked : t.Unlinked [] (t.way (outDirOf cwd projectDir))) :
    t.Direct [] (t.way (outDirOf cwd projectDir)) :=
  FileTree.direct_join (isAbsolute_resolve_projectDir absolute cwd) (by decide) (by decide) unlinked

theorem way_pathIn (t : FileTree) :
    t.way (Settings.pathIn projectDir) =
      (Path.reduce false projectDir.toList).map String.ofList ++ [settingsFileName] :=
  FileTree.way_join absolute (by decide) (by decide) t

/-- The settings file is neither the output directory nor on the way to it. -/
theorem at?_pathIn_makeDirectories (proper : t.Proper) {cwd : String}
    (unlinked : ∀ path ∈ [outDirOf cwd projectDir, Settings.pathIn projectDir],
      t.Unlinked [] (t.way path)) :
    (t.makeDirectories (outDirOf cwd projectDir)).2.at? (Settings.pathIn projectDir) =
      t.at? (Settings.pathIn projectDir) := by
  have beside : ¬ t.way (Settings.pathIn projectDir) <+: t.way (outDirOf cwd projectDir) := by
    rw [way_outDirOf absolute, way_pathIn absolute, List.prefix_append_right_inj]
    decide
  have way : (t.makeDirectories (outDirOf cwd projectDir)).2.way (Settings.pathIn projectDir) =
      t.way (Settings.pathIn projectDir) := by
    rw [way_pathIn absolute, way_pathIn absolute]
  have direct {t : FileTree} (unlinked : t.Unlinked [] (t.way (Settings.pathIn projectDir))) :
      t.Direct [] (t.way (Settings.pathIn projectDir)) :=
    FileTree.direct_join absolute (by decide) (by decide) unlinked
  rw [List.forall_mem_cons, List.forall_mem_singleton] at unlinked
  have unlinked' := unlinked.2.makeDirectories (outDirOf cwd projectDir)
  rw [← way] at unlinked'
  rw [(proper.makeDirectories _).at?_eq (direct unlinked'), proper.at?_eq (direct unlinked.2), way,
    (direct_outDirOf absolute unlinked.1).find?_makeDirectories_beside beside]

end Settings

def RunState.withDirectory (s : RunState) (path : String) : RunState :=
  { s with tree := (s.tree.makeDirectories path).2 }

/-- A directory that is there already can be made once more, and the same comes of it. -/
theorem FileTree.Direct.run_makeDirectories_again {s : RunState} {path : String}
    (direct : s.tree.Direct [] (s.tree.way path)) :
    (Action.makeDirectories path).run.run (s.withDirectory path) =
      (Action.makeDirectories path).run.run s := by
  have ends (s : RunState) : (Action.makeDirectories path).run.run s =
      (.ok (s.tree.makeDirectories path).1, s.withDirectory path) := rfl
  rw [ends, ends, RunState.withDirectory, RunState.withDirectory, direct.makeDirectories_again]

/-- Acts that make no directory themselves do not notice the one that is there. -/
theorem Runner.Unseeing.after_withDirectory {runner : Runner} (unseeing : runner.Unseeing)
    {as : List Act} (hd : directories as = []) (s : RunState) (path : String) :
    after runner (s.withDirectory path) as = (after runner s as).withDirectory path := by
  rw [RunState.withDirectory, unseeing.after_eq hd s, RunState.withDirectory,
    unseeing.still.tree_after s hd]

section Job

variable (job : Job) (runner : Runner) (s : RunState)
  (direct : s.tree.Direct [] (s.tree.way job.layout.outDir))

include direct

theorem Job.perform_ensureOutDir_again :
    (job.perform runner .ensureOutDir).run.run (s.withDirectory job.layout.outDir) =
      (job.perform runner .ensureOutDir).run.run s := by
  rw [perform, Takes.run_bind, Takes.run_bind, direct.run_makeDirectories_again]

/-- A build whose output directory is made already does the same as one that makes it. -/
theorem Job.run_again :
    (job.run runner).run.run (s.withDirectory job.layout.outDir) = (job.run runner).run.run s := by
  have told (s : RunState) := (Takes.line runner s (.detail (.stage .ensureOutDir))).ends
  have performed := job.perform_ensureOutDir_again runner
    (after runner s [.line (.detail (.stage .ensureOutDir))]) direct
  rw [run, runFrom, dif_neg (by simp), Takes.run_bind, Takes.run_bind, Action.detail, told, told]
  dsimp only
  rw [Takes.run_bind, Takes.run_bind, ← performed]
  rfl

end Job

namespace Invocation

variable {runner : Runner} {inv : Invocation} {s : RunState}

theorem build_run {o : BuildOptions} {settings : Settings} {dependency : FoundDependency}
    (loaded : inv.settings s.tree = .ok settings)
    (found : inv.found runner s o settings = .ok (.ok dependency)) :
    (inv.build runner o).run.run s = ((inv.job o settings dependency).run runner).run.run
      (after runner s (inv.searched runner s o settings ++ [.line
        (.detail (.binary (inv.job o settings dependency).layout.expectedBinaryPath))])) := by
  have searched : Takes runner (inv.search runner settings)
      (after runner s [.line (.detail (.options o))]) _ (inv.found runner s o settings) :=
    findDependency_takes ..
  rw [found] at searched
  rw [build, Takes.run_bind, (Takes.tree runner s).ends]
  dsimp only
  rw [after_nil, loaded]
  dsimp only
  rw [Takes.run_bind, Action.detail, (Takes.line runner s _).ends]
  dsimp only
  rw [Takes.run_bind, searched.ends]
  dsimp only
  rw [conclude, Takes.run_bind, Action.detail, (Takes.line runner _ _).ends, after_append]
  rfl

section Again

variable (proper : s.tree.Proper) (absolute : Path.isAbsolute inv.projectDir.toList = true)
  (unlinked : ∀ path ∈ [outDirOf inv.cwd inv.projectDir, Settings.pathIn inv.projectDir],
    s.tree.Unlinked [] (s.tree.way path))

include proper absolute unlinked

theorem settings_makeDirectories :
    inv.settings (s.tree.makeDirectories (outDirOf inv.cwd inv.projectDir)).2 =
      inv.settings s.tree := by
  rw [Invocation.settings, Invocation.settings,
    Settings.load_congr (at?_pathIn_makeDirectories absolute proper unlinked)]

variable (unseeing : runner.Unseeing)

include unseeing

omit proper absolute unlinked in
theorem answer_withDirectory (o : BuildOptions) (settings : Settings) (path : String) :
    inv.answer runner (s.withDirectory path) o settings = inv.answer runner s o settings :=
  unseeing.outcome _ _ _ _

theorem build_again {o : BuildOptions} {settings : Settings} {dependency : FoundDependency}
    (loaded : inv.settings s.tree = .ok settings)
    (found : inv.found runner s o settings = .ok (.ok dependency)) :
    (inv.build runner o).run.run (s.withDirectory (outDirOf inv.cwd inv.projectDir)) =
      (inv.build runner o).run.run s := by
  have loaded' : inv.settings (s.withDirectory (outDirOf inv.cwd inv.projectDir)).tree =
      .ok settings := by
    rw [RunState.withDirectory, settings_makeDirectories proper absolute unlinked, loaded]
  have found' : inv.found runner (s.withDirectory (outDirOf inv.cwd inv.projectDir)) o settings =
      .ok (.ok dependency) := by
    rw [Invocation.found, answer_withDirectory unseeing]
    exact found
  have searched : inv.searched runner (s.withDirectory (outDirOf inv.cwd inv.projectDir)) o
      settings = inv.searched runner s o settings := by
    rw [Invocation.searched, Invocation.searched, answer_withDirectory unseeing]
  rw [build_run loaded found, build_run loaded' found', searched]
  generalize hj : inv.job o settings dependency = job
  have outDir : job.layout.outDir = outDirOf inv.cwd inv.projectDir := by
    rw [← hj]
    exact Layout.outDir_resolve ..
  have hd : directories (inv.searched runner s o settings ++
      [.line (.detail (.binary job.layout.expectedBinaryPath))]) = [] := by
    simp
  rw [unseeing.after_withDirectory hd, ← outDir]
  refine job.run_again runner _ ?_
  rw [unseeing.still.tree_after s hd, outDir]
  exact direct_outDirOf absolute (unlinked _ List.mem_cons_self)

/-- A run that begins a build does the same when its output directory is made already. -/
theorem run_again (enters : inv.Enters runner s) :
    (inv.run runner).run (s.withDirectory (outDirOf inv.cwd inv.projectDir)) =
      (inv.run runner).run s := by
  obtain ⟨o, settings, dependency, request, loaded, found⟩ := enters
  rw [run, request]
  dsimp only
  rw [StateT.run_bind, StateT.run_bind,
    build_again proper absolute unlinked unseeing loaded found]

end Again

/-- On the files that it left the same run does, shows and leaves the same, if no link lies on the
ways to its output directory and to its settings file. -/
theorem observe_again {t : FileTree} (proper : t.Proper)
    (absolute : Path.isAbsolute inv.projectDir.toList = true)
    (unlinked : ∀ path ∈ [outDirOf inv.cwd inv.projectDir, Settings.pathIn inv.projectDir],
      t.Unlinked [] (t.way path)) (unseeing : runner.Unseeing) :
    inv.observe runner (inv.observe runner t).tree = inv.observe runner t := by
  by_cases enters : inv.Enters runner { tree := t }
  · have verbosity : inv.verbosity (t.makeDirectories (outDirOf inv.cwd inv.projectDir)).2 =
        inv.verbosity t := by
      rw [Invocation.verbosity, Invocation.verbosity,
        settings_makeDirectories (s := { tree := t }) proper absolute unlinked]
    have again := run_again (s := { tree := t }) proper absolute unlinked unseeing enters
    change (inv.run runner).run { tree := _ } = _ at again
    rw [tree_observe_of_enters unseeing.still enters, observe_eq, observe_eq, trace, trace,
      verbosity, again]
  · rw [tree_observe_of_not_enters unseeing.still enters]

def kernelMetadata : Json :=
  .object [
    ("packages", .array [.object [("id", .string "b"), ("name", .string "bootloader"),
      ("manifest_path", .string "/boot/Cargo.toml")]]),
    ("resolve", .object [("root", .string "k"), ("nodes", .array [.object [("id", .string "k"),
      ("deps", .array [.object [("name", .string "bootloader"), ("pkg", .string "b")]])]])])]

/-- The first run for a kernel whose directory is not there yet makes that directory with the one
for its images, and the second run finds both and does the same. -/
theorem observe_again_kernel :
    let runner := Runner.scripted
      [("cargo metadata", { result := { stdout := kernelMetadata.render } })]
    let inv : Invocation := { args := ["run"], projectDir := "/work/kernel" }
    let first := inv.observe runner ⟨"/work", [(["work"], .directory)]⟩
    first.tree.find? ["work", "kernel", "out"] = some .directory ∧
      inv.observe runner first.tree = first := by
  exact ⟨by decide +kernel, observe_again (by decide) (by decide) (by decide +kernel)
    (Runner.unseeing_scripted rfl)⟩

/-- With the settings file a link to the output directory, the second run finds a directory where
the first found nothing. -/
theorem observe_again_not_over_link :
    let runner := Runner.scripted
      [("cargo metadata", { result := { stdout := kernelMetadata.render } })]
    let inv : Invocation := { projectDir := "/kernel" }
    let t : FileTree :=
      ⟨"/", [(["kernel"], .directory), (["kernel", settingsFileName], .link "out")]⟩
    let first := inv.observe runner t
    t.Proper ∧ runner.Unseeing ∧ first.status = 0 ∧ (inv.observe runner first.tree).status = 1 := by
  exact ⟨by decide, Runner.unseeing_scripted rfl, by decide +kernel, by decide +kernel⟩

end Invocation

end BootImage
