import BootImage.Build.Action
import BootImage.Text.Mention

/-!
# Running the stages of a build

The stages run one after the other, and the first that fails ends the build with its status. The
emulator comes last, and its status is that of the build whatever it is. Images that the builder was
expected to leave and did not are warned about and change no status.
-/

namespace BootImage

/-- What a build works with. Relative paths are seen from `cwd`. -/
structure Job where
  options : BuildOptions
  layout : Layout
  settings : Settings
  cwd : String := "/"
  deriving Repr

/-- The problems with a program that could not be started. One whose name holds `qemu` and that is
missing is taken for the emulator. -/
def spawnProblems (command : String) (e : SpawnError) : List Problem :=
  if e.code = some "ENOENT" then
    .notFound command ::
      if Text.mentions "qemu" command then [.emulatorNeeded, .emulatorSource] else []
  else [.notStarted command e.message]

/-- All problems that the result of a call shows, in the order in which they are told. -/
def callProblems (command : String) (r : CallResult) : List Problem :=
  (match r.spawnError with
    | some e => spawnProblems command e
    | none => []) ++
  (r.signal.map Problem.signalled).toList

namespace Job

def start (runner : Runner) (command : String) (args : List String) (cwd : String) :
    Action Int := do
  Action.progress (.running command args)
  let result ← Action.call runner ⟨.run, command, args, some cwd⟩
  Action.lines ((callProblems command result).map .problem)
  return result.exitCode

def artifactLine (job : Job) (tree : FileTree) (a : Artifact) : Line :=
  let path := job.layout.artifact a
  if tree.exists? path then
    .progress (.diskImage (Path.relative job.cwd job.layout.projectDir path))
  else .problem (.imageMissing path)

def biosPath (job : Job) : String :=
  Path.resolve job.cwd [job.layout.projectDir, job.settings.biosPath.written]

def perform (runner : Runner) (job : Job) : Stage → Action Int
  | .ensureOutDir => do
    match ← Action.makeDirectories job.layout.outDir with
    | .ok () => return 0
    | .error e => do
      Action.problem (.outDirNotMade job.layout.outDir e)
      return 1
  | .compile =>
    start runner job.settings.cargoPath.written (compileArgs job.options) job.layout.projectDir
  | .buildImage => do
    let status ← start runner job.settings.cargoPath.written (imageArgs job.layout)
      job.layout.dependencyRootDir
    if status = 0 then
      let tree ← Action.tree
      Action.lines (.progress .diskImages :: Artifact.all.map (job.artifactLine tree))
    return status
  | .run => do
    if job.options.waitForDebugger then Action.progress .waitingForDebugger
    start runner job.settings.qemuPath.written
      (emulatorArgs job.options job.biosPath (job.layout.artifact .uefiImage))
      job.layout.projectDir
  | .done => return 0

/-- Runs a stage and those after it; the result is the status of the build. -/
def runFrom (runner : Runner) (job : Job) (s : Stage) : Action Int :=
  if _h : s = .done then return 0
  else do
    Action.detail (.stage s)
    let status ← perform runner job s
    if s = .run then
      Action.detail (.emulatorExited status)
      return status
    else if status ≠ 0 then
      Action.detail (.stageFailed s status)
      return status
    else runFrom runner job (s.next job.options)
termination_by s.remaining
decreasing_by exact Stage.remaining_next_lt job.options _h

def run (runner : Runner) (job : Job) : Action Int := runFrom runner job .ensureOutDir

end Job

end BootImage
