import BootImage.Build.Pipeline
import BootImage.Dependency.Query

/-!
# A run of the program

The words of the command line decide what a run does. A build loads the project's settings, finds
the dependency that builds the images, lays out its paths and runs its stages. A run always ends
with a status: whatever stops it is told as a problem and gives status 1.
-/

namespace BootImage

structure Invocation where
  args : List String := []
  env : Environment := []
  /-- the choice of debug components that the process itself was started with -/
  ambientDebug : Option String := none
  projectDir : String := "/"
  /-- the directory that relative paths are seen from -/
  cwd : String := "/"
  /-- what the reader of JSON says of a text that is not JSON -/
  complain : String → String := fun _ => "the text is malformed"

namespace Invocation

def components (inv : Invocation) : List Component :=
  Component.inEffect (inv.env.lookup "BOOT_BUILDER_DEBUG") inv.ambientDebug

def settings (inv : Invocation) (tree : FileTree) : Except Settings.LoadError Settings :=
  Settings.load inv.complain tree inv.env inv.projectDir

/-- What a run shows: until its settings are known it is not quiet. -/
def verbosity (inv : Invocation) (tree : FileTree) : Verbosity where
  quiet := match inv.settings tree with
    | .ok s => s.quiet
    | .error _ => false
  components := inv.components

def search (runner : Runner) (inv : Invocation) (settings : Settings) :
    Action (Except MetadataError FoundDependency) :=
  findDependency inv.complain runner settings.cargoPath.written (some inv.projectDir)
    settings.bootloaderDependency

/-- What there is to do when the dependency was found. Paths go to the system, so they are taken as
they are written out. -/
def job (inv : Invocation) (o : BuildOptions) (settings : Settings) (found : FoundDependency) :
    Job where
  options := o
  layout := Layout.resolve inv.cwd o found.dir.written inv.projectDir settings
    (found.rootName.map WideText.written)
  settings := settings
  cwd := inv.cwd

def conclude (runner : Runner) (inv : Invocation) (o : BuildOptions) (settings : Settings) :
    Except MetadataError FoundDependency → Action Int
  | .error e => do
    Action.problem (.failure (.metadata e))
    return 1
  | .ok found => do
    Action.detail (.binary (inv.job o settings found).layout.expectedBinaryPath)
    (inv.job o settings found).run runner

def build (runner : Runner) (inv : Invocation) (o : BuildOptions) : Action Int := do
  match inv.settings (← Action.tree) with
  | .error e => throw (.ofLoadError e)
  | .ok settings =>
    Action.detail (.options o)
    let found ← inv.search runner settings
    inv.conclude runner o settings found

/-- A run: its status, and the tree and the events it leaves. -/
def run (runner : Runner) (inv : Invocation) : StateM RunState Int :=
  match Request.parse inv.args with
  | .help => print [helpText ++ "\n"] 0
  | .refused e => print [s!"Error: {e.message}\n", usageText ++ "\n"] 1
  | .build o => do
    match ← (inv.build runner o).run with
    | .ok status => return status
    | .error f =>
      modify fun s => { s with trace := s.trace ++ [.line (.problem (.failure f))] }
      return 1
where
  /-- Prints texts and ends with a status. -/
  print (texts : List String) (status : Int) : StateM RunState Int := do
    modify fun s => { s with trace := s.trace ++ texts.map .print }
    return status

/-- What a run comes to for those outside: its status, what is seen of it in the order of time, and
the files it leaves. -/
structure Observation where
  status : Int
  sights : List Sight
  tree : FileTree
  deriving Repr

def observe (runner : Runner) (inv : Invocation) (tree : FileTree) : Observation :=
  let (status, s) := inv.run runner { tree }
  ⟨status, s.trace.filterMap (Event.shown? (inv.verbosity tree)), s.tree⟩

end Invocation

end BootImage
