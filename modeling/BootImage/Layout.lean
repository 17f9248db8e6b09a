import BootImage.Options
import BootImage.Path.Basic
import BootImage.Settings.Basic

/-!
# Where a build keeps its files

A `Layout` is the set of paths that a build works with. They all follow from the project's
directory, the directory of the dependency that builds the images, the settings and the options.
The disk images are four artifacts in the layout's output directory, named after the kernel binary.
-/

namespace BootImage

def BuildOptions.profile (o : BuildOptions) : String := if o.optimized then "release" else "debug"

structure Layout where
  projectDir : String
  manifestPath : String
  targetDir : String
  outDir : String
  expectedBinaryPath : String
  dependencyRootDir : String
  binaryName : String
  deriving DecidableEq, Repr, Inhabited

/-- The name of the kernel binary: the one that is set, else that of the root package, else that of
the project's directory. -/
def kernelName (settings : Settings) (rootName : Option String) (projectDir : String) : String :=
  (settings.binaryName.map WideText.written <|> rootName).getD (Path.basename projectDir)

/-- The layout of the project in `projectDir`, which is seen from `cwd`. -/
def Layout.resolve (cwd : String) (o : BuildOptions) (dependencyDir projectDir : String)
    (settings : Settings) (rootName : Option String) : Layout :=
  let root := Path.resolve cwd [projectDir]
  let name := kernelName settings rootName root
  let targetDir := Path.join [root, "target"]
  { projectDir := root
    manifestPath := Path.join [root, settings.manifestFile.written]
    targetDir := targetDir
    outDir := Path.join [root, "out"]
    expectedBinaryPath := Path.join [targetDir, settings.targetTriple.written, o.profile, name]
    dependencyRootDir := Path.resolve cwd [dependencyDir]
    binaryName := name }

inductive Artifact where
  | biosImage
  | uefiImage
  | uefiEfi
  | uefiFat
  deriving DecidableEq, Repr

namespace Artifact

def all : List Artifact := [biosImage, uefiImage, uefiEfi, uefiFat]

def fileName (name : String) : Artifact → String
  | biosImage => s!"boot-bios-{name}.img"
  | uefiImage => s!"boot-uefi-{name}.img"
  | uefiEfi => s!"boot-uefi-{name}.efi"
  | uefiFat => s!"boot-uefi-{name}.fat"

def path (outDir name : String) (a : Artifact) : String := Path.join [outDir, a.fileName name]

theorem mem_all (a : Artifact) : a ∈ all := by cases a <;> decide

end Artifact

def Layout.artifact (l : Layout) (a : Artifact) : String := a.path l.outDir l.binaryName

end BootImage
