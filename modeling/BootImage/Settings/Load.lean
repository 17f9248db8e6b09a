import BootImage.Files.Walk
import BootImage.Settings.File
import BootImage.Text.Keyword
import BootImage.Text.Utf8

/-!
# Where settings come from

Each setting is taken from the environment where that says something, else from the project's
settings file, else it has its default value. The environment can set the build tool, the emulator
and quiet runs. A settings file that is there must be readable and well formed, whatever the
environment says.
-/

namespace BootImage

/-- Whether a flag of the environment is on: it is `1`, or `true` in any casing. -/
def isOn (value : String) : Bool := value == "1" || Text.isKeyword "true" value.toList

namespace Settings

def ofSources (file : SettingsFile) (env : Environment) : Settings where
  binaryName := file.binaryName
  targetTriple := file.targetTriple.getD ({} : Settings).targetTriple
  manifestFile := file.manifestFile.getD ({} : Settings).manifestFile
  bootloaderDependency := file.bootloaderDependency.getD ({} : Settings).bootloaderDependency
  cargoPath := ((env.value? "BOOT_BUILDER_CARGO").map WideText.ofString).getD
    (file.cargoPath.getD ({} : Settings).cargoPath)
  qemuPath := ((env.value? "BOOT_BUILDER_QEMU").map WideText.ofString).getD
    (file.qemuPath.getD ({} : Settings).qemuPath)
  biosPath := file.biosPath.getD ({} : Settings).biosPath
  quiet := match env.value? "BOOT_BUILDER_QUIET" with
    | some value => isOn value
    | none => file.quiet.getD ({} : Settings).quiet

def pathIn (projectDir : String) : String := Path.join [projectDir, settingsFileName]

/-- Why settings could not be loaded. -/
inductive LoadError where
  | settings (e : SettingsError)
  | file (e : FileError)
  deriving DecidableEq, Repr

/-- What the settings file of a project sets; nothing if there is none. -/
def loadFile (complain : String → String) (tree : FileTree) (projectDir : String) :
    Except LoadError SettingsFile :=
  let path := pathIn projectDir
  if tree.exists? path then
    match tree.read path with
    | .error e => .error (.file e)
    | .ok bytes => (SettingsFile.parse complain path (Text.decode bytes)).mapError .settings
  else .ok {}

def load (complain : String → String) (tree : FileTree) (env : Environment) (projectDir : String) :
    Except LoadError Settings :=
  (loadFile complain tree projectDir).map fun file => ofSources file env

end Settings

end BootImage
