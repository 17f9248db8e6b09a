import BootImage.Json.Assembly
import BootImage.Json.Issue
import BootImage.Settings.Basic

/-!
# The settings file

A settings file is a JSON object. It may set any of the fields below and nothing else. A text field
holds a string that is not empty, and `quiet` holds a boolean. What is wrong with a file is told
completely: first the fields at fault, in the order of `SettingsField.all` wherever the file has
them, then the keys that mean nothing, in the order of the object's members.
-/

namespace BootImage

inductive SettingsField where
  | binaryName
  | targetTriple
  | manifestFile
  | bootloaderDependency
  | cargoPath
  | qemuPath
  | biosPath
  | quiet
  deriving DecidableEq, Repr

namespace SettingsField

/-- The fields in the order in which their faults are told. -/
def all : List SettingsField :=
  [binaryName, targetTriple, manifestFile, bootloaderDependency, cargoPath, qemuPath, biosPath,
    quiet]

def key : SettingsField → String
  | binaryName => "binaryName"
  | targetTriple => "targetTriple"
  | manifestFile => "manifestFile"
  | bootloaderDependency => "bootloaderDependency"
  | cargoPath => "cargoPath"
  | qemuPath => "qemuPath"
  | biosPath => "biosPath"
  | quiet => "quiet"

def ofKey? (k : WideText) : Option SettingsField := all.find? fun f => f.key == k

theorem mem_all (f : SettingsField) : f ∈ all := by cases f <;> decide

theorem ofKey?_key (f : SettingsField) : ofKey? f.key = some f := by cases f <;> decide

def fault? : SettingsField → Json → Option Json.Fault
  | quiet, .bool _ => none
  | quiet, d => some (.mistyped .boolean d.kind)
  | _, .string s => if s = "" then some .empty else none
  | _, d => some (.mistyped .string d.kind)

end SettingsField

/-- Why a text is no settings file. -/
inductive SettingsFault where
  | notJson (complaint : String)
  | illFormed (issues : List Json.Issue)
  deriving DecidableEq, Repr

structure SettingsError where
  path : String
  fault : SettingsFault
  deriving DecidableEq, Repr

/-- An issue with the position it is at; an object as a whole is `(root)`. -/
def Json.Issue.located (i : Json.Issue) : WideText :=
  (if i.position.isEmpty then "(root)" else i.position) ++ ": " ++ i.fault.message

def SettingsError.message (e : SettingsError) : WideText :=
  match e.fault with
  | .notJson complaint => s!"Invalid JSON in {e.path}: {complaint}"
  | .illFormed issues =>
    "Invalid " ++ e.path ++ ": " ++ .intercalate "; " (issues.map Json.Issue.located)

namespace SettingsFile

def fieldIssues (ms : List (WideText × Json)) : List Json.Issue :=
  SettingsField.all.filterMap fun f =>
    (ms.lookup (f.key : WideText)).bind fun d => (f.fault? d).map fun fault => ⟨[.key f.key], fault⟩

def unknownKeys (ms : List (WideText × Json)) : List WideText :=
  (ms.map Prod.fst).filter fun k => (SettingsField.ofKey? k).isNone

def issues (ms : List (WideText × Json)) : List Json.Issue :=
  let unknown := unknownKeys ms
  fieldIssues ms ++ if unknown.isEmpty then [] else [⟨[], .unrecognized unknown⟩]

def ofMembers (ms : List (WideText × Json)) : SettingsFile :=
  let text (f : SettingsField) := (ms.lookup (f.key : WideText)).bind Json.text?
  { binaryName := text .binaryName
    targetTriple := text .targetTriple
    manifestFile := text .manifestFile
    bootloaderDependency := text .bootloaderDependency
    cargoPath := text .cargoPath
    qemuPath := text .qemuPath
    biosPath := text .biosPath
    quiet := (ms.lookup (SettingsField.quiet.key : WideText)).bind Json.bool? }

def ofJson : Json → Except (List Json.Issue) SettingsFile
  | .object ms => if (issues ms).isEmpty then .ok (ofMembers ms) else .error (issues ms)
  | d => .error [⟨[], .mistyped .object d.kind⟩]

/-- Reads the text of the settings file at `path`. What is said of a text that is not JSON is up to
`complain`. -/
def parse (complain : String → String) (path content : String) :
    Except SettingsError SettingsFile :=
  match Json.parse? content with
  | none => .error ⟨path, .notJson (complain content)⟩
  | some d => (ofJson d).mapError fun issues => ⟨path, .illFormed issues⟩

end SettingsFile

end BootImage
