import BootImage.Dependency.Graph
import BootImage.Json.Assembly
import BootImage.Json.Issue

/-!
# The metadata document

The build tool describes a project in a JSON document, of which the dependency graph is a part:
`packages` lists the packages, and `resolve` holds the root and the nodes. The root may be null but
not absent, a node without `deps` has no dependencies, and members that are not named here have no
meaning. A document that does not fit is refused for its first issue, the packages before the
resolution and each item before the next.
-/

namespace BootImage

/-- Why the dependency could not be found. -/
inductive MetadataError where
  /-- the build tool could not be started -/
  | notStarted (command message : String)
  /-- the build tool failed -/
  | failed (command : String) (exitCode : Int)
  /-- what the build tool printed is not JSON -/
  | notJson (complaint : String)
  /-- the document does not fit -/
  | illFormed (issue : Json.Issue)
  /-- the root has no such dependency -/
  | dependencyNotFound (name : WideText)
  deriving DecidableEq, Repr

/-- The kinds of such errors: the tool said nothing, nothing that fits, or nothing of the
dependency. -/
inductive MetadataErrorKind where
  | queryFailed
  | invalidMetadata
  | dependencyNotFound
  deriving DecidableEq, Repr

def MetadataErrorKind.name : MetadataErrorKind → String
  | queryFailed => "query-failed"
  | invalidMetadata => "invalid-metadata"
  | dependencyNotFound => "dependency-not-found"

def MetadataError.kind : MetadataError → MetadataErrorKind
  | notStarted .. | failed .. => .queryFailed
  | notJson _ | illFormed _ => .invalidMetadata
  | dependencyNotFound _ => .dependencyNotFound

def MetadataError.message : MetadataError → WideText
  | notStarted command message =>
    s!"Failed to query project metadata: could not start '{command}': {message}"
  | failed command exitCode =>
    s!"Failed to query project metadata: '{command} metadata' exited with status {exitCode}"
  | notJson complaint => s!"cargo metadata output is not valid JSON: {complaint}"
  | illFormed issue =>
    let place := if issue.path.isEmpty then "" else " at " ++ issue.position
    "Unexpected cargo metadata format" ++ place ++ ": " ++ issue.fault.message
  | dependencyNotFound name => "No dependency '" ++ name ++ "' found"

namespace DependencyGraph

open Json (Issue readArray readMember readMemberD readNullable readObject readString)

def readPackage (d : Json) : Except Issue PackageInfo := do
  let ms ← readObject d
  let id ← readMember ms "id" readString
  let name ← readMember ms "name" readString
  let manifestPath ← readMember ms "manifest_path" readString
  return { id, name, manifestPath }

def readEdge (d : Json) : Except Issue DependencyEdge := do
  let ms ← readObject d
  let name ← readMember ms "name" readString
  let pkgId ← readMember ms "pkg" readString
  return { name, pkgId }

def readNode (d : Json) : Except Issue DependencyNode := do
  let ms ← readObject d
  let id ← readMember ms "id" readString
  let deps ← readMemberD ms "deps" (readArray readEdge) []
  return { id, deps }

def readResolve (d : Json) : Except Issue (Option WideText × List DependencyNode) := do
  let ms ← readObject d
  let root ← readMember ms "root" (readNullable readString)
  let nodes ← readMember ms "nodes" (readArray readNode)
  return (root, nodes)

def ofJson (d : Json) : Except Issue DependencyGraph := do
  let ms ← readObject d
  let packages ← readMember ms "packages" (readArray readPackage)
  let (root, nodes) ← readMember ms "resolve" readResolve
  return { root, nodes, packages }

def ofJson? : Option Json → Except MetadataError DependencyGraph
  | some d => (ofJson d).mapError .illFormed
  | none => .error (.illFormed ⟨[], .required⟩)

/-- Reads the text of a metadata document. What is said of a text that is not JSON is up to
`complain`. -/
def parse (complain : String → String) (text : String) : Except MetadataError DependencyGraph :=
  match Json.parse? text with
  | some d => ofJson? (some d)
  | none => .error (.notJson (complain text))

end DependencyGraph

end BootImage
