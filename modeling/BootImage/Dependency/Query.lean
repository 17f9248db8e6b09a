import BootImage.Build.Action

/-!
# Asking the build tool for a dependency

The build tool is called once, as `<tool> metadata`, and its output is read as a metadata document.
If the tool succeeds and the document fits, the directory of the dependency is found by following
one edge from the root package.
-/

namespace BootImage

/-- A dependency that was found: its directory, and the name of the root package if it is listed. -/
structure FoundDependency where
  dir : WideText
  rootName : Option WideText
  deriving DecidableEq, Repr

def metadataCall (tool : String) (cwd : Option String) : Call :=
  ⟨.capture, tool, ["metadata"], cwd⟩

def readAnswer (complain : String → String) (tool : String) (answer : CallResult) :
    Except MetadataError DependencyGraph :=
  if answer.exitCode ≠ 0 then
    .error <| match answer.spawnError with
      | some e => .notStarted tool e.message
      | none => .failed tool answer.exitCode
  else DependencyGraph.parse complain answer.stdout

def DependencyGraph.follow (g : DependencyGraph) (name : WideText) :
    Action (Except MetadataError FoundDependency) := do
  Action.detail (.graph (g.root.map WideText.written) g.nodes.length g.packages.length)
  match g.dependencyId? name with
  | none => return .error (.dependencyNotFound name)
  | some id =>
    Action.detail (.edge name.written id.written)
    match g.sourceDir? id with
    | none => throw (.unlistedPackage id)
    | some dir =>
      Action.detail (.sourceDir name.written dir.written)
      return .ok ⟨dir, g.rootName?⟩

def findDependency (complain : String → String) (runner : Runner) (tool : String)
    (cwd : Option String) (name : WideText) : Action (Except MetadataError FoundDependency) := do
  let answer ← Action.call runner (metadataCall tool cwd)
  match readAnswer complain tool answer with
  | .error e => return .error e
  | .ok g => g.follow name

end BootImage
