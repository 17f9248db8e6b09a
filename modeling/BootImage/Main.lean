import BootImage.Json.Assembly
import BootImage.Machine.Launch
import BootImage.Program
import BootImage.Report.Transcript

/-!
# The command line

A run on a machine that is described on the standard input. The description is a JSON object with
the paths of files: a text is a file's content, an object with a text `script` is a file that may be
run, and anything else is a directory. The machine has its system besides. What the run would write
is written, and its status is the status of the program.
-/

namespace BootImage.CommandLine

def variableNames : List String :=
  ["PATH", "BOOT_BUILDER_CARGO", "BOOT_BUILDER_DEBUG", "BOOT_BUILDER_QEMU", "BOOT_BUILDER_QUIET"]

def entryOf (d : Json) : Entry :=
  match d, d.member? "script" with
  | .string text, _ => .file (Text.encode text.written) false
  | _, some (.string text) => .file (Text.encode text.written) true
  | _, _ => .directory

/-- The machine of a description, seen from the directory `dir`; without a description it has only
its system. -/
def machine (dir description : String) : FileTree :=
  let members := ((Json.parse? description).map Json.members).getD []
  members.foldl (fun t (path, d) => t.put path.written (entryOf d))
    ((FileTree.ofSystem dir).put dir .directory)

structure Outcome where
  status : Int
  output : String
  error : String

def outcome (args : List String) (env : Environment) (dir : String) (tree : FileTree) : Outcome :=
  let inv : Invocation :=
    { args, env, ambientDebug := env.lookup "BOOT_BUILDER_DEBUG", projectDir := dir, cwd := dir }
  let here := (Path.absoluteSegments [] dir.toList).map String.ofList
  let (status, s) := inv.run (Runner.onMachine env here) { tree }
  let v := inv.verbosity tree
  ⟨status, transcript v .output s.trace, transcript v .error s.trace⟩

partial def readAll (stream : IO.FS.Stream) (before : String) : IO String := do
  let line ← stream.getLine
  if line.isEmpty then return before else readAll stream (before ++ line)

end BootImage.CommandLine

def main (args : List String) : IO UInt32 := do
  let mut env : BootImage.Environment := []
  for name in BootImage.CommandLine.variableNames do
    match ← IO.getEnv name with
    | some value => env := env ++ [(name, value)]
    | none => pure ()
  let dir := (← IO.getEnv "PWD").getD "/"
  let description ← BootImage.CommandLine.readAll (← IO.getStdin) ""
  let result := BootImage.CommandLine.outcome args env dir
    (BootImage.CommandLine.machine dir description)
  IO.print result.output
  IO.eprint result.error
  return UInt32.ofNat (result.status % 256).toNat
