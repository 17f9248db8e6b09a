import BootImage.Machine.System
import BootImage.Shell.Expression
import BootImage.Shell.FileSearch
import BootImage.Shell.FileTools
import BootImage.Shell.StreamEditor

/-!
# The tools of the system

Each program of the system is a tool, apart from the shell and from a few that run other programs.
-/

namespace BootImage.Shell.Tools

def table : List (String × Tool) :=
  [("[", TextTools.bracket), ("basename", FileTools.basename), ("cat", TextTools.cat),
    ("chmod", FileTools.chmod), ("cp", FileTools.cp), ("cut", LineTools.cut), ("dd", FileTools.dd),
    ("dirname", FileTools.dirname), ("echo", TextTools.echo), ("expr", Expression.expr),
    ("false", TextTools.statusOnly 1), ("find", FileSearch.find), ("grep", LineTools.grep),
    ("head", TextTools.head), ("ln", FileTools.ln), ("ls", FileTools.ls),
    ("mkdir", FileTools.mkdir), ("mv", FileTools.mv), ("printenv", TextTools.printenv),
    ("printf", TextTools.printf), ("pwd", FileTools.pwd), ("readlink", FileTools.readlink),
    ("realpath", FileTools.realpath), ("rm", FileTools.rm), ("rmdir", FileTools.rmdir),
    ("sed", StreamEditor.sed), ("seq", TextTools.seq), ("sleep", TextTools.sleep),
    ("sort", LineTools.sort), ("tail", TextTools.tail), ("tee", TextTools.tee),
    ("test", TextTools.test), ("touch", FileTools.touch), ("tr", LineTools.tr),
    ("true", TextTools.statusOnly 0), ("truncate", FileTools.truncate), ("uniq", LineTools.uniq),
    ("wc", TextTools.wc), ("which", FileSearch.which)]

def running : List String := ["bash", "dash", "env", "nice", "nohup", "timeout", "xargs"]

/-- The words in which a tool tells that it could not write all of its output. -/
def writeFault (tool : String) (why : Refusal) : String :=
  match tool, why with
  | "cat", .badDescriptor => s!"standard output: {why.description}"
  | "sed", .badDescriptor => s!"couldn't close stdout: {why.description}"
  | "sed", _ => s!"couldn't flush stdout: {why.description}"
  | "sort", _ => s!"fflush failed: 'standard output': {why.description}\nsort: write error"
  | _, _ => s!"write error: {why.description}"

def writeFaultStatus (tool : String) : Nat :=
  if tool == "sed" then 4
  else if ["ls", "grep", "sort", "expr"].contains tool then 2
  else 1

theorem mem_programs (name : String) :
    name ∈ System.programs ↔ name ∈ running ∨ name ∈ table.map Prod.fst := by
  simp only [System.programs, running, table, List.map_cons, List.map_nil, List.mem_cons,
    List.not_mem_nil, or_false]
  grind

end BootImage.Shell.Tools
