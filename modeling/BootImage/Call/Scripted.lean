import BootImage.Build.Action

/-!
# Scripted calls

A runner that starts nothing and takes its answers from a table. The key of a call is its command
and first argument. A call that the table does not know succeeds without output.
-/

namespace BootImage

/-- The answer to a call: its result, the files it leaves behind as empty files, and the failure it
ends in instead, if any. -/
structure ScriptedAnswer where
  result : CallResult := {}
  creates : List String := []
  failure : Option Failure := none
  deriving Repr

def Call.key (c : Call) : String :=
  match c.args with
  | [] => c.command
  | a :: _ => c.command ++ " " ++ a

/-- The runner that answers from a table. Output is given to those who collect it. -/
def Runner.scripted (table : List (String × ScriptedAnswer)) : Runner := fun _ tree c =>
  let answer := (table.lookup c.key).getD {}
  { outcome := match answer.failure with
      | some f => .error f
      | none => match c.mode with
        | .capture => .ok answer.result
        | .run => .ok { answer.result with stdout := "" }
    tree := answer.creates.foldl (fun t p => t.put p (.file [] false)) tree }

end BootImage
