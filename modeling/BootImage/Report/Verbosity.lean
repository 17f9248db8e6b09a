import BootImage.Report.Component

/-!
# What is shown of a report

A report has progress lines, problem lines and debug lines. Quiet runs leave out the progress, debug
lines are shown for the chosen components only, and problems are always shown. A debug line names
its component.
-/

namespace BootImage

inductive LineKind where
  | progress
  | problem
  | debug (component : Component)
  deriving DecidableEq, Repr

structure Verbosity where
  quiet : Bool := false
  components : List Component := []
  deriving DecidableEq, Repr

namespace Verbosity

def shows (v : Verbosity) : LineKind → Bool
  | .progress => !v.quiet
  | .problem => true
  | .debug c => v.components.contains c

def full : Verbosity := ⟨false, Component.all⟩

end Verbosity

def LineKind.render (text : String) : LineKind → String
  | .progress | .problem => text ++ "\n"
  | .debug c => "[boot-builder:" ++ c.name ++ "] " ++ text ++ "\n"

/-- What is written for a line; nothing if it is not shown. -/
def Verbosity.write? (v : Verbosity) (kind : LineKind) (text : String) : Option String :=
  if v.shows kind then some (kind.render text) else none

end BootImage
