import BootImage.Files.Change
import BootImage.Report.Event

/-!
# Actions

What a run does, as a value. An action starts from a file tree and the events so far, may add events
and change the tree, and ends with a result or with a failure. A failure takes nothing back: the
events and the tree are those reached when it arose.

Other programs are started through a `Runner`, which says what becomes of a call. It may answer
differently to equal calls, since it is told what happened before, and it says what the program did
to the tree.
-/

namespace BootImage

structure RunState where
  tree : FileTree
  trace : List Event := []
  deriving Repr

def RunState.calls (s : RunState) : List Call := s.trace.filterMap Event.call?

/-- What a runner says to a call: its result or a failure to make it, the tree as the program left
it, and what happened meanwhile, of which nothing is an act of the run itself. -/
structure Reply where
  outcome : Except Failure CallResult
  tree : FileTree
  events : List Event := []
  meanwhile : ∀ e ∈ events, e.isMeanwhile := by simp

/-- What becomes of a call, after the events before it and on the tree as it is. -/
abbrev Runner := List Event → FileTree → Call → Reply

abbrev Action := ExceptT Failure (StateM RunState)

namespace Action

def lines (ls : List Line) : Action Unit :=
  modify fun s => { s with trace := s.trace ++ ls.map .line }

def line (l : Line) : Action Unit := lines [l]

def progress (p : Progress) : Action Unit := line (.progress p)

def problem (p : Problem) : Action Unit := line (.problem p)

def detail (d : Detail) : Action Unit := line (.detail d)

def tree : Action FileTree := do return (← get).tree

def makeDirectories (path : String) : Action (Except FileError Unit) := do
  let s ← get
  let (made, tree) := s.tree.makeDirectories path
  set { s with tree := tree }
  return made

def call (runner : Runner) (c : Call) : Action CallResult := do
  let s ← get
  let reply := runner s.trace s.tree c
  set { tree := reply.tree, trace := s.trace ++ .call c :: reply.events : RunState }
  match reply.outcome with
  | .ok result => return result
  | .error f => throw f

end Action

end BootImage
