import BootImage.Build.Stage
import BootImage.Call.Basic
import BootImage.Files.Difference
import BootImage.Report.Failure
import BootImage.Report.Verbosity

/-!
# What happens in a run

A run is told as the list of its events in the order in which they happened: text printed for the
user, lines of the report, calls of other programs, and what those programs wrote themselves. The
list is the same whatever the run shows; `Event.shown?` says what a reader of the report sees.
-/

namespace BootImage

inductive Progress where
  | running (command : String) (args : List String)
  | diskImages
  | diskImage (path : String)
  | waitingForDebugger
  deriving DecidableEq, Repr

def Progress.text : Progress → String
  | running command args => "Running: " ++ commandLine command args
  | diskImages => "Disk images:"
  | diskImage path => "  " ++ path
  | waitingForDebugger => "QEMU is waiting for gdb on tcp::1234"

inductive Problem where
  | failure (f : Failure)
  | outDirNotMade (path : String) (e : FileError)
  | notFound (command : String)
  | emulatorNeeded
  | emulatorSource
  | notStarted (command message : String)
  | signalled (signal : String)
  | imageMissing (path : String)
  deriving DecidableEq, Repr

def Problem.text : Problem → String
  | failure f => f.line
  | outDirNotMade path e => s!"Failed to create output directory {path}: {e.message}"
  | notFound command => s!"Error: '{command}' not found."
  | emulatorNeeded => "QEMU needs to be installed to use 'run'."
  | emulatorSource => "To install, follow instructions at https://www.qemu.org/download/."
  | notStarted command message => s!"Error: failed to start '{command}': {message}"
  | signalled signal => s!"process exited due to signal {signal}"
  | imageMissing path => s!"Warning: expected disk image not found: {path}"

inductive Detail where
  | options (o : BuildOptions)
  | graph (root : Option String) (nodes packages : Nat)
  | edge (name pkgId : String)
  | sourceDir (name dir : String)
  | binary (path : String)
  | stage (s : Stage)
  | stageFailed (s : Stage) (status : Int)
  | emulatorExited (status : Int)
  | spawning (c : Call)
  | exited (command : String) (status : Int)
  deriving DecidableEq, Repr

namespace Detail

def component : Detail → Component
  | options _ => .args
  | graph .. | edge .. | sourceDir .. => .metadata
  | binary _ | stage _ | stageFailed .. | emulatorExited _ => .pipeline
  | spawning _ | exited .. => .exec

def text : Detail → String
  | options o => s!"optimized={o.optimized} run={o.shouldRun} gdb={o.waitForDebugger}"
  | graph root nodes packages =>
    let root := root.getD "<none>"
    s!"root={root} nodes={nodes} packages={packages}"
  | edge name pkgId => s!"{name} -> {pkgId}"
  | sourceDir name dir => s!"{name} source directory: {dir}"
  | binary path => s!"binary {path}"
  | stage s => s!"stage {s.name}"
  | stageFailed s status => s!"stage {s.name} failed with {status}"
  | emulatorExited status => s!"emulator exited with {status}"
  | spawning c =>
    "spawn " ++ c.line ++
      match c.cwd.filter fun d => !d.isEmpty with
      | some dir => s!" (cwd {dir})"
      | none => ""
  | exited command status => s!"{command} exited with {status}"

end Detail

inductive Line where
  | progress (p : Progress)
  | problem (p : Problem)
  | detail (d : Detail)
  deriving DecidableEq, Repr

namespace Line

def kind : Line → LineKind
  | progress _ => .progress
  | problem _ => .problem
  | detail d => .debug d.component

def text : Line → String
  | progress p => p.text
  | problem p => p.text
  | detail d => d.text

end Line

/-- Where a program writes. -/
inductive Stream where
  | output
  | error
  deriving DecidableEq, Repr

inductive Event where
  /-- text is printed for the user -/
  | print (text : String)
  /-- a line is added to the report -/
  | line (l : Line)
  /-- another program is started -/
  | call (c : Call)
  /-- a program that was started writes to a stream it shares with the run -/
  | passed (stream : Stream) (bytes : List UInt8)
  /-- a program that was left running is going to write to such a stream, so many microseconds from
  now -/
  | due (delay : Nat) (stream : Stream) (bytes : List UInt8)
  /-- a program that was left running is going to change a file, so many microseconds from now -/
  | changing (delay : Nat) (change : Change)
  /-- so many microseconds pass -/
  | elapsed (duration : Nat)
  deriving DecidableEq, Repr

/-- What can be seen of a run itself: text on its output, text on its error stream, and the
calls. -/
inductive Sight where
  | out (text : String)
  | err (text : String)
  | call (c : Call)
  deriving DecidableEq, Repr

namespace Event

def call? : Event → Option Call
  | call c => some c
  | _ => none

def line? : Event → Option Line
  | line l => some l
  | _ => none

/-- Whether an event may happen while a call is carried out: what other programs do, time that
passes, and details of the call itself. -/
def isMeanwhile : Event → Bool
  | line (.detail d) => d.component == .exec
  | print _ | line _ | call _ => false
  | passed .. | due .. | changing .. | elapsed _ => true

/-- Whether an event is what other programs do, or time that passes. -/
def isForeign : Event → Bool
  | print _ | line _ | call _ => false
  | passed .. | due .. | changing .. | elapsed _ => true

theorem isMeanwhile_of_isForeign {e : Event} (h : e.isForeign = true) : e.isMeanwhile = true := by
  cases e with
  | print _ | line _ | call _ => cases h
  | _ => rfl

theorem isMeanwhile_of_mem_nil : ∀ e ∈ ([] : List Event), e.isMeanwhile := by simp

def shown? (v : Verbosity) : Event → Option Sight
  | print text => some (.out text)
  | line l => (v.write? l.kind l.text).map .err
  | call c => some (.call c)
  | passed .. | due .. | changing .. | elapsed _ => none

/-- Goes from what is ahead after some events to what is ahead before the one at their front. The
number tells how much time the events take. -/
def lookAhead {α : Type} (pick : Event → Option (Nat × α)) (e : Event)
    (after : Nat × List (Nat × α)) : Nat × List (Nat × α) :=
  match e with
  | elapsed duration => (after.1 + duration, after.2)
  | e => match pick e with
    | some (delay, a) =>
      (after.1, if after.1 < delay then (delay - after.1, a) :: after.2 else after.2)
    | none => after

/-- Of what some events announce, what is still to come after them, with the time until then. -/
def ahead {α : Type} (pick : Event → Option (Nat × α)) (trace : List Event) : List (Nat × α) :=
  (trace.foldr (lookAhead pick) (0, [])).2

def change? : Event → Option (Nat × Change)
  | changing delay c => some (delay, c)
  | _ => none

def hold? : Event → Option (Nat × Unit)
  | due delay .. => some (delay, ())
  | _ => none

end Event

/-- A tree that some events left, as it is when no program holds a stream of the run anymore. -/
def FileTree.inTheEnd (tree : FileTree) (trace : List Event) : FileTree :=
  let last := ((Event.ahead Event.hold? trace).map Prod.fst).foldl max 0
  let due := (Event.ahead Event.change? trace).filter (·.1 ≤ last)
  tree.applyAll ((due.mergeSort fun a b => a.1 ≤ b.1).map Prod.snd)

end BootImage
