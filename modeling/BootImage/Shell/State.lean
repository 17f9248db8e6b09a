import BootImage.Files.Change
import BootImage.Files.Difference
import BootImage.Machine.Image
import BootImage.Machine.Signal
import BootImage.Report.Event
import BootImage.Shell.Script

/-!
# The state of a running program

What a program that is being run can see and change. Its `Context` is what it hands on to copies of
itself: its arguments and variables, its directory, and where its descriptors lead. The rest is
shared with the programs it starts: the files, the time, and what was written.

Time passes only while a program sleeps. What a program in the background does is marked with its
time: what it writes is put where it belongs, and what it does to files is done when that time has
come.
-/

namespace BootImage.Shell

/-- A way that bytes take: a stream of the run, or a pipe to whoever collects them. -/
inductive Channel where
  | stream (s : Stream)
  | pipe (n : Nat)
  deriving DecidableEq, Repr

inductive Sink where
  | channel (c : Channel)
  | file (l : Location)
  /-- a device that has no space left -/
  | full
  | nowhere
  deriving DecidableEq, Repr

/-- Bytes that were written, with the time in microseconds and the command in the background that
wrote them; number 0 stands for the program itself. -/
structure Output where
  time : Nat
  source : Nat
  channel : Channel
  bytes : List UInt8

/-- What a shell does when a signal comes: nothing, or a script. -/
inductive Trap where
  | ignored
  | script (text : String)
  deriving DecidableEq, Repr

structure Context where
  name : String
  args : List String
  bindings : List (String × String)
  exported : List String
  /-- the variables that may not be changed -/
  fixed : List String := []
  functions : List (String × Script) := []
  /-- the arrangements for signals, by number; number 0 stands for the end of the shell -/
  traps : List (Nat × Trap) := []
  /-- the options that are set, each a letter -/
  flags : List Char := []
  /-- whether the shell is the larger one of the system, which puts its complaints differently -/
  isLarge : Bool := false
  /-- the directory the program is in -/
  cwd : Location
  /-- the path by which it came there -/
  directory : String
  process : Nat
  parent : Nat
  /-- whether this is a copy of the shell whose number it has -/
  isCopy : Bool := false
  status : Nat := 0
  /-- the status of the last script whose output was put into a word -/
  outputStatus : Nat := 0
  /-- the status that the shell ends with unless another one is said, while it runs a trap -/
  endStatus : Option Nat := none
  /-- the line of the command that is run -/
  line : Nat := 1
  /-- the command of the shell itself that is run, which complaints name -/
  speaker : Option String := none
  /-- whether failures are looked at by whoever runs the command, so that none ends the shell -/
  isTested : Bool := false
  /-- the number of functions around the command that is run -/
  calls : Nat := 0
  /-- the number of loops around the command that is run -/
  loops : Nat := 0
  /-- the number of the argument that options are read from next, and how many characters of the one
  before were read -/
  optionPlace : Nat × Option Nat := (1, none)
  /-- the rights that new files do not have -/
  mask : Nat := 0o22
  /-- the values that variables of a function have outside of it -/
  outside : List (String × Option String) := []
  descriptors : List (Nat × Sink)
  /-- why the command that is run could not write all of its output -/
  fault : Option Refusal := none
  /-- the last command that was started in the background -/
  lastJob : Option Nat := none

/-- A command in the background that was not run yet. Its owner is a program so deep among those
that are run. -/
structure Job where
  process : Nat
  depth : Nat
  since : Nat
  context : Context
  body : Script

inductive Ending where
  | exited (status : Nat)
  | killed (s : Signal)
  deriving DecidableEq, Repr

def Ending.status : Ending → Nat
  | .exited status => status
  | .killed s => 128 + s.number

structure EndedJob where
  process : Nat
  depth : Nat
  ending : Ending
  time : Nat

structure Deed where
  time : Nat
  source : Nat
  change : Change

structure Notice where
  time : Nat
  process : Nat
  signal : Signal
  deriving DecidableEq

structure State extends Context where
  /-- commands in the background that were not run yet, latest first -/
  jobs : List Job := []
  /-- commands in the background that were run and not waited for -/
  ended : List EndedJob := []
  /-- the number of programs and copies of shells around this one -/
  depth : Nat := 0
  /-- the command in the background that this is part of -/
  source : Nat := 0
  input : List UInt8 := []
  tree : FileTree
  time : Nat := 0
  /-- the files when the time last passed -/
  earlier : FileTree
  /-- what commands in the background do to files -/
  deeds : List Deed := []
  /-- the time up to which that is done -/
  doneUntil : Nat := 0
  /-- what was written, latest first -/
  written : List Output := []
  /-- signals on their way -/
  notices : List Notice := []
  nextPipe : Nat := 0
  nextProcess : Nat

inductive Halt where
  | exit (status : Nat)
  /-- a fault that ends the shell, unless one of its own commands had it that may fail -/
  | failed
  | signalled (s : Signal)
  /-- the shell went over to another program, which ended -/
  | replaced (ending : Ending)
  | leaveLoop (levels : Nat)
  | nextRound (levels : Nat)
  | leaveFunction
  /-- more steps than were allowed -/
  | exhausted

abbrev Run := ExceptT Halt (StateM State)

def insertEntry {α β : Type} [BEq α] (key : α) (value : β) (table : List (α × β)) :
    List (α × β) :=
  if (table.lookup key).isSome then table.map fun e => if e.1 == key then (key, value) else e
  else table ++ [(key, value)]

def eraseEntry {α β : Type} [BEq α] (key : α) (table : List (α × β)) : List (α × β) :=
  table.filter fun e => !(e.1 == key)

/-- Outputs in the order of time; those of the same time stay as they are. -/
def inOrder (outputs : List Output) : List Output := outputs.mergeSort fun a b => a.time ≤ b.time

namespace Run

def variableOr (s : State) (name : String) : String := (s.bindings.lookup name).getD ""

def setStatus (status : Nat) : Run Unit := modify fun s => { s with status }

def writeTo (sink : Sink) (bytes : List UInt8) : Run Unit :=
  modify fun s => match sink with
    | .channel c => { s with written := ⟨s.time, s.source, c, bytes⟩ :: s.written }
    | .nowhere | .full => s
    | .file l => match s.tree.find? l with
      | some (.file before executable) =>
        { s with tree := s.tree.set l (.file (before ++ bytes) executable) }
      | _ => s

def writeOn (descriptor : Nat) (bytes : List UInt8) : Run Unit := do
  if bytes.isEmpty then return
  let failing (why : Refusal) : Run Unit :=
    modify fun s => { s with fault := if descriptor = 1 then some why else s.fault }
  match (← get).descriptors.lookup descriptor with
  | some .full => failing .noSpace
  | some sink => writeTo sink bytes
  | none => failing .badDescriptor

def write (bytes : List UInt8) : Run Unit := writeOn 1 bytes

def print (text : String) : Run Unit := write (Text.encode text)

def complain (text : String) : Run Unit := writeOn 2 (Text.encode (text ++ "\n"))

def complainOf (text : String) : Run Unit := do
  let s ← get
  let speaker := match s.speaker with
    | some command => command ++ ": "
    | none => ""
  let place := if s.isLarge then s!"line {s.line}" else toString s.line
  complain s!"{s.name}: {place}: {speaker}{text}"

def giveUp {α : Type} (text : String) : Run α := do
  complainOf text
  setStatus (if (← get).isLarge then 1 else 2)
  throw .failed

def assign (name value : String) : Run Unit := do
  let s ← get
  if s.fixed.contains name then
    giveUp (if s.isLarge then s!"{name}: readonly variable" else s!"{name}: is read only")
  set { s with
    optionPlace := if name == "OPTIND" then (value.toNat?.getD 1, none) else s.optionPlace
    bindings := insertEntry name value s.bindings
    exported := if s.flags.contains 'a' && !s.exported.contains name then name :: s.exported
      else s.exported }

def forget (name : String) : Run Unit :=
  modify fun s => { s with
    bindings := eraseEntry name s.bindings
    exported := s.exported.filter (· != name) }

def «export» (name : String) : Run Unit :=
  modify fun s => { s with
    exported := if s.exported.contains name then s.exported else name :: s.exported }

def observe {α : Type} (action : Run α) : Run (Except Halt α) := fun s =>
  let (result, s) := action.run s
  (.ok result, s)

def resume {α : Type} : Except Halt α → Run α
  | .ok a => return a
  | .error h => throw h

def restoring {α : Type} (restore : State → State → State) (action : Run α) : Run α := do
  let before ← get
  let result ← observe action
  modify (restore before)
  resume result

def tolerating (action : Run Unit) : Run Unit :=
  restoring (fun before s => { s with isTested := before.isTested }) do
    modify fun s => { s with isTested := true }
    action

def inContext {α : Type} (context : Context) (action : Run α) : Run (Except Halt α) := do
  let before ← get
  set { before with toContext := context, depth := before.depth + 1 }
  let result ← observe action
  modify fun after => { after with
    toContext := before.toContext
    depth := before.depth
    ended := after.ended.filter fun job => job.depth ≤ before.depth }
  return result

/-- Notes what was done to files since the time last passed, if that is part of a command in the
background. -/
def noteDeeds : Run Unit :=
  modify fun s =>
    let new := if s.source = 0 then [] else
      (s.earlier.changesTo s.tree).map (Deed.mk s.time s.source)
    { s with deeds := s.deeds ++ new, earlier := s.tree }

def carryOut (deeds : List Deed) (tree : FileTree) : FileTree :=
  tree.applyAll ((deeds.mergeSort fun a b => a.time ≤ b.time).map Deed.change)

def waitUntil (time : Nat) : Run Unit := do
  noteDeeds
  modify fun s =>
    let due := s.deeds.filter fun d => s.doneUntil < d.time && d.time ≤ time
    let tree := carryOut due s.tree
    { s with
      time := max s.time time, doneUntil := max s.doneUntil time, tree := tree, earlier := tree }

/-- Runs a command in the background, which has the number `source` and starts at the time `since`.
What it does to files later than now is left for that time. -/
def aside {α : Type} (source since : Nat) (action : Run α) : Run α := do
  noteDeeds
  let before ← get
  set { before with source, jobs := [], time := since, input := [] }
  let result ← observe action
  noteDeeds
  modify fun s =>
    let new := s.deeds.drop before.deeds.length
    let done := carryOut (new.filter fun d => d.time ≤ before.doneUntil)
    { s with
      source := before.source, jobs := before.jobs, time := before.time, input := before.input
      doneUntil := before.doneUntil, tree := done before.tree, earlier := done before.earlier }
  resume result

def collecting (action : Run Unit) : Run (List UInt8) := do
  let before ← get
  let channel := Channel.pipe before.nextPipe
  set { before with
    descriptors := insertEntry 1 (.channel channel) before.descriptors
    nextPipe := before.nextPipe + 1 }
  let result ← observe action
  let after ← get
  let mine := inOrder (after.written.filter (·.channel == channel)).reverse
  set { after with
    descriptors := before.descriptors
    written := after.written.filter (·.channel != channel) }
  waitUntil ((mine.map Output.time).foldl max after.time)
  resume result
  return mine.flatMap Output.bytes

def mostZeros : Nat := 1048576

/-- Reads a file. Two files of the system are devices: one is the input, one never ends. -/
def readFile (path : String) : Run (Except Refusal (List UInt8)) := do
  let s ← get
  match s.tree.reach true s.cwd path with
  | .found ["dev", "stdin"] _ => do
    set { s with input := [] }
    return .ok s.input
  | .found ["dev", "zero"] _ => return .ok (List.replicate mostZeros 0)
  | .found _ (.file content _) => return .ok content
  | .found _ .directory => return .error .isDirectory
  | .found _ _ => return .ok []
  | .vacant .. => return .error .notFound
  | .refused why => return .error why

def isBottomless (l : Location) : Bool :=
  l.dropLast == ["dev"] && l.getLast?.any ["null", "zero", "full"].contains

/-- Opens a file for writing: what is there is kept or not. -/
def openFile (path : String) (keep : Bool) : Run (Except Refusal Sink) := do
  let s ← get
  match s.tree.reach true s.cwd path with
  | .found l (.file _ executable) =>
    if isBottomless l then return .ok (if l.getLast? == some "full" then .full else .nowhere)
    if !keep then set { s with tree := s.tree.set l (.file [] executable) }
    return .ok (.file l)
  | .found _ .directory => return .error .isDirectory
  | .found _ _ => return .error .denied
  | .vacant l name =>
    if s.tree.find? l = some .directory then
      set { s with tree := s.tree.set (l ++ [name]) (.file [] false) }
      return .ok (.file (l ++ [name]))
    return .error .notFound
  | .refused why => return .error why

end Run

end BootImage.Shell
