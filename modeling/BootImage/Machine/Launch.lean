import BootImage.Call.Supervised
import BootImage.Shell.Execution

/-!
# Starting programs on a machine

A call is carried out on a machine: its directory is entered, its program looked for and run to its
end. That a program or a directory is missing, or a file may not be run, is what supervisors are
told of; any other reason for not starting a program is a fault of the call.

What a program writes is told in the order of time. Programs that it leaves running write and change
files later, and whoever collects the output waits for those of them that may still write to it.
-/

namespace BootImage

def stepLimit : Nat := 1000000

namespace Launch

/-- What is heard of a program's end. A signal without a name is not told of. -/
def heardOf : Shell.Ending → ChildEvent
  | .exited status => .closed (some (Int.ofNat status)) none
  | .killed g => match g.fullName? with
    | some name => .closed none (some name)
    | none => .closed (some 0) none

/-- The events of some outputs from the time `now` up to the time `last`; what is written after that
is due. -/
def events (last : Nat) : Nat → List Shell.Output → List Event
  | now, [] => if now < last then [.elapsed (last - now)] else []
  | now, o :: os =>
    match o.channel with
    | .pipe _ => events last now os
    | .stream s =>
      if last < o.time then .due (o.time - now) s o.bytes :: events last now os
      else (if now < o.time then [.elapsed (o.time - now)] else []) ++
        .passed s o.bytes :: events last (max now o.time) os

theorem isForeign_of_mem_events (last now : Nat) (os : List Shell.Output) :
    ∀ e ∈ events last now os, e.isForeign := by
  induction os generalizing now with
  | nil =>
    intro e he
    rw [events] at he
    split at he
    · rw [List.mem_singleton.1 he]; rfl
    · exact absurd he List.not_mem_nil
  | cons o os ih =>
    intro e he
    rw [events] at he
    split at he
    · exact ih now e he
    · split at he
      · rcases List.mem_cons.1 he with rfl | he
        · rfl
        · exact ih now e he
      · rcases List.mem_append.1 he with he | he
        · split at he
          · rw [List.mem_singleton.1 he]; rfl
          · exact absurd he List.not_mem_nil
        · rcases List.mem_cons.1 he with rfl | he
          · rfl
          · exact ih _ e he

def collector : Shell.Channel := .pipe 0

/-- Runs an image with the variables `env` in the directory `dir`, where those that were left
running before it are going to change files. It is halted if it takes too many steps. -/
def ofImage? (env : Environment) (coming : List (Nat × Change)) (tree : FileTree) (dir : Location)
    (mode : CallMode) (image : Image) : Option Launch :=
  let output : Shell.Channel := match mode with
    | .run => .stream .output
    | .capture => collector
  let start : Shell.State :=
    { name := "", args := [], bindings := [], exported := []
      cwd := dir
      directory := dir.path
      process := 1
      parent := 0
      descriptors := [(0, .nowhere), (1, .channel output), (2, .channel (.stream .error))]
      tree := tree
      earlier := tree
      deeds := coming.map fun (time, change) => ⟨time, 0, change⟩
      nextPipe := 1
      nextProcess := 1000 }
  match (Shell.Execution.program stepLimit env image).run start with
  | (.error _, _) => none
  | (.ok ending, s) =>
    let written := Shell.inOrder s.written.reverse
    let collected := written.filter (·.channel == collector)
    let last := (collected.map Shell.Output.time).foldl max s.time
    let shown := written.filter fun o => !o.bytes.isEmpty || last < o.time
    let (_, s) := (Shell.Run.waitUntil last).run s
    let left := (s.deeds.drop coming.length).filter fun d => last < d.time
    some {
      heard := [.output (collected.flatMap Shell.Output.bytes), heardOf ending]
      meanwhile := events last 0 shown ++ left.map fun d => .changing (d.time - last) d.change
      tree := s.tree
      isForeign := by
        intro e he
        rcases List.mem_append.1 he with he | he
        · exact isForeign_of_mem_events _ _ _ e he
        · obtain ⟨d, -, rfl⟩ := List.mem_map.1 he
          rfl }

def refused (tree : FileTree) (command : String) (why : Refusal) : Launch where
  heard := [.failed ⟨some why.code, s!"spawn {command} {why.code}"⟩]
  tree := tree

def isTold (why : Refusal) : Bool := why == .notFound || why == .denied

def plan (env : Environment) (cwd : Location) (tree : FileTree) (c : Call) :
    Except Refusal (Location × Image) := do
  let dir ← match c.cwd.filter fun d => !d.isEmpty with
    | some d => (tree.reach true cwd d).directory
    | none => pure cwd
  let image ← tree.imageOfCommand dir ((env.lookup "PATH").getD "/bin:/usr/bin") c.command c.args
  return (dir, image)

def ofCall (env : Environment) (cwd : Location) (past : List Event) (tree : FileTree) (c : Call) :
    Except Failure Launch :=
  match c.fault? with
  | some f => .error (.start f)
  | none => match plan env cwd tree c with
    | .error why =>
      if isTold why then .ok (refused tree c.command why) else .error (.start (.refused why))
    | .ok (dir, image) =>
      match ofImage? env (Event.ahead Event.change? past) tree dir c.mode image with
      | some launch => .ok launch
      | none => .error (.raised "the program never ended")

end Launch

namespace Runner

def onMachine (env : Environment) (cwd : Location) : Runner := supervising (Launch.ofCall env cwd)

/-- Carries out calls on another machine, which has nothing of the tree. -/
def elsewhere (machine : FileTree) (runner : Runner) : Runner := fun past tree c =>
  { runner past machine c with tree }

end Runner

end BootImage
