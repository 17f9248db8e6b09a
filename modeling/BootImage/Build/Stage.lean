import BootImage.Layout

/-!
# The stages of a build

A build makes its output directory, compiles the kernel, has the disk images built, and boots one of
them if that is asked for. Each stage that starts a program has an argument list that follows from
the options and the layout.
-/

namespace BootImage

inductive Stage where
  | ensureOutDir
  | compile
  | buildImage
  | run
  | done
  deriving DecidableEq, Repr

namespace Stage

def name : Stage → String
  | ensureOutDir => "ensure-out-dir"
  | compile => "compile"
  | buildImage => "build-image"
  | run => "run"
  | done => "done"

def ofName? (s : String) : Option Stage :=
  [ensureOutDir, compile, buildImage, run, done].find? fun st => st.name == s

def next (o : BuildOptions) : Stage → Stage
  | ensureOutDir => compile
  | compile => buildImage
  | buildImage => if o.shouldRun then run else done
  | run => done
  | done => done

def remaining : Stage → Nat
  | ensureOutDir => 4
  | compile => 3
  | buildImage => 2
  | run => 1
  | done => 0

theorem remaining_next_lt (o : BuildOptions) {s : Stage} (h : s ≠ done) :
    (s.next o).remaining < s.remaining := by
  cases s with
  | buildImage => rw [next]; split <;> decide
  | done => exact absurd rfl h
  | _ => simp [next, remaining]

end Stage

def compileArgs (o : BuildOptions) : List String :=
  "build" :: if o.optimized then ["--release"] else []

def imageArgs (l : Layout) : List String :=
  ["builder", "--kernel-manifest", l.manifestPath, "--kernel-binary", l.expectedBinaryPath,
    "--target-dir", l.targetDir, "--out-dir", l.outDir]

/-- The emulator's arguments for booting an image. With `-s -S` it listens for a debugger and halts
until one connects. -/
def emulatorArgs (o : BuildOptions) (biosPath imagePath : String) : List String :=
  ["-bios", biosPath, imagePath] ++ if o.waitForDebugger then ["-s", "-S"] else []

end BootImage
