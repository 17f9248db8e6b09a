/-!
# Build options

A build is asked for by words on the command line: `release`, `run` and `gdb` in any order and each
at most once, with `gdb` only beside `run`; or `help`. The words are read from left to right and the
first that decides the outcome ends the reading, so `help` wins over all that follows it and loses
to an earlier mistake.
-/

namespace BootImage

structure BuildOptions where
  /-- build with optimisation and without debug information -/
  optimized : Bool := false
  /-- boot the disk image in the emulator after the build -/
  shouldRun : Bool := false
  /-- let the emulator wait for a debugger before it starts -/
  waitForDebugger : Bool := false
  deriving DecidableEq, Repr, Inhabited

inductive BuildWord where
  | release
  | run
  | gdb
  deriving DecidableEq, Repr

namespace BuildWord

def text : BuildWord → String
  | release => "release"
  | run => "run"
  | gdb => "gdb"

def ofText? (arg : String) : Option BuildWord :=
  if arg = "release" then some release
  else if arg = "run" then some run
  else if arg = "gdb" then some gdb
  else none

theorem ofText?_text (w : BuildWord) : ofText? w.text = some w := by
  cases w <;> simp [ofText?, text]

theorem ofText?_eq_some_iff {arg : String} {w : BuildWord} :
    ofText? arg = some w ↔ arg = w.text := by
  constructor
  · intro h
    unfold ofText? at h
    split at h
    · simp_all [text]; subst h; rfl
    · split at h
      · simp_all [text]; subst h; rfl
      · split at h
        · simp_all [text]; subst h; rfl
        · simp at h
  · rintro rfl
    exact ofText?_text w

end BuildWord

/-- Why the words of a command line ask for no build. -/
inductive UsageError where
  /-- a word that is none of those known -/
  | unknown (word : String)
  /-- a build word that was there before -/
  | repeated (word : BuildWord)
  /-- the word `gdb` without `run` -/
  | debuggerWithoutRun
  deriving DecidableEq, Repr

namespace UsageError

def token : UsageError → String
  | unknown word => word
  | repeated word => word.text
  | debuggerWithoutRun => "gdb"

def message : UsageError → String
  | unknown word => s!"Unknown argument '{word}'"
  | repeated word => s!"Option '{word.text}' specified twice"
  | debuggerWithoutRun =>
    "Option 'gdb' specified but not 'run'\n" ++
      "       'gdb' must always be used in conjunction with 'run'."

end UsageError

inductive Request where
  | help
  | build (options : BuildOptions)
  | refused (error : UsageError)
  deriving DecidableEq, Repr

namespace Request

/-- The outcome when all words were build words, each of them once. -/
def ofWords (words : List BuildWord) : Request :=
  if .gdb ∈ words ∧ .run ∉ words then refused .debuggerWithoutRun
  else build ⟨.release ∈ words, .run ∈ words, .gdb ∈ words⟩

/-- Reads the words that follow the build words `seen`. -/
def parseAfter (seen : List BuildWord) : List String → Request
  | [] => ofWords seen
  | arg :: args =>
    if arg = "help" then help
    else match BuildWord.ofText? arg with
      | none => refused (.unknown arg)
      | some w => if w ∈ seen then refused (.repeated w) else parseAfter (seen ++ [w]) args

def parse (args : List String) : Request := parseAfter [] args

@[simp] theorem parseAfter_nil (seen : List BuildWord) : parseAfter seen [] = ofWords seen := rfl

theorem parseAfter_help (seen : List BuildWord) (args : List String) :
    parseAfter seen ("help" :: args) = help := by simp [parseAfter]

theorem parseAfter_text (seen : List BuildWord) (w : BuildWord) (args : List String) :
    parseAfter seen (w.text :: args) =
      if w ∈ seen then refused (.repeated w) else parseAfter (seen ++ [w]) args := by
  rw [parseAfter, if_neg (by cases w <;> decide), BuildWord.ofText?_text]

end Request

def usageText : String :=
  "\n".intercalate
    ["Usage: boot-builder [options...]",
     "  available options: release, run, gdb, help"]

def helpText : String :=
  "\n".intercalate
    ["Usage: boot-builder [options...]",
     "  options:",
     "     release",
     "         Build the kernel with 'cargo build --release'.",
     "         This enables optimizations and doesn't emit debug info.",
     "     run",
     "         After building the disk image, run it in QEMU.",
     "         QEMU needs to be installed for this to work.",
     "     gdb",
     "         Tells QEMU to wait for a connection from gdb at port 1234",
     "         before starting execution.",
     "         Must be used in conjunction with 'run'.",
     "     help",
     "         Prints this help screen, and then exits.",
     "  configuration:",
     "     boot-builder.json in the project root may set binaryName, targetTriple,",
     "     bootloaderDependency, cargoPath, qemuPath and biosPath.",
     "     targetTriple defaults to x86_64-unknown-none; kernels built for a custom",
     "     target JSON must set targetTriple to that file's name without '.json'."]

end BootImage
