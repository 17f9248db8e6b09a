import BootImage.Machine.Image
import BootImage.Shell.Commands
import BootImage.Shell.Glob
import BootImage.Shell.Reader

/-!
# What names and parameters stand for

A parameter is a variable or one of those that the shell keeps itself. The name of a command stands
for a command of the shell, a function or a program; a name with a slash is a program's path, and
programs of other names are looked for in the directories that the variable `PATH` lists.
-/

namespace BootImage.Shell.Lookup

/-- The value of a parameter, if it is set. All arguments together are a value if there are any. -/
def parameter? (s : State) (name : String) : Option String :=
  match name with
  | "#" => some (toString s.args.length)
  | "?" => some (toString s.status)
  | "$" => some (toString s.process)
  | "!" => s.lastJob.map toString
  | "-" => some (String.ofList (Commands.flagLetters.filter s.flags.contains))
  | "@" | "*" => if s.args.isEmpty then none else some ((Variables.glue s).intercalate s.args)
  | "0" => some s.name
  | name => match Variables.natural? name with
    | some (n + 1) => s.args[n]?
    | some 0 => some s.name
    | none => s.bindings.lookup name

def isRequired (s : State) (name : String) : Bool :=
  s.flags.contains 'u' && name != "@" && name != "*"

def argumentPieces (quoted : Bool) (args : List String) : List Piece :=
  (args.map fun a => Piece.chars a.toList quoted (!quoted)).intersperse .cut

def isRunnable (s : State) (path : String) : Bool :=
  match (s.tree.reach true s.cwd path).found? with
  | some (.file _ executable) => executable
  | some (.program _) => true
  | _ => false

def candidates (s : State) (name : String) : List String :=
  if name.toList.contains '/' then [name]
  else (FileTree.searchPath (Run.variableOr s "PATH")).map fun dir =>
    if dir.isEmpty then name else dir ++ "/" ++ name

def path? (s : State) (name : String) : Option String := (candidates s name).find? (isRunnable s)

def phrase (s : State) (name : String) (why : Refusal) : String :=
  match why with
  | .notFound =>
    if !s.isLarge then "not found"
    else if name.toList.contains '/' then why.description
    else "command not found"
  | .notDirectory => if s.isLarge then why.description else "not found"
  | .notExecutable =>
    if s.isLarge then s!"cannot execute binary file: {why.description}" else why.description
  | .denied =>
    if s.isLarge && (s.tree.reach true s.cwd name).found? == some .directory then
      Refusal.isDirectory.description
    else why.description
  | why => why.description

def status : Refusal → Nat
  | .notFound | .notDirectory | .linkLoop | .nameTooLong => 127
  | _ => 126

/-- Whether a file may be a script by the look of the beginning of its first line. -/
def mayBeScript (isLarge : Bool) (content : List UInt8) : Bool :=
  if isLarge then !((content.take 80).takeWhile (· != 10)).contains 0
  else ((content.take 128).takeWhile (· != 10)).all fun b =>
    (9 ≤ b && b ≤ 15) || b == 27 || (32 ≤ b && b != 127)

/-- What is run for the name of a program, or why nothing is, with the status of that. A file that
does not say what it is read by is a script only if it looks like one. -/
def image (s : State) (name : String) (args : List String) : Except (Refusal × Nat) Image :=
  let run (path : String) : Except (Refusal × Nat) Image :=
    (match s.tree.image s.cwd (Image.mostInterpreters + 1) path (name :: args),
        (s.tree.reach true s.cwd path).found? with
      | .error .notExecutable, some (.file content _) =>
        if mayBeScript s.isLarge content then s.tree.imageOrScript s.cwd path (name :: args)
        else .error .notExecutable
      | image, _ => image).mapError fun why => (why, status why)
  if name.toList.contains '/' then run name
  else match path? s name with
    | some path => run path
    | none =>
      if (candidates s name).any fun p => (s.tree.reach true s.cwd p).found?.isSome then
        .error (.denied, 127)
      else .error (.notFound, 127)

def description? (s : State) (inShort : Bool) (name : String) : Option String :=
  let told (what : String) : String := if inShort then name else s!"{name} is {what}"
  if Reader.keywords.contains name then some (told "a shell keyword")
  else if specialCommands.contains name then some (told "a special shell builtin")
  else if (s.functions.lookup name).isSome then some (told "a shell function")
  else if Commands.isOwn s name then some (told "a shell builtin")
  else (path? s name).map fun path => if inShort then path else told path

/-- The last words of a text without line ends at its end. -/
def dropLineEnds (text : String) : List Char :=
  (text.toList.reverse.dropWhile (· == '\n')).reverse

def putBack (names : List String) (before after : State) : State :=
  { after with
    bindings := names.foldl (fun bindings name =>
      match before.bindings.lookup name with
      | some value => insertEntry name value bindings
      | none => eraseEntry name bindings) after.bindings
    exported := before.exported.filter names.contains ++
      after.exported.filter fun name => !names.contains name }

/-- The state after a function call: the arguments and the variables of the function alone are as
they were before. -/
def afterCall (before after : State) : State :=
  let restored := after.outside.foldl (fun bindings (name, value) =>
    match value with
    | some value => insertEntry name value bindings
    | none => eraseEntry name bindings) after.bindings
  { after with
    args := before.args, outside := before.outside, loops := before.loops, calls := before.calls
    optionPlace := before.optionPlace
    bindings := restored }

def isAssignment : Word → Bool
  | .text cs false :: _ => (Reader.assigned? cs).isSome
  | _ => false

def hasTraps (s : State) : Bool := s.traps.any fun t => match t.2 with
  | .script _ => true
  | .ignored => false

def copyContext (s : State) : Context :=
  { s.toContext with isCopy := true, traps := s.traps.filter (·.2 == .ignored) }

/-- How a shell is called: its options, its script, and its name and arguments. -/
structure Start where
  flags : List Char := []
  /-- whether the first operand is the script itself -/
  isText : Bool := false
  operands : List String := []

def Start.read (start : Start) : List String → Except String Start
  | [] => .ok start
  | word :: words =>
    match word.toList with
    | ['-'] | ['-', '-'] => .ok { start with operands := words }
    | sign :: c :: cs =>
      if sign != '-' && sign != '+' then .ok { start with operands := word :: words }
      else if c :: cs == ['o'] then
        match words with
        | [] => .ok start
        | name :: words => match Commands.flagNames.lookup name with
          | some c =>
            read { start with flags := Commands.withFlag start.flags c (sign == '-') } words
          | none => .error s!"Illegal option -o {name}"
      else match (c :: cs).find? fun c => c != 'c' && !Commands.flagLetters.contains c with
        | some bad => .error s!"Illegal option -{bad}"
        | none =>
          let flags := (c :: cs).foldl (fun flags c =>
            if c == 'c' then flags else Commands.withFlag flags c (sign == '-')) start.flags
          read { start with flags, isText := start.isText || (c :: cs).contains 'c' } words
    | _ => .ok { start with operands := word :: words }

def startVariables (env : List (String × String)) (parent : Nat) (directory : String) :
    List (String × String) :=
  let known := Variables.takenOver env
  let path := if (known.lookup "PATH").isSome then []
    else [("PATH", "/usr/local/sbin:/usr/local/bin:/usr/sbin:/usr/bin:/sbin:/bin")]
  insertEntry "PWD" directory
    (path ++ insertEntry "OPTIND" "1" (insertEntry "PPID" (toString parent)
      (known ++ [("IFS", blankSeparators), ("PS4", "+ ")])))

/-- The path by which a program came to its directory: what it was told, if that leads there. -/
def directory (s : State) : String :=
  match s.bindings.lookup "PWD" with
  | some claimed =>
    if claimed.startsWith "/" &&
        (s.tree.reach true [] claimed).directory.toOption == some s.cwd then claimed
    else s.cwd.path
  | none => s.cwd.path

end BootImage.Shell.Lookup
