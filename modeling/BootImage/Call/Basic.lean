import BootImage.Files.Refusal

/-!
# Calls of other programs

A build starts other programs. A `Call` is one such start: the program, its arguments and the
directory it starts in, and whether its output is passed on to the user or collected. A
`CallResult` is what became of it.
-/

namespace BootImage

/-- What happens to the standard output of a program: it is passed on, or collected. -/
inductive CallMode where
  | run
  | capture
  deriving DecidableEq, Repr

/-- The start of a program. Without a directory the program starts where its parent is. -/
structure Call where
  mode : CallMode
  command : String
  args : List String
  cwd : Option String
  deriving DecidableEq, Repr

/-- A command as one line, its words with a space between them and not quoted. -/
def commandLine (command : String) (args : List String) : String :=
  " ".intercalate (command :: args)

def Call.line (c : Call) : String := commandLine c.command c.args

structure SpawnError where
  code : Option String
  message : String
  deriving DecidableEq, Repr

/-- Why there was no attempt to start a program, or none that could be told of as a result. -/
inductive StartFault where
  | emptyCommand
  | nullByte (f : Text.NullFault)
  | refused (why : Refusal)
  deriving DecidableEq, Repr

def StartFault.message : StartFault → String
  | emptyCommand => "The argument 'file' cannot be empty. Received ''"
  | nullByte f => f.message
  | refused why => "spawn " ++ why.code

/-- The texts of a call, each as it would be refused: its command, its arguments in turn, its
directory. -/
def Call.texts (c : Call) : List Text.NullFault :=
  .mk "argument 'file'" false c.command ::
    c.args.zipIdx.map (fun (a, i) => .mk s!"argument 'args[{i}]'" false a) ++
    (c.cwd.map fun d => .mk "property 'options.cwd'" true d).toList

def Call.nullFault? (c : Call) : Option Text.NullFault :=
  c.texts.find? fun f => Text.hasNull f.value

def Call.fault? (c : Call) : Option StartFault :=
  if c.command.isEmpty then some .emptyCommand else c.nullFault?.map .nullByte

structure CallResult where
  /-- the exit status; 1 for a program that could not be started or that a signal ended -/
  exitCode : Int := 0
  /-- the signal that ended the program -/
  signal : Option String := none
  /-- set when the program could not be started -/
  spawnError : Option SpawnError := none
  /-- the collected output -/
  stdout : String := ""
  deriving DecidableEq, Repr, Inhabited

end BootImage
