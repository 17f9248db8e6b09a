import BootImage.Shell.Fields
import BootImage.Shell.State

/-!
# Variables of a shell

A shell takes over the variables of whoever started it, as far as their names are names of the
command language, and hands its exported variables on to the programs it starts. It keeps variables
in groups by the characters of their names, and hands them on group by group.
-/

namespace BootImage.Shell

namespace Variables

def groups : Nat := 39

def groupOf (name : String) : Nat :=
  let bytes := (Text.encode name).map UInt8.toNat
  (bytes.headD 0 * 16 + bytes.foldr Nat.add 0) % groups

def builtIn : List String :=
  ["IFS", "MAIL", "MAILPATH", "PATH", "PS1", "PS2", "PS4", "OPTIND", "LINENO", "TERM", "HISTSIZE"]

def environment (s : State) : List (String × String) :=
  let handedOn := s.bindings.filter fun v => s.exported.contains v.1
  let (first, others) := handedOn.partition fun v => builtIn.contains v.1
  (List.range groups).flatMap fun g => (first ++ others).filter fun v => groupOf v.1 == g

def takenOver (env : List (String × String)) : List (String × String) :=
  env.filter fun v => isGoodName v.1.toList && v.1 != "IFS"

def separators (s : State) : String := (s.bindings.lookup "IFS").getD blankSeparators

/-- The directory of a user's own as it is written with a tilde, which stays if none is known. -/
def home (s : State) (user : String) : String :=
  let known := if user.isEmpty then s.bindings.lookup "HOME" else [("root", "/root")].lookup user
  known.getD ("~" ++ user)

def glue (s : State) : String := String.ofList ((separators s).toList.take 1)

def quoted (text : String) : String :=
  "'" ++ text.replace "'" "'\"'\"'" ++ "'"

def listing (s : State) (command : String) (names : List String) : List String :=
  (names.mergeSort fun a b => !(b < a)).map fun name =>
    match s.bindings.lookup name with
    | some value => s!"{command} {name}={quoted value}"
    | none => s!"{command} {name}"

def natural? (text : String) : Option Nat :=
  if text.isEmpty || !text.toList.all Char.isDigit then none else text.toNat?

def numberOf (text : String) : Run Nat := do
  match natural? text with
  | some n => return n
  | none => Run.giveUp s!"Illegal number: {text}"

def cutAssignment (arg : String) : String × Option String :=
  let name := arg.toList.takeWhile (· != '=')
  match arg.toList.drop name.length with
  | _ :: value => (String.ofList name, some (String.ofList value))
  | [] => (String.ofList name, none)

def checkName (name : String) : Run Unit := do
  if !isGoodName name.toList then Run.giveUp s!"{name}: bad variable name"

end Variables

end BootImage.Shell
