import BootImage.Machine.System

/-!
# What is run

A command names a program of the system or a script. A script says in its first line, after `#!`, by
which program it is to be read, which may be a script again; in the end a program of the system is
run, and its words are those of the command with the scripts on the way before them. A file that may
be run but is neither is taken for a script of the shell.
-/

namespace BootImage

/-- What is run in the end: a program of the system, and the words it is called with, the first of
which is the name it goes by. -/
structure Image where
  program : String
  words : List String
  deriving DecidableEq, Repr

namespace Image

def headLength : Nat := 256

def mostInterpreters : Nat := 5

def isBlank (b : UInt8) : Bool := b == 32 || b == 9

def trim (line : List UInt8) : List UInt8 :=
  ((line.dropWhile isBlank).reverse.dropWhile isBlank).reverse

/-- What the first line of a script says after `#!`. A line that does not end in the head of the
file, or that holds NUL, is taken with all of the head, with NUL where the file is shorter. It must
show where its first word ends, and the last byte of the head only serves to show that. -/
def firstLine? (content : List UInt8) : Option (List UInt8) :=
  match content.take headLength with
  | 35 :: 33 :: rest =>
    let text := rest.takeWhile fun b => b != 10 && b != 0
    let whole := rest ++ List.replicate (headLength - 2 - rest.length) 0
    let line :=
      if (rest.drop text.length).head? == some 10 then trim text
      else if (whole.dropWhile isBlank).any fun b => isBlank b || b == 0 then trim whole.dropLast
      else []
    if line.isEmpty then none else some line
  | _ => none

/-- The program that a script is read by, with the word it is given before the script. The word is
all that follows the program's path, up to NUL. -/
def interpreter? (content : List UInt8) : Option (String × List String) := do
  let line ← firstLine? content
  let path := line.takeWhile fun b => !isBlank b && b != 0
  let after := line.drop path.length
  let word := after.dropWhile isBlank
  return (Text.decode path,
    if (after.head?.map isBlank).getD false && !word.isEmpty then
      [Text.decode (word.takeWhile (· != 0))]
    else [])

def longestWord : Nat := 131071

def mostWords : Nat := 2097152

def mayBeCalledWith (words : List String) : Bool :=
  words.all (fun w => w.utf8ByteSize ≤ longestWord) &&
    (words.map fun w => w.utf8ByteSize + 9).foldr Nat.add 0 ≤ mostWords

def shell : String := "/bin/sh"

end Image

namespace FileTree

/-- What is run for the file at `path`, called with `words`. At most `n` files are looked at. A
script that is to be read by the empty path is to be read by a directory, which may not be run. -/
def image (t : FileTree) (cwd : Location) : Nat → String → List String → Except Refusal Image
  | 0, _, _ => .error .linkLoop
  | n + 1, path, words =>
    match t.reach true cwd path with
    | .found _ (.program name) =>
      if Image.mayBeCalledWith words then .ok ⟨name, words⟩ else .error .tooManyWords
    | .found _ (.file content true) =>
      if !Image.mayBeCalledWith words then .error .tooManyWords
      else match Image.interpreter? content with
        | none => .error .notExecutable
        | some ("", _) => .error .denied
        | some (interpreter, word) =>
          t.image cwd n interpreter (interpreter :: word ++ path :: words.tail)
    | .found _ _ => .error .denied
    | .vacant .. => .error .notFound
    | .refused why => .error why

/-- What is run for the file at `path`, or by the shell if it does not say what it is read by. -/
def imageOrScript (t : FileTree) (cwd : Location) (path : String) (words : List String) :
    Except Refusal Image :=
  match t.image cwd (Image.mostInterpreters + 1) path words with
  | .error .notExecutable =>
    t.image cwd 1 Image.shell (Image.shell :: path :: words.tail)
  | r => r

/-- Looks for a command in directories, one after the other. A file that may not be run is passed
over, but if nothing else is found, that is what is said. -/
def search (t : FileTree) (cwd : Location) (words : List String) (command : String)
    (denied : Bool) (last : Refusal) : List String → Except Refusal Image
  | [] => .error (if denied then .denied else last)
  | dir :: dirs =>
    match t.imageOrScript cwd (if dir.isEmpty then command else dir ++ "/" ++ command) words with
    | .ok image => .ok image
    | .error .denied => search t cwd words command true .denied dirs
    | .error .notFound => search t cwd words command denied .notFound dirs
    | .error .notDirectory => search t cwd words command denied .notDirectory dirs
    | .error why => .error why

def searchPath (path : String) : List String := (Text.pieces ':' path.toList).map String.ofList

/-- What is run for a command. One with a slash is a path, any other is looked for in the
directories that `path` lists. -/
def imageOfCommand (t : FileTree) (cwd : Location) (path command : String) (args : List String) :
    Except Refusal Image :=
  if command.isEmpty then .error .notFound
  else if command.toList.contains '/' then t.imageOrScript cwd command (command :: args)
  else search t cwd (command :: args) command false .notFound (searchPath path)

end FileTree

end BootImage
