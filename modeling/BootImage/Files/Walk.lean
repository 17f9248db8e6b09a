import BootImage.Files.Basic

/-!
# Where paths lead

A path is followed name by name from a directory. `.` stays, `..` goes up to the directory above,
and a link is replaced by the path it stands for, which is followed from the directory of the link.
On the way there may only be directories; what the last name leads to is where the path leads. If
nothing of the last name is there, the path still says where it could be put.

The system gives up after forty links, so a path always leads somewhere or is refused.
-/

namespace BootImage

/-- The names on the way along a path. A path that ends in a slash goes on to `.`, so nothing but a
directory lies at its end. -/
def Path.steps (path : String) : List String :=
  let names := ((Text.pieces '/' path.toList).filter fun s => !s.isEmpty).map String.ofList
  if path.toList.getLast? = some '/' then names ++ ["."] else names

/-- Where a path leads. -/
inductive Reach where
  | found (l : Location) (e : Entry)
  /-- to nothing, but the directory at `l` could hold something of this name -/
  | vacant (l : Location) (name : String)
  | refused (why : Refusal)
  deriving DecidableEq, Repr

namespace Reach

def found? : Reach → Option Entry
  | found _ e => some e
  | _ => none

def directory : Reach → Except Refusal Location
  | found l .directory => .ok l
  | found _ _ => .error .notDirectory
  | vacant .. => .error .notFound
  | refused why => .error why

end Reach

namespace FileTree

def mostLinks : Nat := 40

def longestPath : Nat := 4095

/-- Follows names from the directory at a location. A link at the very end is followed only with
`follows`; `jump` says where the names of a link and those after it lead. -/
def along (t : FileTree) (follows : Bool) (jump : Location → List String → Reach) :
    Location → List String → Reach
  | here, [] => .found here .directory
  | here, name :: rest =>
    if name = "." then along t follows jump here rest
    else if name = ".." then along t follows jump here.dropLast rest
    else
      match t.find? (here ++ [name]) with
      | some .directory => along t follows jump (here ++ [name]) rest
      | some (.link target) =>
        if rest.isEmpty && !follows then .found (here ++ [name]) (.link target)
        else jump (if target.startsWith "/" then [] else here) (Path.steps target ++ rest)
      | some e => if rest.isEmpty then .found (here ++ [name]) e else .refused .notDirectory
      | none =>
        if !isNameable name then .refused .nameTooLong
        else if rest.isEmpty then .vacant here name
        else .refused .notFound

def walk (t : FileTree) (follows : Bool) : Nat → Location → List String → Reach
  | 0 => t.along follows fun _ _ => .refused .linkLoop
  | links + 1 => t.along follows (t.walk follows links)

def reach (t : FileTree) (follows : Bool) (cwd : Location) (path : String) : Reach :=
  if path.isEmpty then .refused .notFound
  else if longestPath < path.utf8ByteSize then .refused .nameTooLong
  else t.walk follows mostLinks (if path.startsWith "/" then [] else cwd) (Path.steps path)

/-- The names on the way from the root to where `path` leads, seen from the tree's origin. -/
def way (t : FileTree) (path : String) : List String :=
  if Path.isAbsolute path.toList then Path.steps path else Path.steps t.origin ++ Path.steps path

def at? (t : FileTree) (path : String) : Option Entry :=
  if path.isEmpty || longestPath < path.utf8ByteSize then none
  else (t.walk true mostLinks [] (t.way path)).found?

def exists? (t : FileTree) (path : String) : Bool := (t.at? path).isSome

def read (t : FileTree) (path : String) : Except FileError (List UInt8) :=
  match t.at? path with
  | some (.file content _) => .ok content
  | some .directory => .error .readingDirectory
  | some (.program _) => .ok []
  | some (.link _) | none => .error (.opening .notFound path)

end FileTree

end BootImage
