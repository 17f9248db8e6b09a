import BootImage.Files.Walk

/-!
# Making and removing files

`makeDirectories` makes a directory and all that are missing above it, from the root down. What is
in the way stops it, and what was made before that stays. `put` and `remove` are for whoever
arranges the files of a tree.
-/

namespace BootImage.FileTree

/-- Makes directories along some names from the directory at `base`, where they are missing, and
says where they lead. What is in the way of a directory above others is not the directory that it
should be; in the place of the last it is there already. -/
def makeBelow : Location → List String → FileTree → Except Refusal Location × FileTree
  | base, [], t => (.ok base, t)
  | base, name :: rest, t =>
    if name = "." then makeBelow base rest t
    else if name = ".." then makeBelow base.dropLast rest t
    else
      match t.find? (base ++ [name]) with
      | some .directory => makeBelow (base ++ [name]) rest t
      | some (.link _) =>
        match t.walk true mostLinks base [name] with
        | .found l .directory => makeBelow l rest t
        | .found _ _ => (.error (inTheWay rest), t)
        | .vacant .. => (.error .notFound, t)
        | .refused why => (.error why, t)
      | some _ => (.error (inTheWay rest), t)
      | none =>
        if isNameable name then makeBelow (base ++ [name]) rest (t.set (base ++ [name]) .directory)
        else (.error .nameTooLong, t)
where
  inTheWay (rest : List String) : Refusal :=
    if rest.isEmpty then .alreadyExists else .notDirectory

def makeDirectories (t : FileTree) (path : String) : Except FileError Unit × FileTree :=
  if Text.hasNull path then (.error (.ofNull path), t)
  else if path.isEmpty then (.error (.makingDirectory .notFound path), t)
  else if longestPath < path.utf8ByteSize then (.error (.makingDirectory .nameTooLong path), t)
  else
    let (made, t) := makeBelow [] (t.way path) t
    ((made.map fun _ => ()).mapError fun why => .makingDirectory why path, t)

/-- Puts `e` where `path` leads, and the directories above it. A directory that is there stays, and
what cannot be put is left out. -/
def put (t : FileTree) (path : String) (e : Entry) : FileTree :=
  let names := (t.way path).filter (· != ".")
  match names.getLast?, makeBelow [] names.dropLast t with
  | some name, (.ok l, t') =>
    if name = ".." || !isNameable name || t'.find? (l ++ [name]) = some .directory then t
    else t'.set (l ++ [name]) e
  | _, _ => t

theorem makeBelow_cons_directory {base : Location} {name : String} {t : FileTree}
    (there : t.find? (base ++ [name]) = some .directory) (h : name ≠ "." ∧ name ≠ "..")
    (rest : List String) :
    makeBelow base (name :: rest) t = makeBelow (base ++ [name]) rest t := by
  rw [makeBelow, if_neg h.1, if_neg h.2, there]

def remove (t : FileTree) (path : String) : FileTree :=
  match t.walk false mostLinks [] (t.way path) with
  | .found l _ => t.erase l
  | .vacant .. | .refused _ => t

end BootImage.FileTree
