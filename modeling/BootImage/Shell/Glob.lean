import BootImage.Files.Walk
import BootImage.Shell.Pattern

/-!
# Patterns of paths

A field that is a pattern stands for the paths that match it, in the order of their characters. Each
name of a path is matched on its own, and a name that starts with a dot is matched only by a pattern
that does.
-/

namespace BootImage.Shell.Glob

def names : List Mark → List (List Mark)
  | [] => [[]]
  | m :: ms =>
    if m.1 = '/' then [] :: names ms
    else match names ms with
      | [] => [[m]]
      | l :: ls => (m :: l) :: ls

def spelling (ms : List Mark) : String := String.ofList (ms.map Prod.fst)

def namesIn (t : FileTree) (cwd : Location) (path : String) : List String :=
  match (t.reach true cwd (if path.isEmpty then "." else path)).directory with
  | .ok l => ("." :: ".." :: (t.children l).map Prod.fst).mergeSort fun a b => !(b < a)
  | .error _ => []

def matching (pattern : List Mark) (names : List String) : List String :=
  names.filter fun name =>
    Pattern.covers pattern name.toList && (!name.startsWith "." || pattern.head?.any (·.1 == '.'))

def paths (t : FileTree) (cwd : Location) : String → List (List Mark) → List String
  | _, [] => []
  | start, [last] =>
    if Pattern.isOpen last then (matching last (namesIn t cwd start)).map (start ++ ·)
    else if last.isEmpty || (t.reach false cwd (start ++ spelling last)).found?.isSome then
      [start ++ spelling last]
    else []
  | start, name :: next :: rest =>
    if Pattern.isOpen name then
      ((matching name (namesIn t cwd start)).filter fun found =>
          (t.reach true cwd (start ++ found)).found? == some .directory).flatMap fun found =>
        paths t cwd (start ++ found ++ "/") (next :: rest)
    else paths t cwd (start ++ spelling name ++ "/") (next :: rest)

/-- What a field stands for: the paths that match it or, if there are none, itself. -/
def expand (t : FileTree) (cwd : Location) (field : List Mark) : List String :=
  if Pattern.isOpen field then
    match paths t cwd "" (names field) with
    | [] => [spelling field]
    | found => found
  else [spelling field]

end BootImage.Shell.Glob
