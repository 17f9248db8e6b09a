import BootImage.Files.Refusal
import BootImage.Path.Basic

/-!
# Files and directories

A `FileTree` is what exists below the root: for each location that holds something, a directory, a
file with its bytes, a link, or a program of the system. The root is always a directory. Paths that
are not absolute are seen from the directory `origin`.

A location is never written unless its parents are directories, so a location that holds something
lies in a directory.
-/

namespace BootImage

abbrev Location := List String

def Location.path (l : Location) : String := "/" ++ "/".intercalate l

inductive Entry where
  | directory
  | file (content : List UInt8) (executable : Bool)
  /-- another name for where the path `target` leads from the directory the link is in -/
  | link (target : String)
  /-- a program of the system, which is known by its name -/
  | program (name : String)
  deriving DecidableEq, Repr

def Entry.isFile : Entry → Bool
  | file .. | program _ => true
  | directory | link _ => false

def Entry.isLink : Entry → Bool
  | link _ => true
  | directory | file .. | program _ => false

/-- What exists below the root, seen from the directory `origin`. -/
structure FileTree where
  origin : String
  entries : List (Location × Entry)
  deriving Repr

namespace FileTree

/-- Whether a file system can hold something of this name: it has no NUL and at most 255 bytes. -/
def isNameable (name : String) : Bool := !Text.hasNull name && name.utf8ByteSize ≤ 255

def find? (t : FileTree) : Location → Option Entry
  | [] => some .directory
  | l => t.entries.lookup l

def set (t : FileTree) (l : Location) (e : Entry) : FileTree :=
  { t with entries := (l, e) :: t.entries.filter (·.1 != l) }

def erase (t : FileTree) (l : Location) : FileTree :=
  { t with entries := t.entries.filter fun e => !l.isPrefixOf e.1 }

def children (t : FileTree) (l : Location) : List (String × Entry) :=
  t.entries.filterMap fun e =>
    match e.1.getLast? with
    | some name => if e.1.dropLast = l then some (name, e.2) else none
    | none => none

def move (t : FileTree) (l l' : Location) : FileTree :=
  { t with entries := (t.erase l').entries.map fun e =>
      if l.isPrefixOf e.1 then (l' ++ e.1.drop l.length, e.2) else e }

/-- The absolute path of a location; a directory's path ends in a slash. -/
def display (l : Location) : Entry → String
  | .directory => l.path ++ "/"
  | _ => l.path

def listing (t : FileTree) : List String :=
  (t.entries.map fun e => display e.1 e.2).mergeSort fun a b => !(b < a)

theorem find?_set_self (t : FileTree) {l : Location} (h : l ≠ []) (e : Entry) :
    (t.set l e).find? l = some e := by
  cases l with
  | nil => exact absurd rfl h
  | cons n l => simp [find?, set]

theorem find?_set_of_ne (t : FileTree) {l l' : Location} (h : l' ≠ l) (e : Entry) :
    (t.set l e).find? l' = t.find? l' := by
  cases l' with
  | nil => rfl
  | cons n l' =>
    have hb : ((n :: l') == l) = false := by simpa using h
    have hrest : ∀ es : List (Location × Entry),
        (es.filter (·.1 != l)).lookup (n :: l') = es.lookup (n :: l') := by
      intro es
      induction es with
      | nil => rfl
      | cons x xs ih =>
        obtain ⟨k, v⟩ := x
        by_cases hx : k = l
        · subst hx
          simpa [List.lookup_cons, hb] using ih
        · rw [List.filter_cons_of_pos (by simpa using hx), List.lookup_cons, List.lookup_cons, ih]
    simp [find?, set, List.lookup_cons, hb, hrest]

end FileTree

end BootImage
