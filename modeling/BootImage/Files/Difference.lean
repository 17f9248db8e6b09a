import BootImage.Files.Basic

/-!
# Changes of files

What was done to a tree, read off the tree before and the tree after: for each location where they
differ, what is there now. Whoever does the same to another tree changes those locations and no
others, unless a directory that a location lies in is gone meanwhile.
-/

namespace BootImage

abbrev Change := Location × Option Entry

namespace FileTree

/-- The tree after a change. Nothing is put where there is no directory for it. -/
def apply (t : FileTree) (c : Change) : FileTree :=
  match c.2 with
  | none => t.erase c.1
  | some e => if t.find? c.1.dropLast = some .directory then t.set c.1 e else t

def applyAll (t : FileTree) (cs : List Change) : FileTree := cs.foldl apply t

/-- What was done to `before` to make it `after`: first what went, then what came, directories
before what lies in them. -/
def changesTo (before after : FileTree) : List Change :=
  let gone := before.entries.filter fun e => (after.find? e.1).isNone
  let come := after.entries.filter fun e => before.find? e.1 != some e.2
  gone.map (fun e => (e.1, none)) ++
    (come.mergeSort fun a b => a.1.length ≤ b.1.length).map fun e => (e.1, some e.2)

@[simp] theorem applyAll_nil (t : FileTree) : t.applyAll [] = t := rfl

end FileTree

end BootImage
