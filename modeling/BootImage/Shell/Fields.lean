import BootImage.Shell.Pattern

/-!
# Fields

A word expands to pieces of text. Pieces that come from an expansion outside quotes are split at
separators, all others are kept as they are, and what stands next to each other within a word is one
field. A quoted piece makes a field even if it is empty. Blanks among the separators count only
between fields, however many there are; any other separator ends a field each time it occurs.
-/

namespace BootImage.Shell

inductive Piece where
  | chars (s : List Char) (quoted splits : Bool)
  /-- the end of a field within a word -/
  | cut
  deriving DecidableEq, Repr

def isBlank (c : Char) : Bool := c == ' ' || c == '\t' || c == '\n'

def blankSeparators : String := " \t\n"

/-- Fields that are being put together: those finished, latest first, the one at hand, and whether
the last one ended at a blank. -/
structure Fields where
  done : List (List Mark) := []
  current : Option (List Mark) := none
  afterBlank : Bool := false

namespace Fields

def finish (fs : Fields) : Fields :=
  match fs.current with
  | some marks => { fs with done := marks.reverse :: fs.done, current := none }
  | none => fs

def extend (fs : Fields) (s : List Char) (quoted : Bool) : Fields :=
  { fs with
    current := some ((s.map (·, quoted)).reverse ++ fs.current.getD [])
    afterBlank := false }

def addSplitting (separators : List Char) (fs : Fields) (c : Char) : Fields :=
  if !separators.contains c then fs.extend [c] false
  else if isBlank c then
    if fs.current.isSome then { fs.finish with afterBlank := true } else fs
  else if fs.current.isSome || !fs.afterBlank then
    { (if fs.current.isSome then fs else fs.extend [] false).finish with afterBlank := false }
  else { fs with afterBlank := false }

def add (separators : List Char) (fs : Fields) : Piece → Fields
  | .cut => { fs.finish with afterBlank := false }
  | .chars s quoted splits =>
    if splits then s.foldl (addSplitting separators) fs
    else if s.isEmpty && !quoted then fs
    else fs.extend s quoted

end Fields

namespace Piece

def fields (separators : List Char) (ps : List Piece) : List (List Mark) :=
  (ps.foldl (Fields.add separators) {}).finish.done.reverse

def text (ps : List Piece) : String :=
  String.ofList (ps.flatMap fun
    | chars s _ _ => s
    | cut => [' '])

def marks (ps : List Piece) : List Mark :=
  ps.flatMap fun
    | chars s quoted _ => s.map fun c => (c, quoted)
    | cut => [(' ', true)]

end Piece

end BootImage.Shell
