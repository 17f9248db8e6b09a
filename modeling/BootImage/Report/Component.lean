import BootImage.Text.Blank
import BootImage.Text.Keyword
import BootImage.Text.Pieces

/-!
# Debug components

The parts of a build that can report debug detail, and how a user chooses among them. A choice
written as text is a list of names with commas between them. Names may be in any casing and have
blanks around them; `1`, `true` and `all` stand for all components; other names are ignored. The
chosen components are kept in the order in which they were first named.
-/

namespace BootImage

inductive Component where
  | args
  | metadata
  | pipeline
  | exec
  deriving DecidableEq, Repr

namespace Component

def all : List Component := [args, metadata, pipeline, exec]

def name : Component → String
  | args => "args"
  | metadata => "metadata"
  | pipeline => "pipeline"
  | exec => "exec"

def ofName? (s : String) : Option Component := all.find? fun c => c.name == s

theorem mem_all (c : Component) : c ∈ all := by cases c <;> decide

theorem ofName?_name (c : Component) : ofName? c.name = some c := by cases c <;> decide

/-- Adds a component unless it is there. -/
def add (chosen : List Component) (c : Component) : List Component :=
  if c ∈ chosen then chosen else chosen ++ [c]

def addAll (chosen more : List Component) : List Component := more.foldl add chosen

def named (piece : List Char) : List Component :=
  let token := String.ofList (Text.lowerCase (Text.trim piece))
  if token = "1" ∨ token = "true" ∨ token = "all" then all
  else (ofName? token).toList

def parse (text : String) : List Component :=
  (Text.pieces ',' text.toList).foldl (fun chosen piece => addAll chosen (named piece)) []

@[simp] theorem addAll_nil (chosen : List Component) : addAll chosen [] = chosen := rfl

theorem addAll_append (chosen a b : List Component) :
    addAll chosen (a ++ b) = addAll (addAll chosen a) b := by simp [addAll]

@[simp] theorem parse_empty : parse "" = [] := by decide

/-- The components in effect when `value` is what the environment of a run says and `ambient` is
what the process itself was started with: where the former says nothing, the latter counts. -/
def inEffect (value ambient : Option String) : List Component :=
  match value <|> ambient with
  | some text => parse text
  | none => []

/-- The components without repetitions, each at its first place. -/
def distinct (chosen : List Component) : List Component := addAll [] chosen

end Component

/-- A choice of components made by the caller rather than by text. -/
inductive DebugChoice where
  | everything
  | nothing
  | only (components : List Component)
  deriving DecidableEq, Repr

/-- The components of a choice; `otherwise` where the caller made none. -/
def DebugChoice.components (otherwise : List Component) : Option DebugChoice → List Component
  | none => Component.distinct otherwise
  | some .everything => Component.all
  | some .nothing => []
  | some (.only cs) => Component.distinct cs

end BootImage
