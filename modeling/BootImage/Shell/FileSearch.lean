import BootImage.Shell.Glob
import BootImage.Shell.Tool

/-!
# Looking for files

The tools of the system that look for files: `find` below some paths by their names and kinds, and
`which` for programs in the directories that `PATH` lists.
-/

namespace BootImage.Shell.FileSearch

open Tool

inductive Question where
  | name (pattern : String)
  | path (pattern : String)
  | kind (letter : Char)
  | empty
  | negation (q : Question)
  deriving DecidableEq, Repr

/-- A search: files for which all questions of one list are answered with yes, so deep below the
paths where it starts. -/
structure Search where
  least : Nat := 0
  most : Option Nat := none
  choices : List (List Question) := [[]]

structure Found where
  path : String
  location : Location
  entry : Entry

def letterOf : Entry → Char
  | .directory => 'd'
  | .link _ => 'l'
  | .file .. | .program _ => 'f'

def covers (pattern text : String) : Bool :=
  Pattern.covers (pattern.toList.map (·, false)) text.toList

def Question.holds (t : FileTree) (f : Found) : Question → Bool
  | name pattern => covers pattern (lastName f.path)
  | path pattern => covers pattern f.path
  | kind letter => letterOf f.entry == letter
  | empty => match f.entry with
    | .directory => (t.children f.location).isEmpty
    | .file content _ => content.isEmpty
    | _ => false
  | negation q => !q.holds t f

def Search.asking (q : Question) (s : Search) : Search :=
  { s with choices := s.choices.dropLast ++ [(s.choices.getLastD []) ++ [q]] }

/-- Reads the words after the paths. `negated` tells whether the next question is asked the other
way round. -/
def Search.read (s : Search) (negated : Bool) : List String → Except String Search
  | [] => .ok s
  | "!" :: words | "-not" :: words => s.read (!negated) words
  | "-print" :: words | "-a" :: words => s.read negated words
  | "-o" :: words => ({ s with choices := s.choices ++ [[]] } : Search).read false words
  | "-empty" :: words => (s.asking (if negated then .negation .empty else .empty)).read false words
  | word :: words =>
    let asking (q : Question) : Search := s.asking (if negated then .negation q else q)
    match word, words with
    | "-name", value :: words => (asking (.name value)).read false words
    | "-path", value :: words => (asking (.path value)).read false words
    | "-type", value :: words => (asking (.kind (value.toList.headD 'f'))).read false words
    | "-maxdepth", value :: words => ({ s with most := value.toNat? } : Search).read negated words
    | "-mindepth", value :: words =>
      ({ s with least := value.toNat?.getD 0 } : Search).read negated words
    | word, [] =>
      if ["-name", "-path", "-type", "-maxdepth", "-mindepth"].contains word then
        .error s!"missing argument to \x60{word}'"
      else .error s!"unknown predicate \x60{word}'"
    | word, _ => .error s!"unknown predicate \x60{word}'"

/-- What lies at and below a place, each with how deep it lies; at most `n` deep. -/
def below (t : FileTree) : Nat → Nat → Found → List (Nat × Found)
  | 0, depth, f => [(depth, f)]
  | n + 1, depth, f =>
    let inner := if f.entry == .directory then
        (t.children f.location).mergeSort fun x y => !(y.1 < x.1)
      else []
    (depth, f) :: inner.flatMap fun (name, e) =>
      let path := if f.path.endsWith "/" then f.path ++ name else f.path ++ "/" ++ name
      below t n (depth + 1) ⟨path, f.location ++ [name], e⟩

def find : Tool := fun tool words => do
  let isPath (word : String) : Bool := !word.startsWith "-" && word != "!" && word != "("
  let starts := words.takeWhile isPath
  match ({} : Search).read false (words.drop starts.length) with
  | .error fault => do
    complain tool fault
    return 1
  | .ok search =>
    forEach (if starts.isEmpty then ["."] else starts) fun start => do
      let s ← get
      match s.tree.reach false s.cwd start with
      | .found l e => do
        for (depth, f) in below s.tree (search.most.getD s.tree.entries.length) 0 ⟨start, l, e⟩ do
          if search.least ≤ depth &&
              search.choices.any fun questions => questions.all (·.holds s.tree f) then
            Run.print (f.path ++ "\n")
        return 0
      | .vacant .. => do
        complain tool s!"{quote start}: {Refusal.notFound.description}"
        return 1
      | .refused why => do
        complain tool s!"{quote start}: {why.description}"
        return 1

def which : Tool := fun _ words => do
  let s ← get
  let isRunnable (path : String) : Bool :=
    match (s.tree.reach true s.cwd path).found? with
    | some (.file _ executable) => executable
    | some (.program _) => true
    | _ => false
  if words.isEmpty then return 1
  forEach words fun name => do
    let paths := if name.toList.contains '/' then [name]
      else ((Run.variableOr s "PATH").splitOn ":").map (· ++ "/" ++ name)
    match paths.find? isRunnable with
    | some path => do
      Run.print (path ++ "\n")
      return 0
    | none => return 1

end BootImage.Shell.FileSearch
