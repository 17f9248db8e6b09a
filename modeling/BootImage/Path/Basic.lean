import BootImage.Path.Segments
import BootImage.Text.Wide

/-!
# Paths

Operations on paths as text, without looking at any file. A path is absolute if it begins with `/`.

* `normalize` works out `.`, `..` and repeated slashes; a slash at the end stays.
* `join` puts paths one after the other and normalises the result.
* `resolve` reads paths one after the other, each from where the one before it leads, starting from
  a current directory. The result is absolute if the current directory is, and has no slash at its
  end, except that the current directory itself stays as it is spelled.
* `dirname` and `basename` are the part before the last name and the last name.
* `relative` is the way from one directory to another path. It is read off the two as `resolve`
  spells them, so every segment of a current directory counts, be it empty, `.` or `..`.
-/

namespace BootImage.Path

def isAbsolute (p : List Char) : Bool := p.head? == some '/'

def fromRoot (segments : List Segment) : List Char := '/' :: Text.joinPieces '/' segments

def normalizeChars (p : List Char) : List Char :=
  let slash := if p.getLast? = some '/' then ['/'] else []
  if isAbsolute p then
    match reduce false p with
    | [] => ['/']
    | s :: ss => fromRoot (s :: ss) ++ slash
  else
    match reduce true p with
    | [] => current ++ slash
    | s :: ss => Text.joinPieces '/' (s :: ss) ++ slash

/-- The shortest spelling of a path; the empty path is `.`. -/
def normalize (p : String) : String := String.ofList (normalizeChars p.toList)

/-- The paths one after the other, as one normalised path. Empty paths do not count. -/
def join (parts : List String) : String :=
  normalize ("/".intercalate (parts.filter fun p => !p.isEmpty))

/-- Goes on from `base` along `p`: to `p` itself if it is absolute. -/
def extend (base p : List Char) : List Char :=
  if p = [] then base else if isAbsolute p then p else base ++ '/' :: p

def absoluteSegments (cwd p : List Char) : List Segment := reduce false (extend cwd p)

/-- Whether the paths `parts` name the current directory by saying nothing or `.`. -/
def isHere (parts : List String) : Bool := parts == [] || parts == [""] || parts == ["."]

/-- Where the paths `parts` lead, one after the other, from the directory `cwd`. -/
def resolve (cwd : String) (parts : List String) : String :=
  if isHere parts && isAbsolute cwd.toList then cwd
  else
    let whole := parts.foldl (fun base p => extend base p.toList) cwd.toList
    if isAbsolute cwd.toList || parts.any fun p => isAbsolute p.toList then
      String.ofList (fromRoot (reduce false whole))
    else match reduce true whole with
      | [] => String.ofList current
      | s :: ss => String.ofList (Text.joinPieces '/' (s :: ss))

/-- What stands before the last name of `p`, less the slash between them, for a path in characters
or in code units. -/
def beforeName {α : Type} [DecidableEq α] (slash dot : α) (p : List α) : List α :=
  match (p.reverse.dropWhile (· == slash)).dropWhile (· != slash) with
  | [] => if p.head? = some slash then [slash] else [dot]
  | _ :: before =>
    if before = [] then [slash] else if before = [slash] then [slash, slash] else before.reverse

def dirname (p : String) : String := String.ofList (beforeName '/' '.' p.toList)

def wideDirname (p : WideText) : WideText := ⟨beforeName 0x2F 0x2E p.units⟩

/-- The last name of `p`; slashes at the end do not count. -/
def basename (p : String) : String :=
  String.ofList ((p.toList.reverse.dropWhile (· == '/')).takeWhile (· != '/')).reverse

/-- The way from the directory with segments `a` to `b`: up to their last common directory and down
again. -/
def wayBetween : List Segment → List Segment → List Segment
  | x :: a, y :: b => if x = y then wayBetween a b else (x :: a).map (fun _ => parent) ++ y :: b
  | a, b => a.map (fun _ => parent) ++ b

/-- The segments of an absolute path as it is spelled. The root has none. -/
def spelledSegments : List Char → List Segment
  | _ :: c :: p => Text.pieces '/' (c :: p)
  | _ => []

/-- The path that leads from the directory `start` to `target`, both seen from `cwd`. It is empty if
they are the same. -/
def relative (cwd start target : String) : String :=
  String.ofList (Text.joinPieces '/'
    (wayBetween (spelledSegments (resolve cwd [start]).toList)
      (spelledSegments (resolve cwd [target]).toList)))

@[simp] theorem wayBetween_self (a : List Segment) : wayBetween a a = [] := by
  induction a with
  | nil => rfl
  | cons x a ih => simp [wayBetween, ih]

@[simp] theorem wayBetween_nil_left (b : List Segment) : wayBetween [] b = b := by
  cases b <;> rfl

end BootImage.Path
