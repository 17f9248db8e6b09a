import BootImage.Shell.Charset

/-!
# Regular expressions

What the tools look for in lines. `Regex.places` gives every way in which an expression can go on
from a place in a line, and a match is the first in the line and, of those that start there, the
longest. The two ways of writing expressions differ in which signs need a backslash; both are read
as the same signs first.
-/

namespace BootImage.Shell

inductive Regex where
  | nothing
  | any
  | oneOf (s : Charset)
  | lineStart
  | lineEnd
  /-- between a character of a word and one that is none -/
  | wordEdge (starts ends : Bool)
  | sequence (first second : Regex)
  | either (first second : Regex)
  | many (least : Nat) (most : Option Nat) (body : Regex)
  | group (number : Nat) (body : Regex)
  /-- the text that a group had -/
  | again (number : Nat)
  deriving DecidableEq, Repr

namespace Regex

/-- A place in a line, with what the groups had up to there. What is before the place is written
backwards. -/
structure Place where
  before : List Char
  after : List Char
  groups : List (Nat × List Char) := []

def isWord (c : Char) : Bool := c.isAlphanum || c == '_'

/-- The places that steps lead to, of which at least `least` and at most `most` are taken. A step
that leads nowhere is taken only if it must be. -/
def repeated (step : Place → List Place) : Nat → Nat → Option Nat → Place → List Place
  | 0, _, _, _ => []
  | n + 1, least, most, p =>
    let further := if most == some 0 then [] else (step p).flatMap fun q =>
      if q.after.length < p.after.length || 0 < least then
        repeated step n (least - 1) (most.map (· - 1)) q
      else []
    further ++ if least = 0 then [p] else []

/-- The places up to which an expression can match from a place, with the longer ways first where it
may be repeated. -/
def places : Regex → Place → List Place
  | nothing, p => [p]
  | any, p => match p.after with
    | c :: cs => [{ p with before := c :: p.before, after := cs }]
    | [] => []
  | oneOf s, p => match p.after with
    | c :: cs => if s.has c then [{ p with before := c :: p.before, after := cs }] else []
    | [] => []
  | lineStart, p => if p.before.isEmpty then [p] else []
  | lineEnd, p => if p.after.isEmpty then [p] else []
  | wordEdge starts ends, p =>
    let left := p.before.head?.any isWord
    let right := p.after.head?.any isWord
    if (starts && !left && right) || (ends && left && !right) then [p] else []
  | sequence a b, p => (places a p).flatMap (places b)
  | either a b, p => places a p ++ places b p
  | many least most a, p => repeated (places a) (p.after.length + least + 1) least most p
  | group number a, p => (places a p).map fun q =>
    { q with groups := (number, p.after.take (p.after.length - q.after.length)) :: q.groups }
  | again number, p => match p.groups.lookup number with
    | some text =>
      if text.isPrefixOf p.after then
        [{ p with before := text.reverse ++ p.before, after := p.after.drop text.length }]
      else []
    | none => []

structure Match where
  before : List Char
  text : List Char
  after : List Char
  groups : List (Nat × List Char)

def matchAt? (r : Regex) (p : Place) : Option Match :=
  let longer (best : Option Place) (q : Place) : Option Place := match best with
    | some b => if q.after.length < b.after.length then some q else best
    | none => some q
  ((r.places p).foldl longer none).map fun q =>
    ⟨p.before.reverse, p.after.take (p.after.length - q.after.length), q.after, q.groups⟩

/-- The first match in `cs`, which come after `before`, written backwards. -/
def findFrom? (r : Regex) (before : List Char) : List Char → Option Match
  | [] => r.matchAt? ⟨before, [], []⟩
  | c :: cs => match r.matchAt? ⟨before, c :: cs, []⟩ with
    | some m => some m
    | none => r.findFrom? (c :: before) cs

def find? (r : Regex) (line : List Char) : Option Match := r.findFrom? [] line

def char (c : Char) : Regex := oneOf { items := [.one c] }

def ofText (text : List Char) : Regex := text.foldr (fun c r => sequence (char c) r) nothing

def otherCase : Charset.Item → List Charset.Item
  | .one c => [.one c, .one c.toLower, .one c.toUpper]
  | .range a b => [.range a b] ++
      (if a.isUpper && b.isUpper then [.range a.toLower b.toLower] else []) ++
      if a.isLower && b.isLower then [.range a.toUpper b.toUpper] else []
  | .ofClass name => if name == "upper" || name == "lower" then [.ofClass "alpha"]
      else [.ofClass name]

def ignoringCase : Regex → Regex
  | oneOf s => oneOf { s with items := s.items.flatMap otherCase }
  | sequence a b => sequence a.ignoringCase b.ignoringCase
  | either a b => either a.ignoringCase b.ignoringCase
  | many least most a => many least most a.ignoringCase
  | group number a => group number a.ignoringCase
  | r => r

/-! ## Reading expressions -/

inductive Sign where
  | atom (r : Regex)
  | repeats (least : Nat) (most : Option Nat)
  | opens
  | closes
  | bar
  deriving DecidableEq, Repr

/-- The bounds between braces, the first of which was taken off, and what follows them. -/
def bounds? (extended : Bool) (cs : List Char) : Option (Sign × List Char) :=
  let first := cs.takeWhile Char.isDigit
  let rest := cs.drop first.length
  let (last, rest) := match rest with
    | ',' :: rest => (some (rest.takeWhile Char.isDigit), rest.dropWhile Char.isDigit)
    | rest => (none, rest)
  let number (ds : List Char) : Nat := (String.ofList ds).toNat?.getD 0
  let sign : Sign := match last with
    | none => .repeats (number first) (some (number first))
    | some [] => .repeats (number first) none
    | some ds => .repeats (number first) (some (number ds))
  if first.isEmpty && (last == none || last == some []) then none
  else match extended, rest with
    | true, '\x7d' :: rest => some (sign, rest)
    | false, '\\' :: '\x7d' :: rest => some (sign, rest)
    | _, _ => none

def escaped (c : Char) : Sign :=
  let word : List Charset.Item := [.ofClass "alnum", .one '_']
  match c with
  | 'w' => .atom (oneOf { items := word })
  | 'W' => .atom (oneOf { negated := true, items := word })
  | 's' => .atom (oneOf { items := [.ofClass "space"] })
  | 'S' => .atom (oneOf { negated := true, items := [.ofClass "space"] })
  | '<' => .atom (wordEdge true false)
  | '>' => .atom (wordEdge false true)
  | 'b' => .atom (wordEdge true true)
  | 'n' => .atom (char '\n')
  | 't' => .atom (char '\t')
  | c => if c.isDigit && c != '0' then .atom (again (c.toNat - 48)) else .atom (char c)

/-- Whether an expression may start after the signs read so far, the latest of which is given. -/
def isFront : Option Sign → Bool
  | none | some .opens | some .bar => true
  | _ => false

def signs (extended : Bool) : Nat → Option Sign → List Char → Except String (List Sign)
  | 0, _, _ => .ok []
  | n + 1, last, cs =>
    let further (sign : Sign) (rest : List Char) : Except String (List Sign) :=
      (signs extended n (some sign) rest).map (sign :: ·)
    let interval (rest : List Char) : Except String (List Sign) :=
      match bounds? extended rest with
      | some (sign, rest) => further sign rest
      | none => if extended then further (.atom (char '\x7b')) rest
        else .error "Invalid content of \\\x7b\\\x7d"
    match cs with
    | [] => .ok []
    | ['\\'] => .error "Trailing backslash"
    | '\\' :: c :: rest =>
      if extended then further (escaped c) rest
      else match c with
        | '(' => further .opens rest
        | ')' => further .closes rest
        | '|' => further .bar rest
        | '+' => further (.repeats 1 none) rest
        | '?' => further (.repeats 0 (some 1)) rest
        | '\x7b' => interval rest
        | c => further (escaped c) rest
    | '[' :: rest => match Charset.read? '^' (rest.map (·, false)) with
      | some (s, after) => further (.atom (oneOf s)) (after.map Prod.fst)
      | none => .error "Unmatched [, [^, [:, [., or [="
    | '.' :: rest => further (.atom any) rest
    | '*' :: rest =>
      if isFront last || last == some (.atom lineStart) then further (.atom (char '*')) rest
      else further (.repeats 0 none) rest
    | '^' :: rest =>
      if extended || isFront last then further (.atom lineStart) rest
      else further (.atom (char '^')) rest
    | '$' :: rest =>
      let isLast := match rest with
        | [] | '\\' :: ')' :: _ | '\\' :: '|' :: _ => true
        | _ => false
      if extended || isLast then further (.atom lineEnd) rest else further (.atom (char '$')) rest
    | c :: rest =>
      if !extended then further (.atom (char c)) rest
      else match c with
        | '(' => further .opens rest
        | ')' => further .closes rest
        | '|' => further .bar rest
        | '+' => further (.repeats 1 none) rest
        | '?' => further (.repeats 0 (some 1)) rest
        | '\x7b' => interval rest
        | c => further (.atom (char c)) rest

def withRepeats (r : Regex) : List Sign → Regex × List Sign
  | .repeats least most :: rest => withRepeats (many least most r) rest
  | rest => (r, rest)

mutual

/-- Reads alternatives, when `number` groups were opened before. The result has the number after
them and the signs that follow. -/
def alternatives : Nat → Nat → List Sign → Except String (Regex × Nat × List Sign)
  | 0, number, signs => .ok (nothing, number, signs)
  | n + 1, number, signs => do
    let (first, number, rest) ← row n number signs
    match rest with
    | .bar :: rest => do
      let (second, number, rest) ← alternatives n number rest
      return (either first second, number, rest)
    | rest => return (first, number, rest)

def row : Nat → Nat → List Sign → Except String (Regex × Nat × List Sign)
  | 0, number, signs => .ok (nothing, number, signs)
  | n + 1, number, signs =>
    match signs with
    | .atom r :: rest => do
      let (r, rest) := withRepeats r rest
      let (more, number, rest) ← row n number rest
      return (sequence r more, number, rest)
    | .opens :: rest => do
      let own := number + 1
      let (body, number, rest) ← alternatives n own rest
      match rest with
      | .closes :: rest => do
        let (r, rest) := withRepeats (group own body) rest
        let (more, number, rest) ← row n number rest
        return (sequence r more, number, rest)
      | _ => .error "Unmatched ( or \\("
    | .repeats .. :: rest => row n number rest
    | rest => return (nothing, number, rest)

end

def ofPattern (extended : Bool) (pattern : List Char) : Except String Regex := do
  let found ← signs extended (pattern.length + 1) none pattern
  let (r, _, rest) ← alternatives (2 * found.length + 2) 0 found
  if rest.isEmpty then return r else throw "Unmatched ) or \\)"

end Regex

end BootImage.Shell
