import BootImage.Shell.LineTools

/-!
# The stream editor

`sed` carries out the commands of a script on each line of its input. A command may be for certain
lines only: for a line of a number, the last one, those that match, or all from one line to another.
After the commands a line is written, unless it was deleted.
-/

namespace BootImage.Shell.StreamEditor

open Tool LineTools

inductive Address where
  | line (number : Nat)
  | last
  | matching (r : Regex)
  deriving DecidableEq, Repr

/-- A part of what is put in the place of a match; group 0 is the whole match. -/
inductive Insert where
  | text (c : Char)
  | group (number : Nat)
  deriving DecidableEq, Repr

inductive Action where
  /-- puts something in the place of the match of a number, and of all after it with `all` -/
  | substitute (r : Regex) (inserts : List Insert) (number : Nat) (all shows : Bool)
  | exchange (source target : List Char)
  | delete
  | print
  | tellNumber
  | quit
  | before (text : List Char)
  | after (text : List Char)
  | replace (text : List Char)
  deriving DecidableEq, Repr

structure Command where
  first : Option Address := none
  last : Option Address := none
  /-- whether it is for all other lines -/
  negated : Bool := false
  action : Action
  deriving DecidableEq, Repr

/-! ## Reading scripts -/

/-- A reader of a script. A fault has the number of characters that are left. -/
abbrev Reading := StateT (List Char) (Except (Nat × String))

def fail {α : Type} (fault : String) : Reading α := do throw ((← get).length, fault)

def expression (extended : Bool) (pattern : List Char) : Reading Regex := do
  match Regex.ofPattern extended pattern with
  | .ok r => return r
  | .error fault => fail fault

def blanks : Reading Unit := modify fun cs => cs.dropWhile fun c => c == ' ' || c == '\t'

/-- The characters up to one that is not protected, which is taken off. A protected one loses its
backslash. -/
def upto (mark : Char) : List Char → Option (List Char × List Char)
  | [] => none
  | '\\' :: c :: cs =>
    (upto mark cs).map fun (a, b) => (if c == mark then c :: a else '\\' :: c :: a, b)
  | c :: cs => if c == mark then some ([], cs) else (upto mark cs).map fun (a, b) => (c :: a, b)

def takeUpto (mark : Char) (fault : String) : Reading (List Char) := do
  match upto mark (← get) with
  | some (found, rest) => do
    set rest
    return found
  | none => do
    set ([] : List Char)
    fail fault

def digits : Reading (Option Nat) := do
  let ds := (← get).takeWhile Char.isDigit
  modify fun cs => cs.drop ds.length
  return (String.ofList ds).toNat?

def address (extended : Bool) : Reading (Option Address) := do
  match ← get with
  | '$' :: cs => do
    set cs
    return some .last
  | '/' :: cs => do
    set cs
    let pattern ← takeUpto '/' "unterminated address regex"
    return some (.matching (← expression extended pattern))
  | _ => return (← digits).map .line

def inserts : List Char → List Insert
  | '\\' :: c :: cs =>
    (if c.isDigit then .group (c.toNat - 48)
      else .text (if c == 'n' then '\n' else if c == 't' then '\t' else c)) :: inserts cs
  | '&' :: cs => .group 0 :: inserts cs
  | c :: cs => .text c :: inserts cs
  | [] => []

def addedText : Reading (List Char) := do
  blanks
  match ← get with
  | '\\' :: '\n' :: cs => set cs
  | '\\' :: cs => set (cs.dropWhile isBlank)
  | _ => pure ()
  let text := (← get).takeWhile (· != '\n')
  modify fun cs => cs.drop text.length
  return text

def action (extended : Bool) : Reading Action := do
  match ← get with
  | [] => fail "missing command"
  | c :: cs => do
    set cs
    match c with
    | 'd' => return .delete
    | 'p' => return .print
    | '=' => return .tellNumber
    | 'q' => return .quit
    | 'i' => return .before (← addedText)
    | 'a' => return .after (← addedText)
    | 'c' => return .replace (← addedText)
    | 's' => do
      let fault := "unterminated \x60s' command"
      match ← get with
      | [] => fail fault
      | mark :: cs => do
        set cs
        let pattern ← takeUpto mark fault
        let target ← takeUpto mark fault
        let flags := (← get).takeWhile fun c => c.isDigit || "gpiI".toList.contains c
        modify fun cs => cs.drop flags.length
        let r ← expression extended pattern
        let r := if flags.contains 'i' || flags.contains 'I' then r.ignoringCase else r
        let number := ((String.ofList (flags.filter Char.isDigit)).toNat?).getD 1
        return .substitute r (inserts target) number (flags.contains 'g') (flags.contains 'p')
    | 'y' => do
      let fault := "unterminated \x60y' command"
      match ← get with
      | [] => fail fault
      | mark :: cs => do
        set cs
        let source ← takeUpto mark fault
        return .exchange source (← takeUpto mark fault)
    | c => fail s!"unknown command: \x60{c}'"

def commands (extended : Bool) : Nat → Reading (List Command)
  | 0 => return []
  | n + 1 => do
    modify fun cs => cs.dropWhile fun c => isBlank c || c == '\n' || c == ';'
    if (← get).isEmpty then return []
    let first ← address extended
    let last ← match ← get with
      | ',' :: cs => do
        set cs
        address extended
      | _ => pure none
    blanks
    let negated := (← get).head? == some '!'
    if negated then modify fun cs => (cs.drop 1).dropWhile isBlank
    let act ← action extended
    blanks
    match ← get with
    | [] => pure ()
    | c :: cs => do
      set cs
      if c != ';' && c != '\n' then fail "extra characters after command"
    return { first, last, negated, action := act } :: (← commands extended n)

def script? (extended : Bool) (text : List Char) : Except (Nat × String) (List Command) :=
  match (commands extended (text.length + 1)).run text with
  | .ok (found, _) => .ok found
  | .error (left, fault) => .error (text.length - left, fault)

/-! ## Carrying commands out -/

def expanded (inserts : List Insert) (m : Regex.Match) : List Char :=
  inserts.flatMap fun
    | .text c => [c]
    | .group 0 => m.text
    | .group n => (m.groups.lookup n).getD []

/-- Puts something in the place of matches, from the one of a number on. `before` is written
backwards, and `touches` tells whether it ends in a match. -/
def substituted (r : Regex) (inserts : List Insert) (all : Bool) :
    Nat → Nat → Bool → List Char → List Char → Bool × List Char
  | 0, _, _, _, cs => (false, cs)
  | n + 1, number, touches, before, cs =>
    let skip (number : Nat) : Bool × List Char := match cs with
      | [] => (false, [])
      | c :: rest =>
        let (done, rest) := substituted r inserts all n number false (c :: before) rest
        (done, c :: rest)
    match r.matchAt? ⟨before, cs, []⟩ with
    | none => skip number
    | some m =>
      if m.text.isEmpty && touches then skip number
      else if 1 < number then
        if m.text.isEmpty then skip (number - 1)
        else
          let (done, rest) := substituted r inserts all n (number - 1) true
            (m.text.reverse ++ before) m.after
          (done, m.text ++ rest)
      else if !all then (true, expanded inserts m ++ m.after)
      else if m.text.isEmpty then (true, expanded inserts m ++ (skip 1).2)
      else
        let (_, rest) := substituted r inserts all n 1 true (m.text.reverse ++ before) m.after
        (true, expanded inserts m ++ rest)

structure Line where
  number : Nat
  isLast : Bool
  text : List Char
  /-- what was written up to now -/
  written : List (List Char) := []
  /-- what is written after the line -/
  added : List (List Char) := []
  isDeleted : Bool := false
  isQuit : Bool := false

def Address.names (a : Address) (l : Line) : Bool :=
  match a with
  | line n => n == l.number
  | last => l.isLast
  | matching r => (r.find? l.text).isSome

def Command.covers (c : Command) (isOpen : Bool) (l : Line) : Bool × Bool :=
  match c.first, c.last with
  | none, _ => (true, false)
  | some a, none => (a.names l, false)
  | some a, some b =>
    let ends : Bool := match b with
      | .line n => n ≤ l.number
      | b => b.names l
    if isOpen then (true, !ends)
    else if a.names l then
      (true, match b with
        | .line n => l.number < n
        | _ => true)
    else (false, false)

def Action.perform (a : Action) (l : Line) : Line :=
  match a with
  | substitute r inserts number all shows =>
    let (done, text) := substituted r inserts all (2 * l.text.length + 2) number false [] l.text
    { l with text, written := if done && shows then l.written ++ [text] else l.written }
  | exchange source target =>
    let map (c : Char) : Char := (source.idxOf? c).elim c fun i => target.getD i c
    { l with text := l.text.map map }
  | delete => { l with isDeleted := true }
  | print => { l with written := l.written ++ [l.text] }
  | tellNumber => { l with written := l.written ++ [(toString l.number).toList] }
  | quit => { l with isQuit := true }
  | before text => { l with written := l.written ++ [text] }
  | after text => { l with added := l.added ++ [text] }
  | replace text => { l with written := l.written ++ [text], isDeleted := true }

def performAll : List (Command × Bool) → Line → List (Command × Bool) × Line
  | [], l => ([], l)
  | (c, isOpen) :: rest, l =>
    if l.isDeleted || l.isQuit then ((c, isOpen) :: rest, l)
    else
      let (covered, staysOpen) := c.covers isOpen l
      let l := if covered != c.negated then c.action.perform l else l
      let (rest, l) := performAll rest l
      ((c, staysOpen) :: rest, l)

/-- What a script writes for some lines, of which the first has the number `number`. -/
def output (quiet : Bool) (number : Nat) (cs : List (Command × Bool)) :
    List (List Char) → List (List Char)
  | [] => []
  | text :: rest =>
    let (cs, l) := performAll cs { number, isLast := rest.isEmpty, text }
    l.written ++ (if quiet || l.isDeleted then [] else [l.text]) ++ l.added ++
      if l.isQuit then [] else output quiet (number + 1) cs rest

/-- What a script makes of some content; a last line without an end stays so. -/
def edited (quiet : Bool) (cs : List Command) (content : List UInt8) : List UInt8 :=
  let found := (output quiet 1 (cs.map (·, false)) (lines content)).map bytes
  let text := found.flatMap (· ++ [10])
  if content.isEmpty || content.getLast? == some 10 then text else text.dropLast

def sed : Tool := withManual ⟨"nErsiz", "e", [("quiet", 'n'), ("silent", 'n'), ("expression", 'e'),
    ("regexp-extended", 'E'), ("in-place", 'i')], true⟩ 1 fun tool a => do
  let given := (a.options.filter (·.1 == 'e')).map Prod.snd
  let (given, operands) := if given.isEmpty then (a.operands.take 1, a.operands.drop 1)
    else (given, a.operands)
  if given.isEmpty then
    let script := "\x7bscript-only-if-no-other-script\x7d"
    Run.complain s!"Usage: {tool} [OPTION]... {script} [input-file]..."
    return 1
  match script? (a.has 'E' || a.has 'r') (['\n'].intercalate (given.map charsOf)) with
  | .error (place, fault) => do
    complain tool s!"-e expression #1, char {place}: {fault}"
    return 1
  | .ok cs => do
    let (found, status) ← contents operands fun operand why => do
      if why == .isDirectory then
        complain tool s!"couldn't edit {operand}: not a regular file"
      else complain tool s!"can't read {operand}: {why.description}"
      return 2
    if a.has 'i' then
      for (operand, content) in found do
        match ← Run.openFile operand false with
        | .ok sink => Run.writeTo sink (edited (a.has 'n') cs content)
        | .error _ => pure ()
    else Run.write (edited (a.has 'n') cs (found.flatMap Prod.snd))
    return status

end BootImage.Shell.StreamEditor
