import BootImage.Shell.Script

/-!
# Reading scripts

A script is read line by line, as far as each line goes: a command that is not finished at the end
of its line goes on with the next. So what stands before a mistake is run before the mistake is
found.

The readers below each take some text off the front of what is left, or say why it cannot be read.
Words of the command language such as `if` are special only where a command starts. Every reader
that calls another one hands on a smaller number of steps, which bounds the work; the number that
`Script.readLine` starts with grows with the length of the text.
-/

namespace BootImage.Shell

structure SyntaxError where
  line : Nat
  text : String
  deriving DecidableEq, Repr

abbrev Reader := ReaderT Nat (StateT (List Char) (Except SyntaxError))

inductive Quoting where
  /-- quotes and backslashes are special -/
  | plain
  /-- as between double quotes -/
  | double
  /-- as in a text that is part of the script, where quotes are not special -/
  | document
  deriving DecidableEq, Repr

namespace Reader

def isMeta (c : Char) : Bool := " \t\n;&|()<>".toList.contains c

def isSpecial (c : Char) : Bool := "@*#?$!-".toList.contains c

def keywords : List String :=
  ["!", "case", "do", "done", "elif", "else", "esac", "fi", "for", "if", "in", "then", "until",
    "while", "\x7b", "\x7d"]

def closers : List String := ["then", "do", "done", "fi", "else", "elif", "esac", "\x7d"]

def signs : List String := ["&&", "||", ";;", "&", "|", ";", "(", ")"]

def currentLine : Reader Nat := do return (← read) - (← get).count '\n'

def fail {α : Type} (text : String) : Reader α := do throw ⟨← currentLine, text⟩

def failAtEnd {α : Type} (text : String) : Reader α := do
  set ([] : List Char)
  fail text

def sees (s : String) : Reader Bool := do return s.toList.isPrefixOf (← get)

def skip (n : Nat) : Reader Unit := modify (List.drop n)

def spanning (p : Char → Bool) : Reader (List Char) := do
  let cs ← get
  set (cs.dropWhile p)
  return cs.takeWhile p

/-- The text without the blanks, continued lines and comment at its front. -/
def dropBlanks : List Char → List Char
  | ' ' :: cs | '\t' :: cs => dropBlanks cs
  | '\\' :: '\n' :: cs => dropBlanks cs
  | '#' :: cs => cs.dropWhile (· != '\n')
  | cs => cs

/-- The text without blanks, comments and line ends at its front, for at most `n` lines. -/
def dropBreaks : Nat → List Char → List Char
  | 0, cs => cs
  | n + 1, cs => match dropBlanks cs with
    | '\n' :: rest => dropBreaks n rest
    | rest => rest

def blanks : Reader Unit := modify dropBlanks

def breaks : Reader Unit := modify fun cs => dropBreaks (cs.length + 1) cs

def wordOf (cs : List Char) : String := String.ofList (cs.takeWhile fun c => !isMeta c)

def upcoming : Reader String := do return wordOf (← get)

/-- Digits followed by a redirection sign, if that is at the front; no digits for the sign alone. -/
def descriptor? (cs : List Char) : Option (List Char) :=
  let digits := cs.takeWhile Char.isDigit
  match cs.drop digits.length with
  | '<' :: _ | '>' :: _ => some digits
  | _ => none

def describe (cs : List Char) : String :=
  match cs with
  | [] => "end of file"
  | '\n' :: _ => "newline"
  | _ =>
    match signs.find? fun s => s.toList.isPrefixOf cs with
    | some s => s!"\"{s}\""
    | none =>
      if (descriptor? cs).isSome then "redirection"
      else if keywords.contains (wordOf cs) then s!"\"{wordOf cs}\""
      else "word"

def unexpected {α : Type} (expecting : Option String) : Reader α := do
  let found := describe (← get)
  fail (match expecting with
    | some s => s!"{found} unexpected (expecting \"{s}\")"
    | none => s!"{found} unexpected")

def sign (s : String) : Reader Unit := do
  if ← sees s then skip s.length else unexpected (some s)

def keyword (s : String) : Reader Unit := do
  breaks
  if (← upcoming) = s then skip s.length else unexpected (some s)

def atClose : Reader Bool := do
  return (← sees ")") || (← sees ";;") || closers.contains (← upcoming)

def balanced : Nat → List Char → Option (List Char × List Char)
  | _, [] => none
  | depth, c :: cs =>
    if c = ')' then
      if depth = 0 then some ([], cs)
      else (balanced (depth - 1) cs).map fun (a, b) => (c :: a, b)
    else (balanced (if c = '(' then depth + 1 else depth) cs).map fun (a, b) => (c :: a, b)

def untilQuote : List Char → Option (List Char × List Char)
  | [] => none
  | '\'' :: cs => some ([], cs)
  | c :: cs => (untilQuote cs).map fun (a, b) => (c :: a, b)

def untilBackquote (quoted : Bool) : List Char → Option (List Char × List Char)
  | [] => none
  | '\x60' :: cs => some ([], cs)
  | '\\' :: c :: cs =>
    if c = '\x60' || c = '$' || c = '\\' || (quoted && c = '"') then
      (untilBackquote quoted cs).map fun (a, b) => (c :: a, b)
    else (untilBackquote quoted cs).map fun (a, b) => ('\\' :: c :: a, b)
  | c :: cs => (untilBackquote quoted cs).map fun (a, b) => (c :: a, b)

def assigned? (cs : List Char) : Option String :=
  let name := cs.takeWhile isNameChar
  match cs.drop name.length with
  | '=' :: _ => if isGoodName name then some (String.ofList name) else none
  | _ => none

/-- The user whose directory a tilde at the front stands for. The name ends at a slash, at a
character that `ends` tells, or at the end. -/
def homeAtFront? (ends : Char → Bool) (cs : List Char) : Option String :=
  match cs with
  | '~' :: cs =>
    let user := cs.takeWhile fun c => isNameChar c || c == '-' || c == '.'
    match cs.drop user.length with
    | [] => some (String.ofList user)
    | c :: _ => if c == '/' || ends c then some (String.ofList user) else none
  | _ => none

def leadingHome : Reader Word := do
  match homeAtFront? (· == '\x7d') (← get) with
  | some user => do
    skip (user.length + 1)
    return [.home user]
  | none => return []

def uptoColon : List Char → List Char
  | ':' :: '~' :: _ => [':']
  | c :: cs => c :: uptoColon cs
  | [] => []

/-- The text of some lines up to the one that is `delimiter`, and the lines after that. With
`stripped` tabs at the start of each line do not count. -/
def documentLines (delimiter : List Char) (stripped : Bool) :
    List (List Char) → List Char × List (List Char)
  | [] => ([], [])
  | l :: ls =>
    let l := if stripped then l.dropWhile (· == '\t') else l
    if l = delimiter then ([], ls)
    else if ls.isEmpty then (l, [])
    else
      let (body, rest) := documentLines delimiter stripped ls
      (l ++ '\n' :: body, rest)

/-- The lines of a text without their ends; a text that ends in a line end has an empty last one. -/
def linesOf : List Char → List (List Char)
  | [] => [[]]
  | '\n' :: cs => [] :: linesOf cs
  | c :: cs => match linesOf cs with
    | [] => [[c]]
    | l :: ls => (c :: l) :: ls

def takeDocument (delimiter : List Char) (stripped : Bool) : Reader (List Char) := do
  let cs ← get
  let here := cs.takeWhile (· != '\n')
  let (body, rest) := documentLines delimiter stripped (linesOf (cs.drop (here.length + 1)))
  set (here ++ '\n' :: ['\n'].intercalate rest)
  return body

/-- The characters that a word which is not expanded stands for, and whether any was quoted. -/
def literal (w : Word) : List Char × Bool :=
  (w.flatMap fun
    | .text s _ => s
    | .home user => '~' :: user.toList
    | .parameter name _ => '$' :: name.toList
    | _ => [],
  w.any fun
    | .text _ quoted => quoted
    | _ => false)

def malformed : Reader Part := do
  modify fun cs => (cs.dropWhile (· != '\x7d')).drop 1
  return .malformed

def quotingOf (quoted : Bool) : Quoting := if quoted then .double else .plain

/-- A simple command that is read to its end; there must be something of it. -/
def simpleEnd (start : Nat) (assignments : List (String × Word)) (words : List Word)
    (redirects : List Redirect) : Reader Script := do
  if assignments.isEmpty && words.isEmpty && redirects.isEmpty then unexpected none
  return .simple start assignments words redirects

def overrun {α : Type} : Reader α := fail "script too long"

mutual

/-- Reads commands up to a closing word or bracket, or to the end. There must be one unless
`mayBeEmpty` is given. -/
def list : Nat → Bool → Reader Script
  | 0, _ => overrun
  | n + 1, mayBeEmpty => do
    breaks
    if (← get).isEmpty || (mayBeEmpty && (← atClose)) then return .nothing
    let first ← chain n
    blanks
    if ← sees ";;" then return first
    else if (← sees ";") || (← sees "\n") then
      skip 1
      return .sequence first (← list n true)
    else if ← sees "&" then
      skip 1
      return .sequence (.background first) (← list n true)
    else return first

def line : Nat → Reader Script
  | 0 => overrun
  | n + 1 => do
    blanks
    match ← get with
    | [] => return .nothing
    | '\n' :: cs => do
      set cs
      return .nothing
    | _ => do
      let first ← chain n
      blanks
      match ← get with
      | [] => return first
      | '\n' :: cs => do
        set cs
        return first
      | ';' :: ';' :: _ => unexpected none
      | ';' :: cs => do
        set cs
        return .sequence first (← line n)
      | '&' :: cs => do
        set cs
        return .sequence (.background first) (← line n)
      | _ => unexpected none

def chain : Nat → Reader Script
  | 0 => overrun
  | n + 1 => do chainFrom n (← pipeline n)

def chainFrom : Nat → Script → Reader Script
  | 0, _ => overrun
  | n + 1, first => do
    blanks
    if ← sees "&&" then
      skip 2; breaks
      chainFrom n (.both first (← pipeline n))
    else if ← sees "||" then
      skip 2; breaks
      chainFrom n (.either first (← pipeline n))
    else return first

def pipeline : Nat → Reader Script
  | 0 => overrun
  | n + 1 => do
    blanks
    if (← upcoming) = "!" then
      skip 1
      blanks
      return .negation (← piped n)
    piped n

def piped : Nat → Reader Script
  | 0 => overrun
  | n + 1 => do
    let first ← command n
    blanks
    if (← sees "|") && !(← sees "||") then
      skip 1; breaks
      return .pipe first (← piped n)
    return first

def command : Nat → Reader Script
  | 0 => overrun
  | n + 1 => do
    blanks
    let start ← currentLine
    if ← sees "(" then
      skip 1
      let body ← list n false
      breaks; sign ")"
      return .group start true body (← redirects n)
    match ← upcoming with
    | "\x7b" => do
      skip 1
      let body ← list n false
      keyword "\x7d"
      return .group start false body (← redirects n)
    | "if" => do
      skip 2
      let script ← conditional n
      return .group start false script (← redirects n)
    | "while" => do
      skip 5
      return .group start false (← loopAfter false n) (← redirects n)
    | "until" => do
      skip 5
      return .group start false (← loopAfter true n) (← redirects n)
    | "for" => do
      skip 3
      blanks
      let name ← upcoming
      if !isGoodName name.toList then fail "Bad for loop variable"
      skip name.length
      breaks
      let words ← if (← upcoming) = "in" then do
          skip 2
          let ws ← words n
          blanks
          if !((← sees "\n") || ((← sees ";") && !(← sees ";;"))) then unexpected none
          skip 1
          pure (some ws)
        else do
          if ← sees ";" then skip 1
          pure none
      keyword "do"
      let body ← list n false
      keyword "done"
      return .group start false (.each start name words body) (← redirects n)
    | "case" => do
      skip 4
      blanks
      let subject ← wordThere n
      keyword "in"
      let arms ← arms n
      return .group start false (.distinguish start subject arms) (← redirects n)
    | word => do
      if keywords.contains word then unexpected none
      simple n start [] [] []

def conditional : Nat → Reader Script
  | 0 => overrun
  | n + 1 => do
    let condition ← list n false
    keyword "then"
    let yes ← list n false
    breaks
    match ← upcoming with
    | "elif" => do
      skip 4
      return .branch condition yes (← conditional n)
    | "else" => do
      skip 4
      let no ← list n false
      keyword "fi"
      return .branch condition yes no
    | _ => do
      keyword "fi"
      return .branch condition yes .nothing

def loopAfter (untilTrue : Bool) : Nat → Reader Script
  | 0 => overrun
  | n + 1 => do
    let condition ← list n false
    keyword "do"
    let body ← list n false
    keyword "done"
    return .loop untilTrue condition body

def arms : Nat → Reader (List (List Word × Script))
  | 0 => overrun
  | n + 1 => do
    breaks
    if (← upcoming) = "esac" then
      skip 4
      return []
    if ← sees "(" then skip 1
    let patterns ← patterns n
    let body ← list n true
    breaks
    if ← sees ";;" then
      skip 2
      return (patterns, body) :: (← arms n)
    if (← upcoming) = "esac" then
      skip 4
      return [(patterns, body)]
    unexpected (some ";;")

def patterns : Nat → Reader (List Word)
  | 0 => overrun
  | n + 1 => do
    blanks
    let first ← if (← get).head?.any isMeta then pure [] else word n true false
    blanks
    if ← sees "|" then
      skip 1
      return first :: (← patterns n)
    sign ")"
    return [first]

def simple : Nat → Nat → List (String × Word) → List Word → List Redirect → Reader Script
  | 0, _, _, _, _ => overrun
  | n + 1, start, assignments, before, redirections => do
    blanks
    let cs ← get
    if (descriptor? cs).isSome then
      simple n start assignments before (redirections ++ [← redirect n])
    else match cs, before with
      | [], _ => simpleEnd start assignments before redirections
      | '(' :: _, [name] =>
        if assignments.isEmpty && redirections.isEmpty then do
          skip 1; blanks; sign ")"
          let (name, quoted) := literal name
          if quoted || !isGoodName name || specialCommands.contains (String.ofList name) then
            fail "Bad function name"
          breaks
          return .function (String.ofList name) (← command n)
        else simpleEnd start assignments before redirections
      | c :: _, _ =>
        if isMeta c then simpleEnd start assignments before redirections
        else match if before.isEmpty then assigned? cs else none with
          | some name => do
            skip (name.length + 1)
            simple n start (assignments ++ [(name, ← word n true true)]) before redirections
          | none => simple n start assignments (before ++ [← argument n before]) redirections

/-- Reads a word after some others. The commands that declare variables may have assignments. -/
def argument : Nat → List Word → Reader Word
  | 0, _ => overrun
  | n + 1, before => do
    let cs ← get
    let declares := before.head?.any fun w =>
      declaringCommands.contains (String.ofList (literal w).1)
    match if declares then assigned? cs else none with
    | some name => do
      skip (name.length + 1)
      return .text (name.toList ++ ['=']) false :: (← word n true true)
    | none => word n true false

def redirect : Nat → Reader Redirect
  | 0 => overrun
  | n + 1 => do
    let given := (String.ofList (← spanning Char.isDigit)).toNat?
    if ← sees ">>" then
      skip 2
      return .mk (given.getD 1) .append (← wordThere n)
    else if ← sees ">&" then
      skip 2
      return .mk (given.getD 1) .duplicate (← wordThere n)
    else if ← sees ">" then
      skip 1
      let kind ← if ← sees "|" then do
          skip 1
          pure RedirectKind.overwrite
        else pure RedirectKind.write
      return .mk (given.getD 1) kind (← wordThere n)
    else if ← sees "<&" then
      skip 2
      return .mk (given.getD 0) .duplicate (← wordThere n)
    else if ← sees "<<" then
      skip 2
      let stripped ← sees "-"
      if stripped then skip 1
      let (delimiter, quoted) := literal (← wordThere n)
      let body ← takeDocument delimiter stripped
      if quoted then return .mk (given.getD 0) .document [.text body true]
      let rest ← get
      set (body ++ ['\x00'])
      let parts ← within n '\x00' .document
      set rest
      return .mk (given.getD 0) .document parts
    else
      skip 1
      if ← sees ">" then skip 1
      return .mk (given.getD 0) .read (← wordThere n)

def redirects : Nat → Reader (List Redirect)
  | 0 => overrun
  | n + 1 => do
    blanks
    if (descriptor? (← get)).isSome then return (← redirect n) :: (← redirects n)
    return []

def words : Nat → Reader (List Word)
  | 0 => overrun
  | n + 1 => do
    blanks
    match ← get with
    | [] => return []
    | c :: _ => if isMeta c then return [] else return (← word n true false) :: (← words n)

def wordThere : Nat → Reader Word
  | 0 => overrun
  | n + 1 => do
    blanks
    match ← get with
    | [] => unexpected none
    | c :: _ => if isMeta c then unexpected none else word n true false

/-- Reads a word, or what is left of one that does not start here. With `colons` it is the value of
an assignment, where a tilde has its meaning after a colon too. -/
def word : Nat → Bool → Bool → Reader Word
  | 0, _, _ => overrun
  | n + 1, starts, colons => do
    match ← get with
    | [] => return []
    | '\'' :: cs =>
      match untilQuote cs with
      | none => failAtEnd "Unterminated quoted string"
      | some (quoted, rest) => do
        set rest
        return .text quoted true :: (← word n false colons)
    | '"' :: cs => do
      set cs
      let parts ← within n '"' .double
      return (if parts.isEmpty then [.text [] true] else parts) ++ (← word n false colons)
    | '\\' :: '\n' :: cs => do
      set cs
      word n starts colons
    | '\\' :: c :: cs => do
      set cs
      return .text [c] true :: (← word n false colons)
    | '$' :: cs => do
      set cs
      let part ← dollar n false
      return part :: (← word n false colons)
    | '\x60' :: cs => do
      set cs
      let part ← backquoted n false
      return part :: (← word n false colons)
    | c :: cs =>
      if isMeta c then return []
      else match if starts then homeAtFront? (fun c => isMeta c || (colons && c == ':')) (c :: cs)
          else none with
        | some user => do
          set (cs.drop user.length)
          return .home user :: (← word n false colons)
        | none => do
          let plain := c :: cs.takeWhile fun d => !isMeta d && !"'\"\\$\x60".toList.contains d
          let chunk := if colons then uptoColon plain else plain
          set (cs.drop (chunk.length - 1))
          return .text chunk false :: (← word n (chunk.length < plain.length) colons)

def within : Nat → Char → Quoting → Reader Word
  | 0, _, _ => overrun
  | n + 1, close, quoting => do
    match ← get with
    | [] => failAtEnd (if close = '\x7d' then "Missing '\x7d'" else "Unterminated quoted string")
    | c :: cs => do
      set cs
      let quoted := quoting != .plain
      if c = close then return []
      else if c = '$' then
        let part ← dollar n quoted
        return part :: (← within n close quoting)
      else if c = '\x60' then
        let part ← backquoted n quoted
        return part :: (← within n close quoting)
      else if c = '\\' then
        match cs with
        | d :: rest => do
          set rest
          if d = '\n' then within n close quoting
          else if !quoted || "$\x60\\".toList.contains d || d = close ||
              (d = '"' && quoting == .double) then
            return .text [d] true :: (← within n close quoting)
          else return .text ['\\', d] true :: (← within n close quoting)
        | [] => failAtEnd "Unterminated quoted string"
      else if !quoted && c = '\'' then
        match untilQuote cs with
        | none => failAtEnd "Unterminated quoted string"
        | some (inner, rest) => do
          set rest
          return .text inner true :: (← within n close quoting)
      else if c = '"' && (!quoted || (close = '\x7d' && quoting == .double)) then
        let inner ← within n '"' .double
        return inner ++ (← within n close quoting)
      else return .text [c] quoted :: (← within n close quoting)

def dollar : Nat → Bool → Reader Part
  | 0, _ => overrun
  | n + 1, quoted => do
    match ← get with
    | '(' :: '(' :: cs =>
      match balanced 0 cs with
      | some (inner, ')' :: rest) => do
        set (inner ++ ['\x00'])
        let expression ← within n '\x00' .document
        set rest
        return .arithmetic expression quoted
      | _ => failAtEnd "Missing '))'"
    | '(' :: cs => do
      set cs
      let script ← list n true
      breaks; sign ")"
      return .output script quoted
    | '\x7b' :: '#' :: '\x7d' :: cs => do
      set cs
      return .parameter "#" quoted
    | '\x7b' :: '#' :: c :: cs => do
      let name := if isSpecial c then [c] else (c :: cs).takeWhile isNameChar
      set ((c :: cs).drop name.length)
      if ← sees "\x7d" then
        skip 1
        return .length (String.ofList name) quoted
      malformed
    | '\x7b' :: cs => do
      let name := match cs with
        | c :: _ => if isSpecial c then [c] else cs.takeWhile isNameChar
        | [] => []
      set (cs.drop name.length)
      if name.isEmpty then malformed
      else operation n (String.ofList name) quoted
    | c :: cs =>
      if isSpecial c || c.isDigit then
        set cs
        return .parameter (String.singleton c) quoted
      else if isNameChar c then
        let name := (c :: cs).takeWhile isNameChar
        set ((c :: cs).drop name.length)
        return .parameter (String.ofList name) quoted
      else return .text ['$'] quoted
    | [] => return .text ['$'] quoted

def pattern : Nat → Reader Word
  | 0 => overrun
  | n + 1 => do
    let home ← leadingHome
    return home ++ (← within n '\x7d' .plain)

def operation : Nat → String → Bool → Reader Part
  | 0, _, _ => overrun
  | n + 1, name, quoted => do
    match ← get with
    | [] => failAtEnd "Missing '\x7d'"
    | '\x7d' :: cs => do
      set cs
      return .parameter name quoted
    | '%' :: '%' :: cs => do
      set cs
      return .trimmed name true true (← pattern n) quoted
    | '%' :: cs => do
      set cs
      return .trimmed name true false (← pattern n) quoted
    | '#' :: '#' :: cs => do
      set cs
      return .trimmed name false true (← pattern n) quoted
    | '#' :: cs => do
      set cs
      return .trimmed name false false (← pattern n) quoted
    | ':' :: c :: cs =>
      if "-=+?".toList.contains c then
        set cs
        let home ← if quoted then pure [] else leadingHome
        let rest ← within n '\x7d' (quotingOf quoted)
        return .conditional name c true (home ++ rest) quoted
      else malformed
    | c :: cs =>
      if "-=+?".toList.contains c then
        set cs
        let home ← if quoted then pure [] else leadingHome
        let rest ← within n '\x7d' (quotingOf quoted)
        return .conditional name c false (home ++ rest) quoted
      else malformed

def backquoted : Nat → Bool → Reader Part
  | 0, _ => overrun
  | n + 1, quoted => do
    match untilBackquote quoted (← get) with
    | none => failAtEnd "EOF in backquote substitution"
    | some (inner, rest) => do
      set inner
      let script ← ReaderT.adapt (fun _ => inner.count '\n' + 1) (list n true)
      breaks
      if !(← get).isEmpty then unexpected none
      set rest
      return .output script quoted

end

end Reader

/-- The commands on the first line of `rest`, which is the end of a text with `lines` lines, and
what follows them. -/
def Script.readLine (lines : Nat) (rest : List Char) :
    Except SyntaxError (Script × List Char) :=
  ((Reader.line (16 * (rest.length + 1))).run lines).run rest

end BootImage.Shell
