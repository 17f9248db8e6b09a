import BootImage.Shell.TextTools

/-!
# The commands of the shell itself

Commands that a shell carries out without starting a program, because they change the shell or for
the sake of speed. Those that run scripts are not here, but with the running of scripts. A command
gives its status. A fault in one of the special commands ends the shell, in another one it does not.
-/

namespace BootImage.Shell.Commands

open Variables

def flagLetters : List Char := "ubaCEVvxsnmiIfe".toList

def flagNames : List (String × Char) :=
  [("errexit", 'e'), ("noglob", 'f'), ("ignoreeof", 'I'), ("interactive", 'i'), ("monitor", 'm'),
    ("noexec", 'n'), ("stdin", 's'), ("xtrace", 'x'), ("verbose", 'v'), ("vi", 'V'), ("emacs", 'E'),
    ("noclobber", 'C'), ("allexport", 'a'), ("notify", 'b'), ("nounset", 'u')]

def largeFlagNames : List (String × Char) := [("pipefail", 'p')]

def withFlag (flags : List Char) (c : Char) (isSet : Bool) : List Char :=
  if isSet then (if flags.contains c then flags else c :: flags) else flags.filter (· != c)

/-- The letters at the front of the arguments of a command that are among `allowed`, and the
arguments that are left. -/
def letters (allowed : List Char) : List String → Run (List Char × List String)
  | [] => return ([], [])
  | "--" :: args => return ([], args)
  | arg :: args => match arg.toList with
    | '-' :: c :: cs => do
      match (c :: cs).find? fun c => !allowed.contains c with
      | some bad => Run.giveUp s!"Illegal option -{bad}"
      | none => do
        let (more, rest) ← letters allowed args
        return (c :: cs ++ more, rest)
    | _ => return ([], arg :: args)

/-- The number that the first argument writes, or another one if there is none. -/
def numberOr (args : List String) (other : Nat) : Run Nat :=
  match args with
  | [] => return other
  | arg :: _ => numberOf arg

def endShell (args : List String) : Run Nat := do
  let s ← get
  throw (.exit (← numberOr args (s.endStatus.getD s.status)))

def leaveFunction (args : List String) : Run Nat := do
  Run.setStatus (← numberOr args (← get).status)
  throw .leaveFunction

/-- The number of loops that an argument names; not more than there are. -/
def levels (args : List String) : Run Nat := do
  let n ← numberOr args 1
  if n = 0 then Run.giveUp "Illegal number: 0"
  return min n (← get).loops

def leaveLoops (args : List String) : Run Nat := do
  match ← levels args with
  | 0 => return 0
  | n => throw (.leaveLoop n)

def nextRound (args : List String) : Run Nat := do
  match ← levels args with
  | 0 => return 0
  | n => throw (.nextRound n)

def declare (command : String) (args : List String) : Run Nat := do
  let (options, args) ← letters ['p'] args
  let s ← get
  if options.contains 'p' || args.isEmpty then
    let names := if command == "export" then s.exported else s.fixed
    Run.print (String.join ((listing s command names).map (· ++ "\n")))
    return 0
  for arg in args do
    let (name, value) := cutAssignment arg
    checkName name
    match value with
    | some value => Run.assign name value
    | none => pure ()
    if command == "export" then Run.export name
    else modify fun s => { s with
      fixed := if s.fixed.contains name then s.fixed else name :: s.fixed }
  return 0

def declareLocal (args : List String) : Run Nat := do
  if (← get).calls = 0 then Run.giveUp "not in a function"
  for arg in args do
    let (name, value) := cutAssignment arg
    checkName name
    modify fun s =>
      if (s.outside.lookup name).isSome then s
      else { s with outside := (name, s.bindings.lookup name) :: s.outside }
    match value with
    | some value => Run.assign name value
    | none => pure ()
  return 0

def unset (args : List String) : Run Nat := do
  let (options, args) ← letters ['f', 'v'] args
  for name in args do
    if options.contains 'f' then
      modify fun s => { s with functions := eraseEntry name s.functions }
    else
      checkName name
      if (← get).fixed.contains name then Run.giveUp s!"{name}: is read only"
      Run.forget name
  return 0

def shift (args : List String) : Run Nat := do
  let n ← numberOr args 1
  let s ← get
  if s.args.length < n then
    if s.isLarge then return 1
    Run.giveUp "can't shift that many"
  set { s with args := s.args.drop n }
  return 0

def setLetters (isSet : Bool) (letters : List Char) : Run Unit := do
  for c in letters do
    if !flagLetters.contains c then Run.giveUp s!"Illegal option -{c}"
    if c == 'm' && isSet then Run.complainOf "can't access tty; job control turned off"
    else modify fun s => { s with flags := withFlag s.flags c isSet }

def setNamed (isSet : Bool) (name : String) : Run Unit := do
  let own := if (← get).isLarge then largeFlagNames else []
  match (flagNames ++ own).lookup name with
  | some c => modify fun s => { s with flags := withFlag s.flags c isSet }
  | none => Run.giveUp s!"Illegal option -o {name}"

/-- Sets options as the words at the front of some arguments say. The result is the arguments that
are left, if there are to be new ones. -/
def setFlags : List String → Run (Option (List String))
  | [] => return none
  | arg :: args =>
    match arg.toList with
    | ['-'] => do
      modify fun s => { s with flags := s.flags.filter fun c => c != 'x' && c != 'v' }
      return if args.isEmpty then none else some args
    | ['-', '-'] => return some args
    | sign :: c :: cs =>
      if sign != '-' && sign != '+' then return some (arg :: args)
      else if (c :: cs).contains 'o' then
        match args with
        | [] => return none
        | name :: args => do
          setLetters (sign == '-') ((c :: cs).filter (· != 'o'))
          setNamed (sign == '-') name
          setFlags args
      else do
        setLetters (sign == '-') (c :: cs)
        setFlags args
    | _ => return some (arg :: args)

def setShell (args : List String) : Run Nat := do
  if args.isEmpty then
    let s ← get
    let sorted := s.bindings.mergeSort fun a b => !(b.1 < a.1)
    Run.print (String.join (sorted.map fun v => s!"{v.1}={quoted v.2}\n"))
    return 0
  match ← setFlags args with
  | some args => modify fun s => { s with args, optionPlace := (1, none) }
  | none => pure ()
  return 0

def trapNumber? (text : String) : Option Nat :=
  if text == "0" || text.toUpper == "EXIT" then some 0 else (Signal.ofText? text).map Signal.number

def trapName (number : Nat) : String :=
  if number = 0 then "EXIT" else (Signal.ofNumber? number).elim (toString number) Signal.shortName

def trap (args : List String) : Run Nat := do
  let args := if args.head? == some "--" then args.tail else args
  match args with
  | [] => do
    let s ← get
    let traps := s.traps.mergeSort fun a b => a.1 ≤ b.1
    Run.print (String.join (traps.map fun (number, t) =>
      let text := match t with
        | .ignored => ""
        | .script text => text
      s!"trap -- {quoted text} {trapName number}\n"))
    return 0
  | action :: names => do
    let (action, names) := if names.isEmpty || (natural? action).isSome then ("-", args)
      else (action, names)
    for name in names do
      match trapNumber? name with
      | none => do
        Run.complain s!"trap: {name}: bad trap"
        return 1
      | some number =>
        let changed (traps : List (Nat × Trap)) : List (Nat × Trap) :=
          if action == "-" then eraseEntry number traps
          else insertEntry number (if action.isEmpty then .ignored else .script action) traps
        modify fun s => { s with traps := changed s.traps }
    return 0

def cd (args : List String) : Run Nat := do
  let (options, args) ← letters ['L', 'P'] args
  let s ← get
  let target := match args with
    | [] => Run.variableOr s "HOME"
    | "-" :: _ => Run.variableOr s "OLDPWD"
    | target :: _ => target
  let isFixed := target.isEmpty || ["/", "./", "../"].any (target.startsWith ·) ||
    [".", ".."].contains target
  let listed := if isFixed then [] else (Run.variableOr s "CDPATH").splitOn ":"
  let found := listed.find? fun dir =>
    (s.tree.reach true s.cwd (if dir.isEmpty then target else dir ++ "/" ++ target)).found?
      == some .directory
  let elsewhere := found.filter fun dir => !dir.isEmpty
  let target := match elsewhere with
    | some dir => dir ++ "/" ++ target
    | none => if target.isEmpty then "." else target
  let logical := Location.path
    ((Path.absoluteSegments s.directory.toList target.toList).map String.ofList)
  let logical := if target.startsWith "//" && !target.startsWith "///" then "/" ++ logical
    else logical
  let physical := options.getLast? == some 'P'
  match (s.tree.reach true s.cwd (if physical then target else logical)).directory with
  | .error why =>
    Run.giveUp (if s.isLarge then s!"{target}: {why.description}" else s!"can't cd to {target}")
  | .ok l => do
    let here := if physical then l.path else logical
    Run.assign "OLDPWD" s.directory
    Run.export "OLDPWD"
    Run.assign "PWD" here
    Run.export "PWD"
    modify fun s => { s with cwd := l, directory := here }
    if args.head? == some "-" || elsewhere.isSome then Run.print (here ++ "\n")
    return 0

def pwd (args : List String) : Run Nat := do
  let (options, _) ← letters ['L', 'P'] args
  let s ← get
  Run.print ((if options.getLast? == some 'P' then s.cwd.path else s.directory) ++ "\n")
  return 0

/-- The line at the front of the input, whether it came to its end, and what follows it. Unless it
is read `raw`, a backslash protects what comes next, so a line end may be part of the line. -/
def takeLine (raw : Bool) : List UInt8 → List UInt8 × Bool × List UInt8
  | [] => ([], false, [])
  | [b] => if b = 10 then ([], true, []) else ([b], false, [])
  | b :: c :: bs =>
    if b = 10 then ([], true, c :: bs)
    else if b = 92 && !raw then
      let (line, ended, rest) := takeLine raw bs
      (b :: c :: line, ended, rest)
    else
      let (line, ended, rest) := takeLine raw (c :: bs)
      (b :: line, ended, rest)

/-- The characters of a line, each with whether a backslash protects it. A protected line end is
none. -/
def marksOf (raw : Bool) : List Char → List Mark
  | [] => []
  | [c] => if c = '\\' && !raw then [] else [(c, false)]
  | c :: d :: cs =>
    if c = '\\' && !raw then
      if d = '\n' then marksOf raw cs else (d, true) :: marksOf raw cs
    else (c, false) :: marksOf raw (d :: cs)

/-- The values that a line gives to `n` variables: fields at separators, of which the last one takes
all that is left. -/
def values (seps : List Char) : Nat → List Mark → List (List Char)
  | 0, _ => []
  | n + 1, marks =>
    let separates (m : Mark) : Bool := !m.2 && seps.contains m.1
    let isGap (m : Mark) : Bool := separates m && isBlank m.1
    let marks := marks.dropWhile isGap
    let field := marks.takeWhile fun m => !separates m
    let after := (marks.drop field.length).dropWhile isGap
    if n = 0 then
      let whole := (marks.reverse.dropWhile isGap).reverse
      let isSingle := match after with
        | [m] => separates m
        | _ => false
      [(if isSingle then field else whole).map Prod.fst]
    else
      let after := match after with
        | m :: rest => if separates m then rest else after
        | [] => []
      field.map Prod.fst :: values seps n after

def read (args : List String) : Run Nat := do
  let (raw, names) ← readOptions args
  if names.isEmpty then Run.giveUp "arg count"
  let s ← get
  let (line, ended, rest) := takeLine raw s.input
  set { s with input := rest }
  let marks := marksOf raw (Text.decode line).toList
  let found := values (separators s).toList names.length marks
  for (name, value) in names.zip found do
    checkName name
    Run.assign name (String.ofList value)
  return if ended then 0 else 1
where
  /-- Whether backslashes protect nothing, and the names of the variables. -/
  readOptions : List String → Run (Bool × List String)
    | "-p" :: _ :: args => readOptions args
    | args => do
      let (options, names) ← letters ['r'] args
      return (options.contains 'r', names)

/-- What `kill` is to do: to send a signal, or none, to some processes, or to list signals. -/
inductive Kill where
  | send (number : Nat) (targets : List String)
  | list (codes : List String)

def killUsage : String :=
  "Usage: kill [-s sigspec | -signum | -sigspec] [pid | job]... or\nkill -l [exitstatus]"

def killNumber? (text : String) : Option Nat :=
  if text == "0" then some 0 else (Signal.ofText? text).map Signal.number

def killPlan (args : List String) : Run Kill := do
  match args with
  | [] => Run.giveUp killUsage
  | "--" :: targets => plain 15 targets
  | arg :: rest =>
    match arg.toList with
    | '-' :: c :: cs =>
      match killNumber? (String.ofList (c :: cs)), c, cs with
      | some number, _, _ => plain number rest
      | none, 'l', [] => return .list rest
      | none, 's', [] => match rest with
        | [] => Run.giveUp "No arg for -s option"
        | name :: targets => named name targets
      | none, 's', name => named (String.ofList name) rest
      | none, c, _ => Run.giveUp s!"Illegal option -{c}"
    | _ => plain 15 args
where
  /-- Sends a signal to some processes, of which there must be one. -/
  plain (number : Nat) (targets : List String) : Run Kill :=
    if targets.isEmpty then Run.giveUp killUsage else return .send number targets
  /-- Sends the signal of a name. -/
  named (name : String) (targets : List String) : Run Kill := do
    match killNumber? name with
    | some number => plain number targets
    | none => Run.giveUp s!"invalid signal number or name: {name}"

/-- Ends a command in the background by a signal. What it would have done later is not done. -/
def stop (process : Nat) (g : Signal) : Run Unit :=
  modify fun s =>
    let depth := ((s.jobs.find? (·.process == process)).map Job.depth).or
      ((s.ended.find? (·.process == process)).map EndedJob.depth)
    { s with
      jobs := s.jobs.filter (·.process != process)
      ended := ⟨process, depth.getD s.depth, .killed g, s.time⟩ ::
        s.ended.filter (·.process != process)
      written := s.written.filter fun o => !(o.source == process && s.time < o.time)
      deeds := s.deeds.filter fun d => !(d.source == process && s.time < d.time) }

/-- Sends a signal, or none, to a process. The status tells whether there is such a process. -/
def send (number process : Nat) : Run Nat := do
  let s ← get
  let isHere := process == s.process || process == s.parent || s.jobs.any (·.process == process) ||
    s.ended.any (·.process == process)
  if !isHere then
    Run.complainOf "No such process\n"
    return 1
  match Signal.ofNumber? number with
  | none => return 0
  | some g =>
    let isLeft (job : EndedJob) : Bool := job.process == process && s.time < job.time
    if s.jobs.any (·.process == process) || s.ended.any isLeft then
      if g.ends then stop process g
    else set { s with notices := s.notices ++ [Notice.mk s.time process g] }
    return 0

def kill (args : List String) : Run Nat := do
  match ← killPlan args with
  | .send number targets => do
    let mut status := 0
    for target in targets do
      status := max status (← send number (← numberOf target))
    return status
  | .list [] => do
    Run.print (String.join ((List.range (Signal.last + 1)).map fun n =>
      (if n = 0 then "0" else trapName n) ++ "\n"))
    return 0
  | .list (code :: _) => do
    let n ← numberOf code
    match Signal.ofNumber? (if 128 < n then n - 128 else n) with
    | some g => do
      Run.print (g.shortName ++ "\n")
      return 0
    | none => Run.giveUp s!"invalid signal number or exit status: {code}"

def octal? (text : String) : Option Nat :=
  let digits := text.toList.map fun c => c.toNat - 48
  if text.isEmpty || !text.toList.all (fun c => '0' ≤ c && c ≤ '7') then none
  else some (digits.foldl (fun n d => 8 * n + d) 0)

def rightsLeft (mask weight : Nat) : String :=
  let digit := mask / weight % 8
  (if digit / 4 % 2 = 0 then "r" else "") ++ (if digit / 2 % 2 = 0 then "w" else "") ++
    if digit % 2 = 0 then "x" else ""

def umask (args : List String) : Run Nat := do
  let (options, args) ← letters ['S'] args
  let mask := (← get).mask
  match args with
  | [] =>
    if options.contains 'S' then
      Run.print
        s!"u={rightsLeft mask 64},g={rightsLeft mask 8},o={rightsLeft mask 1}\n"
    else
      let digits := [mask / 512 % 8, mask / 64 % 8, mask / 8 % 8, mask % 8]
      Run.print (String.join (digits.map toString) ++ "\n")
    return 0
  | mode :: _ =>
    match octal? mode with
    | some n => do
      modify fun s => { s with mask := n % 512 }
      return 0
    | none => Run.giveUp s!"Illegal number: {mode}"

structure OptionRead where
  letter : Char := '?'
  /-- what becomes of the variable for values: it is set, removed, or stays -/
  value : Option (Option String) := none
  complaint : Option String := none
  place : Nat × Option Nat
  isEnd : Bool := false

/-- Whether an option of this letter has a value, if there is such an option. -/
def hasValue? (c : Char) : List Char → Option Bool
  | a :: ':' :: rest => if a == c then some true else hasValue? c rest
  | a :: rest => if a == c then some false else hasValue? c rest
  | [] => none

/-- Reads an option of some arguments at a place. A colon at the front of `known` means that nobody
complains. -/
def readOption (known : List Char) (args : List String) (place : Nat × Option Nat) : OptionRead :=
  let (quiet, known) := match known with
    | ':' :: known => (true, known)
    | known => (false, known)
  let index := max place.1 1
  let begun : List Char := match place.2, if index ≤ 1 then none else args[index - 2]? with
    | some n, some word => word.toList.drop n
    | _, _ => []
  let (word, index) : List Char × Nat := match begun, (args[index - 1]?.getD "").toList with
    | c :: cs, _ => (c :: cs, index)
    | [], '-' :: '-' :: [] => ([], index + 1)
    | [], '-' :: c :: cs => (c :: cs, index + 1)
    | [], _ => ([], index)
  match word with
  | [] => { place := (index, none), isEnd := true }
  | c :: rest =>
    let length := ((args[index - 2]?).getD "").length
    let after : Nat × Option Nat := (index, some (length - rest.length))
    let missing (text : String) (letter : Char) (place : Nat × Option Nat) : OptionRead :=
      if quiet then { letter, value := some (some (String.singleton c)), place }
      else { value := some none, complaint := some text, place }
    match hasValue? c known, rest, args[index - 1]? with
    | none, _, _ => missing s!"Illegal option -{c}" '?' after
    | some false, _, _ => { letter := c, value := some (some ""), place := after }
    | some true, [], none => missing s!"No arg for -{c} option" ':' after
    | some true, [], some next =>
      { letter := c, value := some (some next), place := (index + 1, none) }
    | some true, rest, _ =>
      { letter := c, value := some (some (String.ofList rest)), place := (index, none) }

def getopts (args : List String) : Run Nat := do
  match args with
  | known :: name :: given => do
    let s ← get
    let found := readOption known.toList (if given.isEmpty then s.args else given) s.optionPlace
    match found.complaint with
    | some text => Run.complain text
    | none => pure ()
    match found.value with
    | some (some value) => Run.assign "OPTARG" value
    | some none => Run.forget "OPTARG"
    | none => pure ()
    Run.assign "OPTIND" (toString found.place.1)
    modify fun s => { s with optionPlace := found.place }
    checkName name
    Run.assign name (String.singleton found.letter)
    return if found.isEnd then 1 else 0
  | _ => Run.giveUp "Usage: getopts optstring var [arg...]"

def echo (args : List String) : Run Nat := do
  Run.write (if (← get).isLarge then Format.systemEcho args else Format.echo args)
  return 0

def printf (args : List String) : Run Nat := do
  match (← letters [] args).2 with
  | [] => Run.giveUp "usage: printf format [arg ...]"
  | format :: args => do
    let outcome := Format.printf false format args
    for complaint in outcome.complaints do Run.complainOf complaint.text
    Run.write outcome.written
    return outcome.status

def test (args : List String) : Run Nat := do
  match Condition.holds (← get) args with
  | .ok holds => return if holds then 0 else 1
  | .error fault => Run.giveUp fault

def bracket (args : List String) : Run Nat := do
  if args.getLast? == some "]" then test args.dropLast else Run.giveUp "missing ]"

/-- Decides a condition between double brackets, which only the larger shell has. -/
def doubleBracket (args : List String) : Run Nat := do
  let holds (isSame : Bool) (text pattern : String) : Run Nat :=
    let covers := Pattern.covers (pattern.toList.map (·, false)) text.toList
    return if covers == isSame then 0 else 1
  match args with
  | [text, "==", pattern, "]]"] | [text, "=", pattern, "]]"] => holds true text pattern
  | [text, "!=", pattern, "]]"] => holds false text pattern
  | args => if args.getLast? == some "]]" then test args.dropLast else Run.giveUp "missing ]]"

def table : List (String × (List String → Run Nat)) :=
  [(":", fun _ => return 0), ("true", fun _ => return 0), ("false", fun _ => return 1),
    ("exit", endShell), ("return", leaveFunction), ("break", leaveLoops), ("continue", nextRound),
    ("export", declare "export"), ("readonly", declare "readonly"), ("local", declareLocal),
    ("unset", unset), ("shift", shift), ("set", setShell), ("trap", trap), ("cd", cd),
    ("chdir", cd), ("pwd", pwd), ("read", read), ("getopts", getopts), ("kill", kill),
    ("umask", umask), ("echo", echo), ("printf", printf), ("test", test), ("[", bracket),
    ("times", fun _ => return 0), ("ulimit", fun _ => return 0), ("alias", fun _ => return 0),
    ("unalias", fun _ => return 0), ("hash", fun _ => return 0), ("jobs", fun _ => return 0)]

def running : List String := [".", "command", "eval", "exec", "type", "wait"]

def largeTable : List (String × (List String → Run Nat)) := [("[[", doubleBracket)]

def act? (s : State) (name : String) : Option (List String → Run Nat) :=
  (table.lookup name).or (if s.isLarge then largeTable.lookup name else none)

def isOwn (s : State) (name : String) : Bool := (act? s name).isSome || running.contains name

end BootImage.Shell.Commands
