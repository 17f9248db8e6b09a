import BootImage.Shell.Arithmetic
import BootImage.Shell.Lookup
import BootImage.Shell.Tools

/-!
# Running scripts

`Execution.script` runs a script and `Execution.program` a program, which may be a shell that reads
a script itself. Each function hands on a smaller number of steps to those it calls, so a script
that never ends is halted as `Halt.exhausted` rather than run forever.

Commands in the background are run when time is about to pass: when the shell waits for them, when
it sleeps, or at its end. Their time starts when they were started, so what they do is put where it
belongs. A signal that a shell is sent takes effect when its command has ended.
-/

namespace BootImage.Shell.Execution

open Lookup

def announce : Ending → Run Unit
  | .exited _ => return
  | .killed g => if g.isQuiet then return else Run.complain g.description

def conclude (ending : Ending) : Run Unit := do
  announce ending
  Run.setStatus ending.status

def endAs {α : Type} (ending : Ending) : Run α := throw (.replaced ending)

def check : Run Unit := do
  let s ← get
  if s.flags.contains 'e' && !s.isTested && s.status ≠ 0 then throw (.exit s.status)

/-- The text of a script. The character NUL does not count. -/
def sourceOf (content : List UInt8) : String := Text.decode (content.filter (· != 0))

def environmentManual : Tool.Manual where
  flags := "i0v"
  valued := "uC"
  long := [("ignore-environment", 'i'), ("null", '0'), ("unset", 'u'), ("chdir", 'C'),
    ("debug", 'v')]
  mixed := false

def assigned (env : List (String × String)) : List String → List (String × String) × List String
  | [] => (env, [])
  | word :: words =>
    match Variables.cutAssignment word with
    | (name, some value) => assigned (insertEntry name value env) words
    | (_, none) => (env, word :: words)

def trapFor? (s : State) (g : Signal) : Option Trap :=
  if g.canBeHandled then s.traps.lookup g.number else none

/-- Waits up to a time. A signal that the shell has a script for ends the waiting before; the result
tells whether none did. -/
def waitFor (time : Nat) : Run Bool := do
  let s ← get
  let disturbs (notice : Notice) : Bool :=
    notice.process == s.process && notice.time < time && match trapFor? s notice.signal with
      | some (.script _) => true
      | _ => false
  match s.notices.find? disturbs with
  | some notice => do
    Run.waitUntil notice.time
    Run.setStatus (128 + notice.signal.number)
    return false
  | none => do
    Run.waitUntil time
    return true

def inLoop (action : Run Unit) : Run Unit :=
  Run.restoring (fun before s => { s with loops := before.loops }) do
    modify fun s => { s with loops := s.loops + 1 }
    action

def trace (values : List (String × String)) (words : List String) : Run Unit := do
  let s ← get
  if s.flags.contains 'x' then
    Run.complain (Run.variableOr s "PS4" ++
      " ".intercalate (values.map (fun v => s!"{v.1}={v.2}") ++ words))

/-- Says that a command of the shell itself could not write all of its output, if it could not. -/
def sayFault (name : String) : Run Unit := do
  let s ← get
  match s.fault with
  | none => return
  | some why => do
    set { s with fault := none }
    Run.complainOf (if s.isLarge then s!"write error: {why.description}" else s!"{name}: I/O error")
    Run.setStatus (if s.status = 0 then 1 else s.status)

def release : Run Unit := do
  for (_, sink) in (← get).descriptors do
    match sink with
    | .channel c => Run.writeTo (.channel c) []
    | _ => pure ()

/-- Opens a file as the input. Nothing can be read from a directory. -/
def openInput (path : String) : Run (Except Refusal Unit) := do
  let take (input : List UInt8) : Run (Except Refusal Unit) := do
    modify fun s => { s with input }
    return .ok ()
  match ← Run.readFile path with
  | .ok content => take content
  | .error .isDirectory => take []
  | .error why => return .error why

def lead (descriptor : Nat) (sink : Sink) : Run Unit :=
  modify fun s => { s with descriptors := insertEntry descriptor sink s.descriptors }

/-- Opens what a redirection leads to. The result tells whether that worked. -/
def openTarget (descriptor : Nat) (kind : RedirectKind) (target : String) : Run Bool := do
  let s ← get
  let failing (text : String) : Run Bool := do
    Run.complainOf text
    return false
  match kind with
  | .document => do
    set { s with input := Text.encode target }
    lead 0 .nowhere
    return true
  | .duplicate =>
    match target.toList with
    | ['-'] => do
      set { s with
        descriptors := eraseEntry descriptor s.descriptors
        input := if descriptor = 0 then [] else s.input }
      return true
    | [c] =>
      if !c.isDigit then Run.giveUp "Syntax error: Bad fd number"
      else match s.descriptors.lookup (c.toNat - 48) with
        | some sink => do
          lead descriptor sink
          return true
        | none => failing s!"{target}: Bad file descriptor"
    | _ => Run.giveUp "Syntax error: Bad fd number"
  | .read => do
    match ← if descriptor = 0 then openInput target else pure (.ok ()) with
    | .ok () => do
      lead descriptor .nowhere
      return true
    | .error why =>
      if s.isLarge then failing s!"{target}: {why.description}"
      else if why == .notFound || why == .notDirectory then
        failing s!"cannot open {target}: No such file"
      else failing s!"cannot open {target}: {why.description}"
  | .write | .overwrite | .append => do
    let stream := match s.tree.reach true s.cwd (Tool.parentPath target) with
      | .found ["dev"] .directory => [("stdout", 1), ("stderr", 2)].lookup (Tool.lastName target)
      | _ => none
    match stream.bind fun d => s.descriptors.lookup d with
    | some sink => do
      lead descriptor sink
      return true
    | none =>
      let isProtected := kind == .write && s.flags.contains 'C' &&
        match s.tree.reach true s.cwd target with
        | .found l (.file ..) => !Run.isBottomless l
        | _ => false
      let opened ← if isProtected then pure (.error .alreadyExists)
        else Run.openFile target (kind == .append)
      match opened with
      | .ok sink => do
        lead descriptor sink
        return true
      | .error why =>
        if s.isLarge then failing s!"{target}: {why.description}"
        else if why == .notFound || why == .notDirectory then
          failing s!"cannot create {target}: Directory nonexistent"
        else failing s!"cannot create {target}: {why.description}"

def isOfInput : Redirect → Bool
  | .mk descriptor _ _ => descriptor == 0

mutual

/-- Expands a part of a word. With `splits` it may come apart into fields. -/
def part : Nat → Bool → Part → Run (List Piece)
  | 0, _, _ => throw .exhausted
  | n + 1, splits, p => match p with
    | .text s quoted => return [.chars s quoted false]
    | .home user => return [.chars (Variables.home (← get) user).toList true false]
    | .parameter name quoted => do
      let s ← get
      if splits && (name == "@" || (name == "*" && !quoted)) then
        return argumentPieces quoted s.args
      return [.chars (← required n name).toList quoted (!quoted)]
    | .conditional name operator emptyToo word quoted => do
      let s ← get
      let value := parameter? s name
      let isSet := match value with
        | some v => !(emptyToo && v.isEmpty)
        | none => false
      let present : Run (List Piece) := part n splits (.parameter name quoted)
      let other : Run (List Piece) := do
        return (← words n splits word).map fun
          | .chars s q _ => Piece.chars s q (!quoted && !q)
          | .cut => .cut
      match operator with
      | '-' => if isSet then present else other
      | '+' => if isSet then other else return [.chars [] quoted (!quoted)]
      | '=' =>
        if isSet then present
        else do
          let value := Piece.text (← words n false word)
          Variables.checkName name
          Run.assign name value
          return [.chars value.toList quoted (!quoted)]
      | _ =>
        if isSet then present
        else do
          let text := Piece.text (← words n false word)
          let text := if !word.isEmpty then text
            else if emptyToo then "parameter not set or null" else "parameter not set"
          Run.giveUp s!"{name}: {text}"
    | .trimmed name atEnd longest pattern quoted => do
      let value := (← required n name).toList
      let marks := Piece.marks (← words n false pattern)
      let rest := if atEnd then Pattern.trimEnd longest marks value
        else Pattern.trimStart longest marks value
      return [.chars rest quoted (!quoted)]
    | .length name quoted => do
      return [.chars (toString (← required n name).utf8ByteSize).toList quoted (!quoted)]
    | .arithmetic expression quoted => do
      let text := Piece.text (← words n false expression)
      let s ← get
      match Arithmetic.evaluate (fun name => (parameter? s name).getD "") text.toList with
      | .ok (v, assigned) => do
        for (name, value) in assigned.reverse do Run.assign name (toString value)
        return [.chars (toString v).toList quoted (!quoted)]
      | .error fault => Run.giveUp (fault.message text)
    | .output body quoted => do
      let bytes ← Run.collecting do
        let ending ← apart n false [] body
        announce ending
        modify fun s => { s with outputStatus := ending.status }
      return [.chars (dropLineEnds (Text.decode (bytes.filter (· != 0)))) quoted (!quoted)]
    | .malformed => Run.giveUp "Bad substitution"

/-- The value of a parameter; empty if it is not set and need not be. -/
def required : Nat → String → Run String
  | 0, _ => throw .exhausted
  | _ + 1, name => do
    let s ← get
    match parameter? s name with
    | some value => return value
    | none =>
      if !isRequired s name then return ""
      Run.giveUp (if s.isLarge then s!"{name}: unbound variable" else s!"{name}: parameter not set")

def words : Nat → Bool → Word → Run (List Piece)
  | 0, _, _ => throw .exhausted
  | _ + 1, _, [] => return []
  | n + 1, splits, p :: ps => do
    let first ← part n splits p
    return first ++ (← words n splits ps)

def single : Nat → Word → Run String
  | 0, _ => throw .exhausted
  | n + 1, w => return Piece.text (← words n false w)

/-- The fields of some words. With `declares` a word that is an assignment is not split. -/
def fields : Nat → Bool → List Word → Run (List String)
  | 0, _, _ => throw .exhausted
  | _ + 1, _, [] => return []
  | n + 1, declares, w :: ws => do
    let first ← if declares && isAssignment w then pure [← single n w] else do
      let pieces ← words n true w
      let s ← get
      let found := Piece.fields (Variables.separators s).toList pieces
      pure (if s.flags.contains 'f' then found.map Glob.spelling
        else found.flatMap (Glob.expand s.tree s.cwd))
    return first ++ (← fields n declares ws)

/-- Gives variables their values in turn, for the programs that are started too if `hands` is
given. -/
def assignAll : Nat → Bool → List (String × Word) → Run (List (String × String))
  | 0, _, _ => throw .exhausted
  | _ + 1, _, [] => return []
  | n + 1, hands, (name, w) :: rest => do
    let value ← single n w
    Run.assign name value
    if hands then Run.export name
    return (name, value) :: (← assignAll n hands rest)

def openAll : Nat → List Redirect → Run Bool
  | 0, _ => throw .exhausted
  | _ + 1, [] => return true
  | n + 1, .mk descriptor kind target :: rest => do
    if ← openTarget descriptor kind (← single n target) then openAll n rest else return false

/-- Runs an action with redirections, which are taken back afterwards unless `keeps` is given. The
result tells whether they worked; if not, the action is not run. -/
def redirected : Nat → Bool → List Redirect → Run Unit → Run Bool
  | 0, _, _, _ => throw .exhausted
  | n + 1, keeps, redirects, action => do
    if redirects.isEmpty then
      action
      return true
    let before ← get
    let takeBack : Run Unit := modify fun s => { s with
      descriptors := before.descriptors
      input := if redirects.any isOfInput then before.input else s.input }
    match ← Run.observe (openAll n redirects) with
    | .ok true => do
      let result ← Run.observe action
      if !keeps then takeBack
      Run.resume result
      return true
    | .ok false => do
      takeBack
      Run.setStatus (if before.isLarge then 1 else 2)
      return false
    | .error h => do
      takeBack
      throw h

/-- Runs a script. With `isLast` nothing is left to do after it, so its last program may take the
place of the shell. -/
def script : Nat → Bool → Script → Run Unit
  | 0, _, _ => throw .exhausted
  | n + 1, isLast, body => match body with
    | .nothing => return
    | .sequence a .nothing => script n isLast a
    | .sequence a b => do
      script n false a
      script n isLast b
    | .both a b => do
      Run.tolerating (script n false a)
      if (← get).status = 0 then script n isLast b
    | .either a b => do
      Run.tolerating (script n false a)
      if (← get).status ≠ 0 then script n isLast b
    | .negation a => do
      Run.tolerating (script n false a)
      Run.setStatus (if (← get).status = 0 then 1 else 0)
    | .pipe a b => do
      let bytes ← Run.collecting do
        let ending ← apart n true [] a
        announce ending
        modify fun s => { s with outputStatus := ending.status }
      let before ← get
      set { before with
        input := bytes
        descriptors := insertEntry 0 .nowhere before.descriptors }
      let ending ← apart n true [] b
      modify fun s => { s with input := before.input, descriptors := before.descriptors }
      conclude ending
      if before.flags.contains 'p' && ending.status = 0 then Run.setStatus before.outputStatus
      deliver n
      check
    | .background body =>
      modify fun s => { s with
        jobs := ⟨s.nextProcess, s.depth, s.time, { copyContext s with isTested := false }, body⟩ ::
          s.jobs
        lastJob := some s.nextProcess
        nextProcess := s.nextProcess + 1
        status := 0 }
    | .branch condition yes no => do
      Run.tolerating (script n false condition)
      if (← get).status = 0 then script n isLast yes
      else
        Run.setStatus 0
        script n isLast no
    | .loop untilTrue condition body => inLoop (loop n untilTrue condition body 0)
    | .each line name ws body => do
      modify fun s => { s with line }
      let values ← match ws with
        | some ws => fields n false ws
        | none => pure (← get).args
      Run.setStatus 0
      inLoop (each n name body values)
    | .distinguish line subject arms => do
      modify fun s => { s with line }
      let text ← single n subject
      let chosen ← arm n text.toList arms
      Run.setStatus 0
      script n isLast chosen
    | .function name body =>
      modify fun s => { s with functions := insertEntry name body s.functions, status := 0 }
    | .group line isApart body redirects => do
      if isApart then
        modify fun s => { s with line }
        if isLast && !hasTraps (← get) then
          let _ ← redirected n true redirects (script n true body)
        else
          conclude (← apart n true redirects body)
          deliver n
          check
      else if redirects.isEmpty then script n isLast body
      else
        modify fun s => { s with line }
        let _ ← redirected n false redirects (script n false body)
    | .simple line assigned ws redirects => do
      modify fun s => { s with line, outputStatus := 0 }
      simple n isLast assigned ws redirects
      deliver n
      check

def simple : Nat → Bool → List (String × Word) → List Word → List Redirect → Run Unit
  | 0, _, _, _, _ => throw .exhausted
  | n + 1, isLast, assigned, ws, redirects => do
    let first ← fields n false (ws.take 1)
    let declares := first.head?.any fun name => declaringCommands.contains name
    let isCondition := first == ["[["] && (← get).isLarge
    let rest ← if isCondition then (ws.drop 1).mapM (single n) else fields n declares (ws.drop 1)
    match first ++ rest with
    | [] => do
      let _ ← redirected n false redirects do
        let values ← assignAll n false assigned
        if !values.isEmpty then trace values []
        Run.setStatus (← get).outputStatus
    | name :: args => do
      let keeps := name == "exec" && args.isEmpty
      let worked ← redirected n keeps redirects (command n isLast assigned name args)
      if !worked && specialCommands.contains name && !(← get).isLarge then throw .failed

/-- Runs a command with the assignments before it. The special commands keep them. -/
def command : Nat → Bool → List (String × Word) → String → List String → Run Unit
  | 0, _, _, _, _ => throw .exhausted
  | n + 1, isLast, assigned, name, args => do
    if specialCommands.contains name then
      trace (← assignAll n false assigned) (name :: args)
      own n isLast true name args
    else if assigned.isEmpty then
      trace [] (name :: args)
      dispatch n isLast true name args
    else
      Run.restoring (putBack (assigned.map Prod.fst)) do
        trace (← assignAll n true assigned) (name :: args)
        dispatch n isLast true name args

/-- Runs a command that is none of the special ones: a function, one of the shell's own, or a
program. -/
def dispatch : Nat → Bool → Bool → String → List String → Run Unit
  | 0, _, _, _, _ => throw .exhausted
  | n + 1, isLast, calls, name, args => do
    let s ← get
    match if calls then s.functions.lookup name else none with
    | some body =>
      Run.restoring afterCall do
        set { s with
          args, calls := s.calls + 1, loops := 0, outside := [], optionPlace := (1, none) }
        match ← Run.observe (script n false body) with
        | .error .leaveFunction => return
        | result => Run.resume result
    | none =>
      if Commands.isOwn s name then own n isLast false name args
      else if s.isLarge && name == "source" then own n isLast true "." args
      else match image s name args with
        | .ok image => do
          let ending ← program n (Variables.environment s) image
          if isLast && !hasTraps (← get) then endAs ending
          conclude ending
        | .error (why, status) => do
          Run.complainOf s!"{name}: {phrase s name why}"
          Run.setStatus status

/-- Runs a command of the shell itself. A fault in it ends the shell if the command is special. -/
def own : Nat → Bool → Bool → String → List String → Run Unit
  | 0, _, _, _, _ => throw .exhausted
  | n + 1, isLast, isSpecial, name, args => do
    let restore (before s : State) : State := { s with speaker := before.speaker }
    let result ← Run.observe <| Run.restoring restore do
      modify fun s => { s with speaker := some name }
      match Commands.act? (← get) name with
      | some act => Run.setStatus (← act args)
      | none => ownRunning n isLast name args
      sayFault name
    match result with
    | .error .failed => if isSpecial && !(← get).isLarge then throw .failed
    | result => Run.resume result

def ownRunning : Nat → Bool → String → List String → Run Unit
  | 0, _, _, _ => throw .exhausted
  | n + 1, isLast, name, args => do
    let s ← get
    match name, args with
    | "eval", args => do
      let source := " ".intercalate args
      if source.toList.all isBlank then Run.setStatus 0 else text n source
    | ".", path :: _ => do
      let places := if path.toList.contains '/' then [path] else candidates s path
      let contents := places.filterMap fun p =>
        match (s.tree.reach true s.cwd p).found? with
        | some (.file content _) => some (p, content)
        | some .directory => if path.toList.contains '/' then some (p, []) else none
        | _ => none
      match contents with
      | (p, content) :: _ => do
        modify fun s => { s with speaker := some p }
        Run.setStatus 0
        match ← Run.observe (text n (sourceOf content)) with
        | .error .leaveFunction => return
        | result => Run.resume result
      | [] =>
        if s.isLarge then
          modify fun s => { s with speaker := none }
          Run.giveUp s!"{path}: {Refusal.notFound.description}"
        else if path.toList.contains '/' then Run.giveUp s!"cannot open {path}: No such file"
        else Run.giveUp s!"{path}: not found"
    | "exec", name :: args =>
      match image s name args with
      | .ok image => endAs (← program n (Variables.environment s) image)
      | .error (why, status) => do
        Run.complainOf s!"{name}: {phrase { s with isLarge := false } name why}"
        throw (.exit status)
    | "command", args => do
      let (options, args) ← Commands.letters ['p', 'v', 'V'] args
      match args with
      | [] => Run.setStatus 0
      | name :: args =>
        if options.contains 'v' || options.contains 'V' then
          match description? s (options.contains 'v') name with
          | some text => do
            Run.print (text ++ "\n")
            Run.setStatus 0
          | none => do
            if options.contains 'V' then Run.print s!"{name}: not found\n"
            Run.setStatus 127
        else
          modify fun s' => { s' with speaker := none }
          dispatch n isLast false name args
    | "type", names => do
      let mut status := 0
      for name in names do
        match description? s false name with
        | some text => Run.print (text ++ "\n")
        | none =>
          Run.print s!"{name}: not found\n"
          status := 127
      Run.setStatus status
    | "wait", targets => do
      runJobs n none
      let s ← get
      let ended := (s.ended.filter (·.depth == s.depth)).mergeSort fun a b => a.process ≤ b.process
      match targets with
      | [] => do
        if ← waitFor ((ended.map EndedJob.time).foldl max s.time) then
          modify fun s => { s with
            ended := s.ended.filter (·.depth != s.depth), status := 0 }
      | targets =>
        for target in targets do
          let job ← match target.toList with
            | '%' :: digits => pure (ended[((String.ofList digits).toNat?.getD 1) - 1]?)
            | _ => do
              let process ← Variables.numberOf target
              pure (ended.find? (·.process == process))
          match job with
          | some job => do
            if ← waitFor job.time then
              modify fun s => { s with ended := s.ended.filter (·.process != job.process) }
              conclude job.ending
            else return
          | none =>
            if target.startsWith "%" then Run.giveUp s!"No such job: {target}"
            Run.setStatus 127
    | _, _ => Run.setStatus 0

/-- Runs the rounds of a loop; `last` is the status of the round before. -/
def loop : Nat → Bool → Script → Script → Nat → Run Unit
  | 0, _, _, _, _ => throw .exhausted
  | n + 1, untilTrue, condition, body, last => do
    match ← Run.observe (Run.tolerating (script n false condition)) with
    | .error (.leaveLoop levels) => do
      Run.setStatus 0
      if 1 < levels then throw (.leaveLoop (levels - 1))
    | .error h => throw h
    | .ok () =>
      if ((← get).status == 0) == untilTrue then Run.setStatus last
      else if ← round n body then loop n untilTrue condition body (← get).status

def round : Nat → Script → Run Bool
  | 0, _ => throw .exhausted
  | n + 1, body => do
    match ← Run.observe (script n false body) with
    | .ok () => return true
    | .error (.leaveLoop levels) =>
      Run.setStatus 0
      if levels ≤ 1 then return false else throw (.leaveLoop (levels - 1))
    | .error (.nextRound levels) =>
      Run.setStatus 0
      if levels ≤ 1 then return true else throw (.nextRound (levels - 1))
    | .error h => throw h

def each : Nat → String → Script → List String → Run Unit
  | 0, _, _, _ => throw .exhausted
  | _ + 1, _, _, [] => return
  | n + 1, name, body, value :: values => do
    Run.assign name value
    if ← round n body then each n name body values

def arm : Nat → List Char → List (List Word × Script) → Run Script
  | 0, _, _ => throw .exhausted
  | _ + 1, _, [] => return .nothing
  | n + 1, text, ([], _) :: arms => arm n text arms
  | n + 1, text, (pattern :: patterns, body) :: arms => do
    if Pattern.covers (Piece.marks (← words n false pattern)) text then return body
    arm n text ((patterns, body) :: arms)

/-- Runs a script with redirections in a copy of the shell, which changes nothing of the shell
itself. With `tested` what is known of whoever looks at failures is known to the copy too. -/
def apart : Nat → Bool → List Redirect → Script → Run Ending
  | 0, _, _, _ => throw .exhausted
  | n + 1, tested, redirects, body => do
    let s ← get
    let context := { copyContext s with isTested := tested && s.isTested }
    Run.resume <| ← Run.inContext context <| finish n do
      let _ ← redirected n true redirects (script n true body)

def text : Nat → String → Run Unit
  | 0, _ => throw .exhausted
  | n + 1, source =>
    let cs := source.toList
    textFrom n (cs.count '\n' + 1) cs

def textFrom : Nat → Nat → List Char → Run Unit
  | 0, _, _ => throw .exhausted
  | _ + 1, _, [] => return
  | n + 1, lines, c :: cs => do
    match Script.readLine lines (c :: cs) with
    | .ok (body, rest) => do
      script n false body
      textFrom n lines rest
    | .error e => do
      modify fun s => { s with line := e.line }
      Run.giveUp s!"Syntax error: {e.text}"

def deliver : Nat → Run Unit
  | 0 => throw .exhausted
  | n + 1 => do
    let s ← get
    if s.isCopy then return
    match s.notices.find? fun x => x.process == s.process && x.time ≤ s.time with
    | none => return
    | some notice => do
      let g := notice.signal
      set { s with notices := s.notices.erase notice }
      match trapFor? s g with
      | some .ignored => return
      | some (.script source) =>
        Run.restoring (fun before s => { s with endStatus := before.endStatus }) do
          modify fun s => { s with endStatus := s.endStatus.or (some s.status) }
          text n source
        Run.setStatus s.status
      | none => if g.ends then throw (.signalled g)
      deliver n

/-- Runs the commands in the background that were not run yet, all or those of one owner. -/
def runJobs : Nat → Option Nat → Run Unit
  | 0, _ => throw .exhausted
  | n + 1, owner => do
    let s ← get
    match s.jobs.reverse.find? fun job => owner.all (· == job.depth) with
    | none => return
    | some job => do
      set { s with jobs := s.jobs.filter (·.process != job.process) }
      let ended ← Run.aside job.process job.since do
        let ending ← Run.resume (← Run.inContext job.context (finish n (script n true job.body)))
        return EndedJob.mk job.process job.depth ending (← get).time
      modify fun s => { s with ended := ended :: s.ended }
      runJobs n owner

/-- Runs an action up to the end of the shell, and tells how that ends. The shell's own end is told
to its trap. -/
def finish : Nat → Run Unit → Run Ending
  | 0, _ => throw .exhausted
  | n + 1, action => do
    let first ← ending n action
    let (last, isHere) ← match first with
      | (.exited status, true) => do
        match (← get).traps.lookup 0 with
        | some (.script source) => do
          modify fun s => { s with
            traps := eraseEntry 0 s.traps, status, endStatus := some status, speaker := none }
          ending n do
            text n source
            throw (.exit status)
        | _ => pure first
      | _ => pure first
    runJobs n (some (← get).depth)
    if isHere then release
    return last

def ending : Nat → Run Unit → Run (Ending × Bool)
  | 0, _ => throw .exhausted
  | _ + 1, action => do
    match ← Run.observe action with
    | .error (.exit status) => return (.exited (status % 256), true)
    | .error (.replaced ending) => return (ending, false)
    | .error (.signalled g) => return (.killed g, true)
    | .error .exhausted => throw .exhausted
    | _ => return (.exited ((← get).status % 256), true)

def program : Nat → List (String × String) → Image → Run Ending
  | 0, _, _ => throw .exhausted
  | n + 1, env, image => do
    if image.program == "sleep" then runJobs n none
    let s ← get
    set { s with nextProcess := s.nextProcess + 1 }
    let context : Context :=
      { name := image.words.headD image.program
        args := image.words.tail
        bindings := env
        exported := env.map Prod.fst
        traps := s.traps.filter (·.2 == .ignored)
        cwd := s.cwd
        directory := s.directory
        process := s.nextProcess
        parent := s.process
        descriptors := s.descriptors }
    Run.resume (← Run.inContext context (called n image.program))

def called : Nat → String → Run Ending
  | 0, _ => throw .exhausted
  | n + 1, name => do
    let s ← get
    let ended ← match name with
      | "dash" => shell n false
      | "bash" => shell n true
      | "env" => withEnvironment n s.args
      | "nice" => match s.args with
        | [] => do
          Run.print "0\n"
          pure (Ending.exited 0)
        | "-n" :: _ :: words | words => onBehalf n s.name Tool.quote s.bindings words
      | "nohup" => match s.args with
        | [] => do pure (Ending.exited (← Tool.misused s.name "missing operand" 125))
        | words =>
          onBehalf n s.name (fun w => s!"failed to run command {Tool.quote w}") s.bindings words
      | "timeout" => withLimit n none s.args
      | "xargs" => withInput n s.args
      | name => match Tools.table.lookup name with
        | some tool => do
          match ← Run.observe (tool s.name s.args) with
          | .ok status => match (← get).fault with
            | none => pure (Ending.exited status)
            | some why => do
              Tool.complain s.name (Tools.writeFault name why)
              pure (Ending.exited (max status (Tools.writeFaultStatus name)))
          | .error .exhausted => throw .exhausted
          | .error _ => pure (Ending.exited 2)
        | none => pure (Ending.exited 126)
    release
    return ended

def shell : Nat → Bool → Run Ending
  | 0, _ => throw .exhausted
  | n + 1, isLarge => do
    let s ← get
    let failing (status : Nat) (text : String) : Run Ending := do
      Run.complain s!"{s.name}: 0: {text}"
      return .exited status
    let here := directory s
    match Start.read {} s.args with
    | .error fault => failing 2 fault
    | .ok start => do
      let begin (name : String) (args : List String) (source : String) : Run Ending := do
        modify fun s => { s with
          name, args, isLarge
          flags := start.flags
          directory := here
          bindings := startVariables s.bindings s.parent here
          exported := "PWD" :: s.exported.filter fun v => isGoodName v.toList && v != "IFS" }
        finish n (text n source)
      match start.isText, start.operands with
      | true, [] => failing 2 "-c requires an argument"
      | true, [source] => begin s.name [] source
      | true, source :: name :: args => begin name args source
      | false, operands =>
        if operands.isEmpty || start.flags.contains 's' then
          set { s with input := [] }
          begin s.name operands (sourceOf s.input)
        else match operands with
          | [] => return .exited 0
          | path :: args =>
            match s.tree.reach true s.cwd path with
            | .found _ (.file content _) => begin path args (sourceOf content)
            | .found .. => begin path args ""
            | .refused .nameTooLong =>
              failing 2 s!"cannot open {path}: {Refusal.nameTooLong.description}"
            | _ => failing 2 s!"cannot open {path}: No such file"

/-- Runs the program that some words name for a tool. If there is none, the tool says so; `doing` is
what it names the word with. -/
def onBehalf : Nat → String → (String → String) → List (String × String) → List String → Run Ending
  | 0, _, _, _, _ => throw .exhausted
  | _ + 1, _, _, _, [] => return .exited 0
  | n + 1, tool, doing, env, word :: rest => do
    let s ← get
    let path := (env.lookup "PATH").getD "/bin:/usr/bin"
    match s.tree.imageOfCommand s.cwd path word rest with
    | .ok image => program n env image
    | .error why => do
      Tool.complain tool s!"{doing word}: {why.description}"
      return .exited (if why == .notFound then 127 else 126)

def withEnvironment : Nat → List String → Run Ending
  | 0, _ => throw .exhausted
  | n + 1, words => do
    let s ← get
    let value (name : String) : String := (s.bindings.lookup name).getD ""
    match environmentManual.read (TextTools.spreadWords value words) with
    | .error fault => return .exited (← Tool.misused s.name fault 125)
    | .ok a => do
      let isEmpty := a.has 'i' || a.operands.head? == some "-"
      let unset := (a.options.filter (·.1 == 'u')).map Prod.snd
      let kept := if isEmpty then []
        else unset.foldl (fun env name => eraseEntry name env) s.bindings
      let operands := if a.operands.head? == some "-" then a.operands.tail else a.operands
      let (env, command) := assigned kept operands
      let here := a.value? 'C'
      if let some path := here then
        match (s.tree.reach true s.cwd path).directory with
        | .ok cwd => set { s with cwd, directory := cwd.path }
        | .error why => do
          Tool.complain s.name s!"cannot change directory to {Tool.quote path}: {why.description}"
          return .exited 125
      if command.isEmpty then
        let ends := if a.has '0' then "\x00" else "\n"
        Run.print (String.join (env.map fun v => s!"{v.1}={v.2}{ends}"))
        return .exited 0
      else if a.has '0' then
        return .exited (← Tool.misused s.name "cannot specify --null (-0) with command" 125)
      else onBehalf n s.name Tool.quote env command

/-- Runs a program and ends it when its time is over. What it would have written later is not
written. -/
def withLimit : Nat → Option Signal → List String → Run Ending
  | 0, _, _ => throw .exhausted
  | n + 1, signal, words => do
    let s ← get
    let misused (text : String) : Run Ending := return .exited (← Tool.misused s.name text 125)
    match words with
    | "-s" :: name :: words => withLimit n (Signal.ofText? name) words
    | "-k" :: _ :: words | "--foreground" :: words => withLimit n signal words
    | [] | [_] => do
      Run.complain s!"Try '{s.name} --help' for more information."
      return .exited 125
    | limit :: words =>
      match TextTools.duration? limit with
      | none => misused s!"invalid time interval {Tool.quote limit}"
      | some d => do
        let doing (word : String) : String := s!"failed to run command {Tool.quote word}"
        let ending ← onBehalf n s.name doing s.bindings words
        let last := s.time + d
        let after ← get
        if d = 0 || after.time ≤ last then return ending
        let fresh := after.written.take (after.written.length - s.written.length)
        let kept := fresh.filter fun (o : Output) => decide (o.time ≤ last)
        set { after with time := last, written := kept ++ s.written }
        return match signal with
          | some g => if g.canBeHandled then .exited 124 else .killed g
          | none => .exited 124

/-- Runs a program for each of some groups of words; `status` is that of the groups before. -/
def forGroups : Nat → Nat → List (List String) → Run Ending
  | 0, _, _ => throw .exhausted
  | _ + 1, status, [] => return .exited status
  | n + 1, status, group :: groups => do
    let s ← get
    let program := group.headD ""
    match ← onBehalf n s.name id s.bindings group with
    | .killed g => do
      Tool.complain s.name s!"{program}: terminated by signal {g.number}"
      return .exited 125
    | .exited 255 => do
      Tool.complain s.name s!"{program}: exited with status 255; aborting"
      return .exited 124
    | .exited 0 => forGroups n status groups
    | .exited ended => if ended < 126 then forGroups n 123 groups else return .exited ended

def withInput : Nat → List String → Run Ending
  | 0, _ => throw .exhausted
  | n + 1, words => do
    let s ← get
    match ({ flags := "rt0", valued := "nI", mixed := false } : Tool.Manual).read words with
    | .error fault => return .exited (← Tool.misused s.name fault 1)
    | .ok a => do
      set { s with input := [] }
      let command := if a.operands.isEmpty then ["echo"] else a.operands
      let content := Text.decode s.input
      let groups : List (List String) := match a.value? 'I' with
        | some mark =>
          ((content.splitOn "\n").filter fun l => !l.isEmpty).map fun l =>
            command.map fun word => word.replace mark l
        | none =>
          let found := if a.has '0' then (content.splitOn "\x00").filter fun w => !w.isEmpty
            else TextTools.wordsOf none none content.toList
          if found.isEmpty then (if a.has 'r' then [] else [command])
          else match (a.value? 'n').bind Variables.natural? with
            | some size => (TextTools.inGroups size found).map (command ++ ·)
            | none => [command ++ found]
      forGroups n 0 groups

end

end BootImage.Shell.Execution
