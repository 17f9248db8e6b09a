import BootImage.Shell.Condition
import BootImage.Shell.Tool

/-!
# Tools for text

The tools of the system that write, pass on and count text, those that decide conditions, and those
that only take time.
-/

namespace BootImage.Shell.TextTools

open Tool

/-- What an operand of a filter stands for: `-` for the input, all else for a file. -/
def contents (operand : String) : Run (Except Refusal (List UInt8)) := do
  if operand != "-" then return ← Run.readFile operand
  let s ← get
  set { s with input := [] }
  return if (s.descriptors.lookup 0).isNone then .error .badDescriptor else .ok s.input

def lines : List UInt8 → List (List UInt8)
  | [] => []
  | b :: bs =>
    if b == 10 then [b] :: lines bs
    else match lines bs with
      | [] => [[b]]
      | l :: ls => (b :: l) :: ls

def cat : Tool := withManual ⟨"nuAetv", "", [("number", 'n')], true⟩ 1 fun tool a => do
  let numbered (bytes : List UInt8) : List UInt8 :=
    (lines bytes).zipIdx.flatMap fun (l, i) =>
      Format.pad 6 (Text.encode (toString (i + 1))) ++ 9 :: l
  forEach (if a.operands.isEmpty then ["-"] else a.operands) fun operand => do
    match ← contents operand with
    | .ok bytes => do
      Run.write (if a.has 'n' then numbered bytes else bytes)
      return 0
    | .error why => do
      complain tool s!"{quoteIfNeeded operand}: {why.description}"
      if operand == "-" then complain tool s!"closing standard input: {why.description}"
      return 1

def withCount (words : List String) : List String :=
  match words with
  | word :: rest => match word.toList with
    | '-' :: c :: cs => if c.isDigit then "-n" :: String.ofList (c :: cs) :: rest else words
    | _ => words
  | [] => []

/-- A part of each operand's content, under a title if there are several operands. -/
def parts (tool : String) (a : Arguments) (part : List UInt8 → List UInt8) : Run Nat := do
  let operands := if a.operands.isEmpty then ["-"] else a.operands
  let titled := (1 < operands.length || a.has 'v') && !a.has 'q'
  let mut status := 0
  let mut isFirst := true
  for operand in operands do
    let title := if operand == "-" then "standard input" else operand
    let start := if titled then (if isFirst then "" else "\n") ++ s!"==> {title} <==\n" else ""
    match ← contents operand with
    | .ok bytes =>
      Run.print start
      Run.write (part bytes)
      isFirst := false
    | .error .isDirectory =>
      Run.print start
      complain tool s!"error reading {quote operand}: {Refusal.isDirectory.description}"
      status := 1
      isFirst := false
    | .error why =>
      complain tool s!"cannot open {quote operand} for reading: {why.description}"
      status := 1
  return status

structure Amount where
  sign : Option Char
  number : Nat

def Amount.ofText? (text : String) : Option Amount :=
  match text.toList with
  | '-' :: ds => (Variables.natural? (String.ofList ds)).map (⟨some '-', ·⟩)
  | '+' :: ds => (Variables.natural? (String.ofList ds)).map (⟨some '+', ·⟩)
  | ds => (Variables.natural? (String.ofList ds)).map (⟨none, ·⟩)

def partTool (byLines byBytes : Amount → List UInt8 → List UInt8) : Tool := fun tool words =>
  withManual ⟨"qv", "nc", [("lines", 'n'), ("bytes", 'c')], true⟩ 1 (fun tool a => do
    let (option, unit, part) := match a.value? 'c' with
      | some text => (text, "bytes", byBytes)
      | none => ((a.value? 'n').getD "10", "lines", byLines)
    match Amount.ofText? option with
    | some amount => parts tool a (part amount)
    | none => do
      complain tool s!"invalid number of {unit}: {quote option}"
      return 1) tool (withCount words)

def head : Tool :=
  let first {α : Type} (amount : Amount) (xs : List α) : List α :=
    if amount.sign == some '-' then xs.take (xs.length - amount.number) else xs.take amount.number
  partTool (fun amount bytes => (first amount (lines bytes)).flatten) first

def tail : Tool :=
  let last {α : Type} (amount : Amount) (xs : List α) : List α :=
    if amount.sign == some '+' then xs.drop (amount.number - 1)
    else xs.drop (xs.length - amount.number)
  partTool (fun amount bytes => (last amount (lines bytes)).flatten) last

/-- The number of words of some bytes; `within` tells whether those before end in one. -/
def countWords (within : Bool) : List UInt8 → Nat
  | [] => 0
  | b :: bs =>
    let isGap := b == 32 || (9 ≤ b && b ≤ 13)
    (if !isGap && !within then 1 else 0) + countWords (!isGap) bs

def wc : Tool :=
  withManual ⟨"lwcm", "", [("lines", 'l'), ("words", 'w'), ("bytes", 'c')], true⟩ 1 fun tool a => do
    let wanted := if a.options.isEmpty then ['l', 'w', 'c'] else ['l', 'w', 'm', 'c'].filter a.has
    let counts (bytes : List UInt8) : List Nat := wanted.map fun
      | 'l' => bytes.count 10
      | 'w' => countWords false bytes
      | 'm' => (Text.decode bytes).length
      | _ => bytes.length
    let operands := if a.operands.isEmpty then ["-"] else a.operands
    let mut rows : List (Option (List Nat) × String) := []
    let mut size := 0
    let mut status := 0
    for operand in operands do
      match ← contents operand with
      | .ok bytes =>
        rows := rows ++ [(some (counts bytes), if a.operands.isEmpty then "" else " " ++ operand)]
        size := size + bytes.length
      | .error why =>
        rows := rows ++ [(none, s!"{quoteIfNeeded operand}: {why.description}")]
        status := 1
    let width := if wanted.length == 1 && operands.length == 1 then 1
      else if operands.contains "-" then 7 else (toString size).length
    let row (ns : List Nat) (title : String) : String :=
      " ".intercalate (ns.map fun n => String.ofList
        (List.replicate (width - (toString n).length) ' ') ++ toString n) ++ title ++ "\n"
    for (found, title) in rows do
      match found with
      | some ns => Run.print (row ns title)
      | none => complain tool title
    if 1 < operands.length then
      let sums := (rows.filterMap Prod.fst).foldl (fun sums ns => List.zipWith (· + ·) sums ns)
        (wanted.map fun _ => 0)
      Run.print (row sums " total")
    return status

def tee : Tool := withManual ⟨"ai", "", [("append", 'a')], true⟩ 1 fun tool a => do
  let bytes := (← get).input
  modify fun s => { s with input := [] }
  let mut sinks : List Sink := []
  let mut status := 0
  for operand in a.operands do
    match ← Run.openFile operand (a.has 'a') with
    | .ok sink => sinks := sinks ++ [sink]
    | .error why =>
      complain tool s!"{quoteIfNeeded operand}: {why.description}"
      status := 1
  Run.write bytes
  for sink in sinks do Run.writeTo sink bytes
  return status

def seq : Tool :=
  withManual ⟨"w", "s", [("separator", 's'), ("equal-width", 'w')], false⟩ 1 fun tool a => do
    match a.operands.find? (·.toInt?.isNone), a.operands.map fun o => o.toInt?.getD 0 with
    | some bad, _ => misused tool s!"invalid floating point argument: {quote bad}" 1
    | none, [] => misused tool "missing operand" 1
    | none, [last] => count a 1 1 last
    | none, [first, last] => count a first 1 last
    | none, [first, step, last] =>
      if step = 0 then misused tool "invalid Zero increment value: '0'" 1
      else count a first step last
    | none, _ => do
      let extra := a.operands.getD 3 ""
      misused tool s!"extra operand {quote extra}" 1
where
  /-- Counts from `first` to `last`. -/
  count (a : Arguments) (first step last : Int) : Run Nat := do
    let numbers := (List.range ((last - first).fdiv step + 1).toNat).map fun i =>
      toString (first + step * Int.ofNat i)
    let width := if a.has 'w' then (numbers.map String.length).foldl max 0 else 0
    let padded := numbers.map fun n => String.ofList (List.replicate (width - n.length) '0') ++ n
    if !padded.isEmpty then
      Run.print (((a.value? 's').getD "\n").intercalate padded ++ "\n")
    return 0

def microseconds? (text : List Char) : Option Nat :=
  let whole := text.takeWhile (· != '.')
  let fraction := text.drop (whole.length + 1)
  let rest := fraction.take 6
  if (whole ++ rest).isEmpty || !(whole ++ fraction).all Char.isDigit then none
  else (String.ofList (whole ++ rest ++ List.replicate (6 - rest.length) '0')).toNat?

def duration? (operand : String) : Option Nat :=
  match operand.toList.reverse with
  | 's' :: cs => microseconds? cs.reverse
  | 'm' :: cs => (microseconds? cs.reverse).map (· * 60)
  | 'h' :: cs => (microseconds? cs.reverse).map (· * 3600)
  | 'd' :: cs => (microseconds? cs.reverse).map (· * 86400)
  | cs => microseconds? cs.reverse

/-- The words of a text, cut at blanks that are not quoted. `current` is the word that was begun,
and `mark` the quote that it is within. -/
def wordsOf (mark : Option Char) (current : Option (List Char)) : List Char → List String
  | [] => (current.map fun cs => String.ofList cs.reverse).toList
  | c :: cs =>
    match mark with
    | some q =>
      if c == q then wordsOf none (some (current.getD [])) cs
      else wordsOf mark (some (c :: current.getD [])) cs
    | none =>
      if c == '\'' || c == '"' then wordsOf (some c) (some (current.getD [])) cs
      else if isBlank c then
        (current.map fun cs => String.ofList cs.reverse).toList ++ wordsOf none none cs
      else wordsOf none (some (c :: current.getD [])) cs

/-- The words of a text as `env` cuts it, with the values of variables. `current` is the word that
was begun, `mark` the quote that it is within, and `name` what was read of a variable's name. -/
def splitWords (value : String → String) (mark : Option Char) (current : Option (List Char)) :
    (name : Option (List Char)) → List Char → List String
  | _, [] => (current.map fun cs => String.ofList cs.reverse).toList
  | some name, c :: cs =>
    if c == '\x7d' then
      let found := (value (String.ofList name.reverse)).toList.reverse
      splitWords value mark (some (found ++ current.getD [])) none cs
    else splitWords value mark current (some (c :: name)) cs
  | none, '$' :: '\x7b' :: cs =>
    if mark == some '\'' then
      splitWords value mark (some ('\x7b' :: '$' :: current.getD [])) none cs
    else splitWords value mark current (some []) cs
  | none, '\\' :: c :: cs =>
    if mark == some '\'' && c != '\\' && c != '\'' then
      splitWords value mark (some (c :: '\\' :: current.getD [])) none cs
    else if c == 'c' && mark.isNone then (current.map fun cs => String.ofList cs.reverse).toList
    else if c == '_' && mark.isNone then
      (current.map fun cs => String.ofList cs.reverse).toList ++
        splitWords value none none none cs
    else
      let escapes := [('f', '\x0c'), ('n', '\n'), ('r', '\r'), ('t', '\t'), ('v', '\x0b'),
        ('_', ' ')]
      splitWords value mark (some ((escapes.lookup c).getD c :: current.getD [])) none cs
  | none, c :: cs =>
    match mark with
    | some q =>
      if c == q then splitWords value none (some (current.getD [])) none cs
      else splitWords value mark (some (c :: current.getD [])) none cs
    | none =>
      if c == '\'' || c == '"' then splitWords value (some c) (some (current.getD [])) none cs
      else if c == '#' && current.isNone then []
      else if isBlank c || c == '\n' || c == '\r' || c == '\x0b' || c == '\x0c' then
        (current.map fun cs => String.ofList cs.reverse).toList ++
          splitWords value none none none cs
      else splitWords value none (some (c :: current.getD [])) none cs

def spreadWords (value : String → String) : List String → List String
  | [] => []
  | word :: words =>
    let cut (text : List Char) : List String := splitWords value none none none text
    match word.toList with
    | ['-', 'S'] => match words with
      | [] => [word]
      | text :: words => cut text.toList ++ words
    | '-' :: 'S' :: text => cut text ++ words
    | ['-'] | ['-', '-'] => word :: words
    | ['-', 'u'] | ['-', 'C'] => match words with
      | [] => [word]
      | value' :: words => word :: value' :: spreadWords value words
    | '-' :: rest =>
      if word.startsWith "--split-string=" then cut (rest.drop 14) ++ words
      else word :: spreadWords value words
    | _ => word :: words

def inGroups {α : Type} (n : Nat) (xs : List α) : List (List α) :=
  (List.range ((xs.length + n - 1) / n)).map fun i => (xs.drop (i * n)).take n

def sleep : Tool := withManual {} 1 fun tool a => do
  if a.operands.isEmpty then return ← misused tool "missing operand" 1
  let mut total := 0
  let mut status := 0
  for operand in a.operands do
    match duration? operand with
    | some d => total := total + d
    | none =>
      complain tool s!"invalid time interval {quote operand}"
      status := 1
  if status ≠ 0 then
    Run.complain s!"Try '{tool} --help' for more information."
    return status
  Run.waitUntil ((← get).time + total)
  return 0

def echo : Tool := fun _ words => do
  Run.write (Format.systemEcho words)
  return 0

def complaintText : Format.Complaint → String
  | .notNumber arg => s!"{quote arg}: expected a numeric value"
  | .notWholly arg => s!"{quote arg}: value not completely converted"
  | .directive spelled => s!"{spelled}: invalid conversion specification"
  | .unfinished => "%: invalid conversion specification"

def printf : Tool := fun tool words => do
  match if words.head? == some "--" then words.tail else words with
  | [] => misused tool "missing operand" 1
  | format :: args => do
    let outcome := Format.printf true format args
    for complaint in outcome.complaints do complain tool (complaintText complaint)
    Run.write outcome.written
    return min 1 outcome.status

def conditionStatus (tool : String) (words : List String) : Run Nat := do
  match Condition.holds (← get) words with
  | .ok holds => return if holds then 0 else 1
  | .error fault => do
    complain tool fault
    return 2

def test : Tool := conditionStatus

def bracket : Tool := fun tool words => do
  if words.getLast? == some "]" then conditionStatus tool words.dropLast
  else
    complain tool "missing ']'"
    return 2

def printenv : Tool := fun _ words => do
  let env := (← get).bindings
  let wanted := words.filter fun w => !w.startsWith "-"
  if wanted.isEmpty then
    Run.print (String.join (env.map fun v => s!"{v.1}={v.2}\n"))
    return 0
  forEach wanted fun name => do
    match env.lookup name with
    | some value => do
      Run.print (value ++ "\n")
      return 0
    | none => return 1

def statusOnly (status : Nat) : Tool := fun _ _ => return status

end BootImage.Shell.TextTools
