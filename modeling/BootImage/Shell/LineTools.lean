import BootImage.Shell.Regex
import BootImage.Shell.TextTools

/-!
# Tools for lines

The tools of the system that sort, cut and change lines and search them. They know nothing of
characters of several bytes: each byte counts as a character of its own.
-/

namespace BootImage.Shell.LineTools

open Tool

def chars (bytes : List UInt8) : List Char := bytes.map fun b => Char.ofNat b.toNat

def bytes (cs : List Char) : List UInt8 := cs.map fun c => UInt8.ofNat c.toNat

def charsOf (word : String) : List Char := chars (Text.encode word)

def lines (content : List UInt8) : List (List Char) :=
  (TextTools.lines content).map fun l => chars (l.filter (· != 10))

def writeLine (line : List Char) : Run Unit := Run.write (bytes line ++ [10])

/-- The content of each operand, or of the input if there is none. `refuse` tells why one cannot be
read; the second result is the worst of its statuses. -/
def contents (operands : List String) (refuse : String → Refusal → Run Nat) :
    Run (List (String × List UInt8) × Nat) := do
  let mut found : List (String × List UInt8) := []
  let mut status := 0
  for operand in if operands.isEmpty then ["-"] else operands do
    match ← TextTools.contents operand with
    | .ok content => found := found ++ [(operand, content)]
    | .error why => status := max status (← refuse operand why)
  return (found, status)

def refuseOperand (tool : String) (status : Nat) (operand : String) (why : Refusal) : Run Nat := do
  complain tool s!"{quoteIfNeeded operand}: {why.description}"
  return status

/-! ## Sorting -/

structure SortKey where
  first : Nat
  last : Option Nat
  flags : List Char

def SortKey.ofText? (text : String) : Option SortKey :=
  let number (cs : List Char) : Nat × List Char :=
    let ds := cs.takeWhile Char.isDigit
    ((String.ofList ds).toNat?.getD 0, (cs.drop ds.length).dropWhile fun c => c == '.' || c.isDigit)
  let (first, rest) := number text.toList
  let flags := rest.takeWhile Char.isAlpha
  match rest.drop flags.length with
  | _ :: rest =>
    let (last, rest) := number rest
    if first = 0 then none else some ⟨first, some last, flags ++ rest⟩
  | [] => if first = 0 then none else some ⟨first, none, flags⟩

def blankFields : Nat → List Char → List (List Char)
  | 0, _ => []
  | n + 1, cs =>
    let gap := cs.takeWhile isBlank
    let field := (cs.drop gap.length).takeWhile fun c => !isBlank c
    if cs.isEmpty then [] else (gap ++ field) :: blankFields n (cs.drop (gap ++ field).length)

def SortKey.part (key : SortKey) (separator : Option Char) (line : List Char) : List Char :=
  let (fields, glue) := match separator with
    | some c => (Text.pieces c line, [c])
    | none => (blankFields (line.length + 1) line, [])
  let fields := match key.last with
    | some last => fields.take last
    | none => fields
  glue.intercalate (fields.drop (key.first - 1))

def millionths (line : List Char) : Int :=
  let cs := line.dropWhile isBlank
  let (negative, cs) := match cs with
    | '-' :: cs => (true, cs)
    | cs => (false, cs)
  let whole := cs.takeWhile Char.isDigit
  let fraction := match cs.drop whole.length with
    | '.' :: rest => (rest.takeWhile Char.isDigit).take 6
    | _ => []
  let digits := whole ++ fraction ++ List.replicate (6 - fraction.length) '0'
  let n : Int := Int.ofNat ((String.ofList digits).toNat?.getD 0)
  if negative then -n else n

def compareBy (flags : List Char) (a b : List Char) : Ordering :=
  let cut (cs : List Char) : List Char := if flags.contains 'b' then cs.dropWhile isBlank else cs
  let fold (cs : List Char) : List Char := if flags.contains 'f' then cs.map Char.toUpper else cs
  let order := if flags.contains 'n' then compare (millionths a) (millionths b)
    else compare (String.ofList (fold (cut a))) (String.ofList (fold (cut b)))
  if flags.contains 'r' then order.swap else order

/-- How two lines compare by keys; those without options of their own have the common ones. -/
def compareByKeys (separator : Option Char) (common : List Char) (keys : List SortKey)
    (a b : List Char) : Ordering :=
  if keys.isEmpty then compareBy common a b
  else keys.foldl (fun order key =>
    order.then (compareBy (if key.flags.isEmpty then common else key.flags)
      (key.part separator a) (key.part separator b))) .eq

def withoutRepeats (same : List Char → List Char → Bool) : List (List Char) → List (List Char)
  | a :: b :: rest =>
    if same a b then match withoutRepeats same (b :: rest) with
      | _ :: rest => a :: rest
      | [] => [a]
    else a :: withoutRepeats same (b :: rest)
  | ls => ls

def sort : Tool := withManual ⟨"rnubfs", "kto", [("reverse", 'r'), ("numeric-sort", 'n'),
    ("unique", 'u'), ("ignore-case", 'f'), ("stable", 's'), ("key", 'k'), ("output", 'o')], true⟩ 2
    fun tool a => do
  let (found, status) ← contents a.operands fun operand why => do
    complain tool s!"cannot read: {quoteIfNeeded operand}: {why.description}"
    return 2
  if status ≠ 0 then return status
  let common := ['r', 'n', 'b', 'f'].filter a.has
  let keys := (a.options.filter (·.1 == 'k')).filterMap fun o => SortKey.ofText? o.2
  let separator := (a.value? 't').bind (·.toList.head?)
  let byKeys := compareByKeys separator common keys
  let whole := compareBy (if a.has 'r' then ['r'] else [])
  let le (x y : List Char) : Bool :=
    (if a.has 'u' || a.has 's' then byKeys x y else (byKeys x y).then (whole x y)) != .gt
  let sorted := (found.flatMap fun f => lines f.2).mergeSort le
  let sorted := if a.has 'u' then withoutRepeats (fun x y => byKeys x y == .eq) sorted else sorted
  let text := sorted.flatMap fun l => bytes l ++ [10]
  match a.value? 'o' with
  | none => do
    Run.write text
    return 0
  | some path =>
    match ← Run.openFile path false with
    | .ok sink => do
      Run.writeTo sink text
      return 0
    | .error why => do
      complain tool s!"open failed: {quoteIfNeeded path}: {why.description}"
      return 2

def counted (same : List Char → List Char → Bool) : List (List Char) → List (Nat × List Char)
  | [] => []
  | l :: ls => match counted same ls with
    | (n, next) :: rest => if same l next then (n + 1, l) :: rest else (1, l) :: (n, next) :: rest
    | [] => [(1, l)]

def uniq : Tool := withManual ⟨"cdui", "", [("count", 'c'), ("repeated", 'd'), ("unique", 'u'),
    ("ignore-case", 'i')], true⟩ 1 fun tool a => do
  let (found, status) ← contents (a.operands.take 1) (refuseOperand tool 1)
  let same (x y : List Char) : Bool :=
    if a.has 'i' then x.map Char.toLower == y.map Char.toLower else x == y
  for (n, l) in counted same (found.flatMap fun f => lines f.2) do
    if (a.has 'd' && n = 1) || (a.has 'u' && 1 < n) then continue
    let count := toString n
    let start := if a.has 'c'
      then List.replicate (7 - count.length) ' ' ++ count.toList ++ [' '] else []
    writeLine (start ++ l)
  return status

/-! ## Cutting -/

structure Places where
  first : Nat
  last : Option Nat

def Places.ofText? (text : String) : Option (List Places) :=
  (text.splitOn ",").mapM fun item => do
    let number (s : String) : Option Nat := (Variables.natural? s).filter (· ≠ 0)
    match item.splitOn "-" with
    | [a] => return ⟨← number a, some (← number a)⟩
    | [a, b] =>
      if a.isEmpty && b.isEmpty then none
      else return ⟨← if a.isEmpty then some 1 else number a,
        ← if b.isEmpty then some none else (number b).map some⟩
    | _ => none

def pick {α : Type} (places : List Places) (xs : List α) : List α :=
  (xs.zipIdx.filter fun x => places.any fun p =>
    p.first ≤ x.2 + 1 && p.last.all (x.2 + 1 ≤ ·)).map Prod.fst

def cut : Tool :=
  withManual ⟨"sn", "dfcb", [("delimiter", 'd'), ("fields", 'f'), ("characters", 'c'),
      ("bytes", 'b'), ("only-delimited", 's')], true⟩ 1 fun tool a => do
    let chosen := (a.value? 'f').or ((a.value? 'c').or (a.value? 'b'))
    match chosen, chosen.bind Places.ofText? with
    | none, _ => misused tool "you must specify a list of bytes, characters, or fields" 1
    | some _, none => misused tool (if a.has 'f' then "invalid field range"
        else "invalid byte or character range") 1
    | some _, some places => do
      let separator := ((a.value? 'd').bind (·.toList.head?)).getD '\t'
      let (found, status) ← contents a.operands (refuseOperand tool 1)
      for l in found.flatMap fun f => lines f.2 do
        if !a.has 'f' then writeLine (pick places l)
        else if l.contains separator then
          writeLine ([separator].intercalate (pick places (Text.pieces separator l)))
        else if !a.has 's' then writeLine l
      return status

/-! ## Changing characters -/

def unescaped : List Char → List Mark
  | '\\' :: a :: b :: c :: cs =>
    if ('0' ≤ a && a ≤ '3') && ('0' ≤ b && b ≤ '7') && ('0' ≤ c && c ≤ '7') then
      (Char.ofNat ((a.toNat - 48) * 64 + (b.toNat - 48) * 8 + (c.toNat - 48)), true) :: unescaped cs
    else (escape a, true) :: unescaped (b :: c :: cs)
  | '\\' :: a :: cs => (escape a, true) :: unescaped cs
  | c :: cs => (c, false) :: unescaped cs
  | [] => []
where
  /-- What a character stands for after a backslash. -/
  escape : Char → Char
    | 'n' => '\n'
    | 't' => '\t'
    | 'r' => '\r'
    | 'a' => '\x07'
    | 'b' => '\x08'
    | 'f' => '\x0c'
    | 'v' => '\x0b'
    | '0' => '\x00'
    | c => c

def everyChar : List Char := (List.range 256).map Char.ofNat

/-- The characters that a set lists; at most `n` of its parts are read. -/
def listed : Nat → List Mark → List Char
  | 0, _ => []
  | n + 1, ms => match ms with
    | ('[', false) :: (':', false) :: rest => match Charset.class? rest with
      | some (item, rest) => everyChar.filter item.has ++ listed n rest
      | none => '[' :: listed n ((':', false) :: rest)
    | (a, _) :: ('-', false) :: (b, _) :: rest =>
      everyChar.filter (fun c => a ≤ c && c ≤ b) ++ listed n rest
    | (a, _) :: rest => a :: listed n rest
    | [] => []

def setOf (word : String) : List Char :=
  let ms := unescaped (charsOf word)
  listed (ms.length + 1) ms

def squeezed (set : List Char) : List Char → List Char
  | a :: b :: cs => if a == b && set.contains a then squeezed set (b :: cs)
    else a :: squeezed set (b :: cs)
  | cs => cs

def tr : Tool := withManual ⟨"dscC", "", [("delete", 'd'), ("squeeze-repeats", 's'),
    ("complement", 'c')], false⟩ 1 fun tool a => do
  let first (word : String) : List Char :=
    let set := setOf word
    if a.has 'c' || a.has 'C' then everyChar.filter fun c => !set.contains c else set
  let change (act : List Char → List Char) : Run Nat := do
    let content := (← get).input
    modify fun s => { s with input := [] }
    Run.write (bytes (act (chars content)))
    return 0
  let lacking (word : String) (doing : String) : Run Nat := do
    complain tool s!"missing operand after {quote word}"
    Run.complain s!"Two strings must be given when {doing}."
    Run.complain s!"Try '{tool} --help' for more information."
    return 1
  match a.operands with
  | [] => misused tool "missing operand" 1
  | [set] =>
    let chosen := first set
    if a.has 'd' && a.has 's' then lacking set "both deleting and squeezing repeats"
    else if a.has 'd' then change (·.filter fun c => !chosen.contains c)
    else if a.has 's' then change (squeezed chosen)
    else lacking set "translating"
  | [given, wanted] =>
    let source := first given
    let target := setOf wanted
    if a.has 'd' && a.has 's' then
      change fun cs => squeezed target (cs.filter fun c => !source.contains c)
    else if a.has 'd' then do
      complain tool s!"extra operand {quote wanted}"
      Run.complain "Only one string may be given when deleting without squeezing repeats."
      Run.complain s!"Try '{tool} --help' for more information."
      return 1
    else
      let map (c : Char) : Char := match source.reverse.idxOf? c with
        | some i => (target[source.length - 1 - i]?).getD (target.getLastD c)
        | none => c
      change fun cs => if a.has 's' then squeezed target (cs.map map) else cs.map map
  | _ :: _ :: extra :: _ => misused tool s!"extra operand {quote extra}" 1

/-! ## Searching -/

def pattern (a : Arguments) (text : List Char) : Except String Regex := do
  let r ← if a.has 'F' then pure (Regex.ofText text) else Regex.ofPattern (a.has 'E') text
  return if a.has 'i' || a.has 'y' then r.ignoringCase else r

/-- The first match of one of some expressions that may stand alone in a line, after what is before,
written backwards. With `-w` no character of a word may be next to it. -/
def firstMatch? (a : Arguments) (rs : List Regex) (before cs : List Char) : Option Regex.Match :=
  let isAlone (m : Regex.Match) : Bool :=
    (!a.has 'x' || (m.before.isEmpty && m.after.isEmpty)) &&
      (!a.has 'w' || !(m.before.getLast?.any Regex.isWord || m.after.head?.any Regex.isWord))
  match (rs.filterMap fun r => r.matchAt? ⟨before, cs, []⟩).filter isAlone, cs with
  | m :: ms, _ => some (ms.foldl (fun best m =>
      if best.text.length < m.text.length then m else best) m)
  | [], [] => none
  | [], c :: cs => firstMatch? a rs (c :: before) cs

/-- All matches in a line that are not empty; at most `n`. -/
def matchesIn (a : Arguments) (rs : List Regex) : Nat → List Char → List Char → List (List Char)
  | 0, _, _ => []
  | n + 1, before, cs => match firstMatch? a rs before cs with
    | none => []
    | some m => match m.text, m.after with
      | [], [] => []
      | [], c :: after => matchesIn a rs n (c :: m.before.reverse) after
      | text, after => text :: matchesIn a rs n (text.reverse ++ m.before.reverse) after

def grep : Tool := withManual ⟨"qvcinlLFEGoxwshHyI", "em", [("quiet", 'q'), ("invert-match", 'v'),
    ("count", 'c'), ("ignore-case", 'i'), ("line-number", 'n'), ("fixed-strings", 'F'),
    ("extended-regexp", 'E'), ("only-matching", 'o'), ("files-with-matches", 'l'),
    ("regexp", 'e'), ("max-count", 'm')], true⟩ 2 fun tool a => do
  let given := (a.options.filter (·.1 == 'e')).map Prod.snd
  let (given, operands) := if given.isEmpty then (a.operands.take 1, a.operands.drop 1)
    else (given, a.operands)
  if given.isEmpty then
    Run.complain s!"Usage: {tool} [OPTION]... PATTERNS [FILE]..."
    Run.complain s!"Try '{tool} --help' for more information."
    return 2
  match (given.flatMap fun text => Text.pieces '\n' (charsOf text)).mapM (pattern a) with
  | .error fault => do
    complain tool fault
    return 2
  | .ok rs => do
    let (found, failed) ← contents operands fun operand why => do
      if !a.has 's' then complain tool s!"{operand}: {why.description}"
      return 2
    let titled := (1 < operands.length || a.has 'H') && !a.has 'h'
    let most := ((a.value? 'm').bind Variables.natural?)
    let mut matched := false
    for (operand, content) in found do
      let operand := if operand == "-" then "(standard input)" else operand
      let title := if titled then charsOf operand ++ [':'] else []
      let isChosen (l : List Char) : Bool := (firstMatch? a rs [] l).isSome != a.has 'v'
      let chosen := (lines content).zipIdx.filter fun l => isChosen l.1
      let chosen := match most with
        | some n => chosen.take n
        | none => chosen
      if !chosen.isEmpty then matched := true
      if a.has 'q' then continue
      if a.has 'l' || a.has 'L' then
        if chosen.isEmpty == a.has 'L' then writeLine (charsOf operand)
      else if a.has 'c' then writeLine (title ++ (toString chosen.length).toList)
      else for (l, i) in chosen do
        let start := title ++ if a.has 'n' then (toString (i + 1)).toList ++ [':'] else []
        if a.has 'o' then
          for text in matchesIn a rs (l.length + 2) [] l do writeLine (start ++ text)
        else writeLine (start ++ l)
    if a.has 'q' && matched then return 0
    return if failed ≠ 0 then failed else if matched then 0 else 1

end BootImage.Shell.LineTools
