import BootImage.Files.Change
import BootImage.Shell.Tool
import BootImage.Shell.Variables

/-!
# Tools for files

The tools of the system that make, remove, list and move files and directories. Only what later
programs can see of files is kept: their content and whether they may be run.
-/

namespace BootImage.Shell.FileTools

open Tool

def setTree (tree : FileTree) : Run Unit := modify fun s => { s with tree }

/-- Complains about an operand for a reason that the system gives; the status is 1. -/
def refuse (tool doing operand : String) (why : Refusal) : Run Nat := do
  complain tool s!"{doing} {quote operand}: {why.description}"
  return 1

def mkdir : Tool :=
  withManual ⟨"pv", "m", [("parents", 'p'), ("mode", 'm')], true⟩ 1 fun tool a => do
    if a.operands.isEmpty then return ← misused tool "missing operand" 1
    forEach a.operands fun operand => do
      let s ← get
      let path := withoutSlashes operand
      if a.has 'p' && !path.isEmpty then
        let names := Path.steps path
        let (made, tree) :=
          FileTree.makeBelow (if path.startsWith "/" then [] else s.cwd) names s.tree
        setTree tree
        match made with
        | .ok _ => return 0
        | .error .notDirectory => do
          let above := (List.range names.length).map fun n =>
            (if path.startsWith "/" then "/" else "") ++ "/".intercalate (names.take (n + 1))
          let inTheWay := above.find? fun p =>
            !(tree.reach true s.cwd p).found?.any (· == .directory)
          refuse tool "cannot create directory" (inTheWay.getD operand) .notDirectory
        | .error why => refuse tool "cannot create directory" operand why
      else
        match s.tree.reach false s.cwd path with
        | .vacant l name => do
          setTree (s.tree.set (l ++ [name]) .directory)
          if a.has 'v' then Run.print s!"{tool}: created directory {quote operand}\n"
          return 0
        | .found .. => refuse tool "cannot create directory" operand .alreadyExists
        | .refused why => refuse tool "cannot create directory" operand why

def rmdir : Tool := withManual ⟨"pv", "", [("parents", 'p')], true⟩ 1 fun tool a => do
  if a.operands.isEmpty then return ← misused tool "missing operand" 1
  forEach a.operands fun operand => do
    let s ← get
    let refused := refuse tool "failed to remove" operand
    match s.tree.reach false s.cwd (withoutSlashes operand) with
    | .found l .directory =>
      if (s.tree.children l).isEmpty then
        setTree (s.tree.erase l)
        return 0
      else refused .notEmpty
    | .found .. => refused .notDirectory
    | .vacant .. => refused .notFound
    | .refused why => refused why

def touch : Tool :=
  withManual ⟨"acmf", "rtd", [("no-create", 'c')], true⟩ 1 fun tool a => do
    if a.operands.isEmpty then return ← misused tool "missing file operand" 1
    forEach a.operands fun operand => do
      let s ← get
      match s.tree.reach true s.cwd operand with
      | .found .. => return 0
      | .vacant l name => do
        if !a.has 'c' then setTree (s.tree.set (l ++ [name]) (.file [] false))
        return 0
      | .refused why => refuse tool "cannot touch" operand why

def rm : Tool :=
  withManual ⟨"rRfvid", "", [("recursive", 'r'), ("force", 'f')], true⟩ 1 fun tool a => do
    let force := a.has 'f'
    if a.operands.isEmpty then
      return ← if force then pure 0 else misused tool "missing operand" 1
    forEach a.operands fun operand => do
      let s ← get
      let removed (l : Location) : Run Nat := do
        setTree (s.tree.erase l)
        if a.has 'v' then Run.print s!"removed {quote operand}\n"
        return 0
      let refused (why : Refusal) : Run Nat :=
        if force && (why == .notFound || why == .notDirectory) then return 0
        else refuse tool "cannot remove" operand why
      let last := lastName operand
      let whole := a.has 'r' || a.has 'R'
      if whole && (last == "." || last == "..") then
        complain tool
          s!"refusing to remove '.' or '..' directory: skipping {quote (withoutSlashes operand)}"
        return 1
      match s.tree.reach false s.cwd operand with
      | .found l .directory =>
        if whole then removed l
        else if a.has 'd' && (s.tree.children l).isEmpty then removed l
        else refused .isDirectory
      | .found l _ => removed l
      | .vacant .. => refused .notFound
      | .refused why => refused why

def namesIn (t : FileTree) (l : Location) (a : Arguments) : List (String × Entry) :=
  let dots : List (String × Entry) :=
    if a.has 'a' then [(".", .directory), ("..", .directory)] else []
  let found := (t.children l).filter fun e => a.has 'a' || a.has 'A' || !e.1.startsWith "."
  let sorted := (dots ++ found).mergeSort fun x y => !(y.1 < x.1)
  if a.has 'r' then sorted.reverse else sorted

def listed (a : Arguments) : String × Entry → String
  | (name, .directory) => if a.has 'p' || a.has 'F' then name ++ "/" else name
  | (name, .link _) => if a.has 'F' then name ++ "@" else name
  | (name, .program _) | (name, .file _ true) => if a.has 'F' then name ++ "*" else name
  | (name, .file _ false) => name

/-- The directories to list below one, each with the path that leads there; at most `n` deep. -/
def withInner (t : FileTree) (a : Arguments) : Nat → String × Location → List (String × Location)
  | 0, d => [d]
  | n + 1, d =>
    d :: if !a.has 'R' then [] else
      ((namesIn t d.2 a).filter fun e =>
        e.2 == .directory && e.1 != "." && e.1 != "..").flatMap fun e =>
          withInner t a n (withoutSlashes d.1 ++ "/" ++ e.1, d.2 ++ [e.1])

def ls : Tool := withManual ⟨"aAdpF1rR", "", [("all", 'a'), ("almost-all", 'A'), ("directory", 'd'),
    ("reverse", 'r'), ("recursive", 'R')], true⟩ 2 fun tool a => do
  let s ← get
  let operands := if a.operands.isEmpty then ["."] else a.operands
  let reached : List (String × Reach) := operands.map fun operand =>
    (operand, match s.tree.reach true s.cwd operand with
      | .found l e => Reach.found l e
      | _ => s.tree.reach false s.cwd operand)
  let mut status := 0
  for (operand, r) in reached do
    match r with
    | .found .. => pure ()
    | .vacant .. => status := max 2 (← refuse tool "cannot access" operand .notFound)
    | .refused why => status := max 2 (← refuse tool "cannot access" operand why)
  let sorted := reached.mergeSort fun x y => !(y.1 < x.1)
  let sorted := if a.has 'r' then sorted.reverse else sorted
  let files := sorted.filterMap fun
    | (operand, .found _ e) =>
      if e == .directory && !a.has 'd' then none else some (listed a (operand, e))
    | _ => none
  let dirs := sorted.flatMap fun
    | (operand, .found l .directory) =>
      if a.has 'd' then [] else withInner s.tree a s.tree.entries.length (operand, l)
    | _ => []
  let titled := 1 < operands.length || a.has 'R'
  let blocks := (if files.isEmpty then [] else ["\n".intercalate files ++ "\n"]) ++
    dirs.map fun (path, l) =>
      (if titled then path ++ ":\n" else "") ++
        String.join ((namesIn s.tree l a).map fun e => listed a e ++ "\n")
  Run.print ("\n".intercalate blocks)
  return status

/-- Where something is put that goes to `target`: into it, if it is a directory, and otherwise in
its place. -/
def placeFor (t : FileTree) (cwd : Location) (source target : String) : String × Reach :=
  match t.reach true cwd target with
  | .found l .directory =>
    let path := withoutSlashes target ++ "/" ++ lastName source
    (path, t.reach false l (lastName source))
  | _ => (target, t.reach false cwd target)

def ln : Tool :=
  withManual ⟨"sfnT", "", [("symbolic", 's'), ("force", 'f')], true⟩ 1 fun tool a => do
    match a.operands with
    | [] => misused tool "missing file operand" 1
    | [target] => link tool a target "."
    | [target, place] => link tool a target place
    | operands => forEach operands.dropLast fun target => link tool a target (operands.getLastD ".")
where
  /-- Makes one link. -/
  link (tool : String) (a : Arguments) (target place : String) : Run Nat := do
    let s ← get
    let (path, reached) := if a.has 'n' || a.has 'T' then (place, s.tree.reach false s.cwd place)
      else placeFor s.tree s.cwd target place
    let entry ← if a.has 's' then pure (some (Entry.link target)) else
      match s.tree.reach true s.cwd target with
      | .found _ .directory => do
        complain tool s!"{quoteIfNeeded target}: hard link not allowed for directory"
        pure none
      | .found _ e => pure (some e)
      | .vacant .. => do
        let _ ← refuse tool "failed to access" target .notFound
        pure none
      | .refused why => do
        let _ ← refuse tool "failed to access" target why
        pure none
    let kind := if a.has 's' then "failed to create symbolic link" else "failed to create hard link"
    match entry, reached with
    | none, _ => return 1
    | some e, .vacant l name => do
      setTree (s.tree.set (l ++ [name]) e)
      return 0
    | some e, .found l old =>
      if a.has 'f' && old != .directory then
        setTree (s.tree.set l e)
        return 0
      else refuse tool kind path .alreadyExists
    | some _, .refused why => refuse tool kind path why

def transfer (tool : String) (operands : List String)
    (one : (source : String) → Location → Entry → (path : String) → Reach → Run Nat) : Run Nat := do
  match operands.getLast?, operands.dropLast with
  | none, _ => misused tool "missing file operand" 1
  | some source, [] => misused tool s!"missing destination file operand after {quote source}" 1
  | some target, sources =>
    let s ← get
    if 1 < sources.length then
      match (s.tree.reach true s.cwd target).directory with
      | .ok _ => pure ()
      | .error why => do
        complain tool s!"target {quote target}: {why.description}"
        return 1
    forEach sources fun source => do
      let s ← get
      match s.tree.reach false s.cwd source with
      | .found l e =>
        let (path, reached) := placeFor s.tree s.cwd source target
        one source l e path reached
      | .vacant .. => refuse tool "cannot stat" source .notFound
      | .refused why => refuse tool "cannot stat" source why

def mv : Tool := withManual ⟨"fnvT", "", [("force", 'f')], true⟩ 1 fun tool a =>
  transfer tool a.operands fun source l e path reached => do
    let s ← get
    let moved (l' : Location) : Run Nat := do
      if l.isPrefixOf l' then
        complain tool
          s!"cannot move {quote source} to a subdirectory of itself, {quote path}"
        return 1
      setTree (s.tree.move l l')
      return 0
    match reached with
    | .vacant base name => moved (base ++ [name])
    | .found l' old =>
      if l = l' then
        complain tool s!"{quote source} and {quote path} are the same file"
        return 1
      else if e == .directory && old != .directory then
        complain tool s!"cannot overwrite non-directory {quote path} with directory {quote source}"
        return 1
      else moved l'
    | .refused why => do
      complain tool s!"cannot move {quote source} to {quote path}: {why.description}"
      return 1

def cp : Tool :=
  withManual ⟨"rRfapvT", "", [("recursive", 'r'), ("force", 'f')], true⟩ 1 fun tool a =>
    transfer tool a.operands fun source l e path reached => do
      let s ← get
      let whole := a.has 'r' || a.has 'R' || a.has 'a'
      let entry := match e with
        | .link _ => if whole then e else ((s.tree.reach true s.cwd source).found?).getD e
        | e => e
      if e == .directory && !whole then
        complain tool s!"-r not specified; omitting directory {quote source}"
        return 1
      let copied (l' : Location) : Run Nat := do
        let inner := if e == .directory then
            s.tree.entries.filter fun x => l.isPrefixOf x.1 && x.1 != l
          else []
        setTree (inner.foldl (fun t x => t.set (l' ++ x.1.drop l.length) x.2) (s.tree.set l' entry))
        return 0
      match reached with
      | .vacant base name => copied (base ++ [name])
      | .found l' old =>
        if l = l' then
          complain tool s!"{quote source} and {quote path} are the same file"
          return 1
        else match e, old with
          | .directory, .directory => copied l'
          | .directory, _ => do
            complain tool
              s!"cannot overwrite non-directory {quote path} with directory {quote source}"
            return 1
          | _, .link _ => match s.tree.reach true s.cwd path with
            | .found l' _ => copied l'
            | .vacant base name => copied (base ++ [name])
            | .refused why => refuse tool "cannot create regular file" path why
          | _, _ => copied l'
      | .refused why => refuse tool "cannot create regular file" path why

/-- Whether files may be run after their mode is set; `none` if the mode is none. -/
def modeChange? (mode : String) : Option (Option Bool) :=
  let cs := mode.toList
  if !cs.isEmpty && cs.all Format.isOctal then
    if cs.length ≤ 4 then
      some (some (((cs.reverse.take 3).map fun c => (c.toNat - 48) % 2).contains 1))
    else none
  else ((Text.pieces ',' cs).mapM clause).map fun changes => changes.reduceOption.getLast?
where
  /-- What one clause changes. -/
  clause (cs : List Char) : Option (Option Bool) :=
    let rest := cs.dropWhile "ugoa".toList.contains
    match rest with
    | sign :: what =>
      if !"+-=".toList.contains sign || !what.all "rwxXst".toList.contains then none
      else if sign == '=' then some (some (what.contains 'x'))
      else some (if what.contains 'x' then some (sign == '+') else none)
    | [] => none

def chmod : Tool := fun tool words => do
  let recursive := words.contains "-R"
  match words.filter (· != "-R") with
  | [] => misused tool "missing operand" 1
  | [mode] => misused tool s!"missing operand after {quote mode}" 1
  | mode :: operands =>
    match modeChange? mode with
    | none => misused tool s!"invalid mode: {quote mode}" 1
    | some change => forEach operands fun operand => do
      let s ← get
      match s.tree.reach true s.cwd operand with
      | .found l _ => do
        let concerned (x : Location) : Bool := x == l || recursive && l.isPrefixOf x
        let changed : Entry → Entry
          | .file content executable => .file content (change.getD executable)
          | e => e
        let entries := s.tree.entries.map fun x =>
          if concerned x.1 then (x.1, changed x.2) else x
        setTree { s.tree with entries }
        return 0
      | .vacant .. => refuse tool "cannot access" operand .notFound
      | .refused why => refuse tool "cannot access" operand why

/-- The real path that a path leads to. Unless `mustExist` its last name may be missing. -/
def realPath? (s : State) (mustExist : Bool) (path : String) : Except Refusal String :=
  match s.tree.reach true s.cwd path with
  | .found l _ => .ok l.path
  | .vacant l name => if mustExist then .error .notFound else .ok (l ++ [name]).path
  | .refused why => .error why

def readlink : Tool := withManual ⟨"fenm", "", [("canonicalize", 'f')], true⟩ 1 fun tool a => do
  if a.operands.isEmpty then return ← misused tool "missing operand" 1
  forEach a.operands fun operand => do
    let s ← get
    let text := if a.has 'f' || a.has 'e' then (realPath? s (a.has 'e') operand).toOption
      else match s.tree.reach false s.cwd operand with
        | .found _ (.link target) => some target
        | _ => none
    match text with
    | some text => do
      Run.print (if a.has 'n' then text else text ++ "\n")
      return 0
    | none => return 1

def realpath : Tool := withManual ⟨"em", "", [], true⟩ 1 fun tool a => do
  if a.operands.isEmpty then return ← misused tool "missing operand" 1
  forEach a.operands fun operand => do
    match realPath? (← get) (a.has 'e') operand with
    | .ok path => do
      Run.print (path ++ "\n")
      return 0
    | .error why => do
      complain tool s!"{quoteIfNeeded operand}: {why.description}"
      return 1

def basename : Tool :=
  withManual ⟨"a", "s", [("multiple", 'a'), ("suffix", 's')], false⟩ 1 fun tool a => do
    let stem (suffix path : String) : String :=
      let name := lastName path
      if name.endsWith suffix && name != suffix then
        String.ofList (name.toList.take (name.length - suffix.length))
      else name
    let many := a.has 'a' || a.has 's'
    match a.operands with
    | [] => misused tool "missing operand" 1
    | path :: rest =>
      if many then
        let suffix := (a.value? 's').getD ""
        Run.print (String.join ((path :: rest).map fun p => stem suffix p ++ "\n"))
        return 0
      else match rest with
        | [] => do
          Run.print (lastName path ++ "\n")
          return 0
        | [suffix] => do
          Run.print (stem suffix path ++ "\n")
          return 0
        | _ :: extra :: _ => misused tool s!"extra operand {quote extra}" 1

def size? (text : String) : Option Nat :=
  let digits := text.toList.takeWhile Char.isDigit
  let unit := [("", 1), ("c", 1), ("K", 1024), ("k", 1024), ("M", 1048576), ("G", 1073741824),
    ("KB", 1000), ("MB", 1000000)].lookup (String.ofList (text.toList.drop digits.length))
  return (← (String.ofList digits).toNat?) * (← unit)

/-- Bytes cut or filled up with zeros to a length. Not more than `Run.mostZeros` are filled in. -/
def withLength (n : Nat) (bytes : List UInt8) : List UInt8 :=
  bytes.take n ++ List.replicate (min Run.mostZeros (n - bytes.length)) 0

def truncate : Tool :=
  withManual ⟨"co", "sr", [("size", 's'), ("no-create", 'c')], true⟩ 1 fun tool a => do
    match a.value? 's', (a.value? 's').bind size? with
    | none, _ => misused tool "you must specify either '--size' or '--reference'" 1
    | some text, none => do
      complain tool s!"Invalid number: {quote text}"
      return 1
    | some _, some n => do
      if a.operands.isEmpty then return ← misused tool "missing file operand" 1
      forEach a.operands fun operand => do
        let before := match ((← get).tree.reach true (← get).cwd operand).found? with
          | some (.file content _) => content
          | _ => []
        match ← Run.openFile operand false with
        | .ok sink => do
          Run.writeTo sink (withLength n before)
          return 0
        | .error why => do
          complain tool s!"cannot open {quote operand} for writing: {why.description}"
          return 1

def dd : Tool := fun tool words => do
  let settings := words.map Variables.cutAssignment
  let value? (name : String) : Option String := (settings.lookup name).join
  let size := ((value? "bs").bind size?).getD 512
  let opened ← match value? "if" with
    | some path => Run.readFile path
    | none => do
      let s ← get
      set { s with input := [] }
      pure (.ok s.input)
  let refused (path : String) (why : Refusal) : Run Nat := do
    complain tool s!"failed to open {quote path}: {why.description}"
    return 1
  match opened with
  | .error why => refused ((value? "if").getD "") why
  | .ok content => do
    let bytes := match (value? "count").bind size? with
      | some n => content.take (n * size)
      | none => content
    let told : Run Nat := do
      if value? "status" != some "none" then
        let records := s!"{bytes.length / size}+{if bytes.length % size = 0 then 0 else 1} records"
        Run.complain s!"{records} in"
        Run.complain s!"{records} out"
        if value? "status" != some "noxfer" then
          Run.complain s!"{bytes.length} bytes copied, 0 s, 0.0 kB/s"
      return 0
    match value? "of" with
    | none => do
      Run.write bytes
      told
    | some path =>
      match ← Run.openFile path false with
      | .ok sink => do
        Run.writeTo sink bytes
        told
      | .error why => refused path why

def dirname : Tool := withManual {} 1 fun tool a => do
  if a.operands.isEmpty then return ← misused tool "missing operand" 1
  Run.print (String.join (a.operands.map fun p => parentPath p ++ "\n"))
  return 0

def pwd : Tool := withManual ⟨"LP", "", [], true⟩ 1 fun _ a => do
  let s ← get
  let claimed := Run.variableOr s "PWD"
  let isHere := claimed.startsWith "/" &&
    (s.tree.reach true [] claimed).directory.toOption == some s.cwd
  Run.print ((if a.has 'L' && isHere then claimed else s.cwd.path) ++ "\n")
  return 0

end BootImage.Shell.FileTools
