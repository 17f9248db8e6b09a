import BootImage.Text.Utf8

/-!
# Formatted output

What `echo` and `printf` write. Both give bytes, since an escape may write a byte that is no
character on its own. `printf` uses its format again as long as it takes up arguments; a directive
without an argument takes an empty one, and an argument that is no number is complained about.
-/

namespace BootImage.Shell.Format

def isOctal (c : Char) : Bool := '0' ≤ c && c ≤ '7'

def hex? (c : Char) : Option Nat :=
  if c.isDigit then some (c.toNat - 48)
  else if 'a' ≤ c ∧ c ≤ 'f' then some (c.toNat - 87)
  else if 'A' ≤ c ∧ c ≤ 'F' then some (c.toNat - 55)
  else none

def octal : Nat → Nat → List Char → Nat × List Char
  | n + 1, value, c :: cs =>
    if isOctal c then octal n (value * 8 + (c.toNat - 48)) cs else (value, c :: cs)
  | _, value, cs => (value, cs)

def letterEscape? : Char → Option UInt8
  | 'a' => some 7
  | 'b' => some 8
  | 'f' => some 12
  | 'n' => some 10
  | 'r' => some 13
  | 't' => some 9
  | 'v' => some 11
  | '\\' => some 92
  | _ => none

/-- The byte of the escape whose characters after the backslash are at the front, and what follows
it. A backslash that begins no escape is a byte by itself. With `extended` there are escapes for the
escape character and for hexadecimal digits. -/
def escape (extended : Bool) (cs : List Char) : UInt8 × List Char :=
  match extended, cs with
  | true, 'e' :: cs => (27, cs)
  | true, 'x' :: a :: cs =>
    match hex? a with
    | none => (92, 'x' :: a :: cs)
    | some x => match cs with
      | b :: rest => match hex? b with
        | some y => (UInt8.ofNat (x * 16 + y), rest)
        | none => (UInt8.ofNat x, cs)
      | [] => (UInt8.ofNat x, cs)
  | _, c :: rest =>
    if isOctal c then
      let (value, rest) := octal 3 0 cs
      (UInt8.ofNat value, rest)
    else match letterEscape? c with
      | some b => (b, rest)
      | none => (92, cs)
  | _, [] => (92, [])

/-- What an escaped text writes, and whether `\c` ended it. An octal escape may have a zero before
its three digits. At most `n` characters are read. -/
def unescape (extended : Bool) : Nat → List Char → List UInt8 × Bool
  | 0, _ => ([], false)
  | _ + 1, [] => ([], false)
  | _ + 1, '\\' :: 'c' :: _ => ([], true)
  | n + 1, '\\' :: cs =>
    let cs := match cs with
      | '0' :: d :: rest => if isOctal d then d :: rest else cs
      | cs => cs
    let (b, rest) := escape extended cs
    let (bytes, ended) := unescape extended n rest
    (b :: bytes, ended)
  | n + 1, c :: cs =>
    let (bytes, ended) := unescape extended n cs
    (String.utf8EncodeChar c ++ bytes, ended)

/-- What `echo` writes for some words, with a line end or without. With `escapes` escapes are
read. -/
def echoed (newline escapes extended : Bool) (words : List String) : List UInt8 :=
  let text := " ".intercalate words
  let (bytes, ended) :=
    if escapes then unescape extended (text.length + 1) text.toList else (Text.encode text, false)
  if newline && !ended then bytes ++ [10] else bytes

/-- What the `echo` of the shell writes: it always reads escapes. -/
def echo : List String → List UInt8
  | "-n" :: args => echoed false true false args
  | args => echoed true true false args

def isEchoOption (arg : String) : Bool :=
  match arg.toList with
  | '-' :: c :: cs => (c :: cs).all fun c => c == 'n' || c == 'e' || c == 'E'
  | _ => false

/-- What the `echo` of the system writes: it reads escapes only if it is told to. -/
def systemEcho (args : List String) : List UInt8 :=
  let options := (args.takeWhile isEchoOption).flatMap fun a => a.toList.drop 1
  let escapes := (options.filter (· != 'n')).getLast? == some 'e'
  echoed (!options.contains 'n') escapes true (args.dropWhile isEchoOption)

structure Directive where
  flags : List Char
  width : Int
  precision : Option Nat
  conversion : Char

/-- A text filled with blanks to a width; a negative width fills at the end. -/
def pad (width : Int) (s : List UInt8) : List UInt8 :=
  let fill := List.replicate (width.natAbs - s.length) 32
  if width < 0 then s ++ fill else fill ++ s

def signOf (flags : List Char) (negative : Bool) : String :=
  if negative then "-"
  else if flags.contains '+' then "+"
  else if flags.contains ' ' then " " else ""

def number (d : Directive) (start digits : String) : List UInt8 :=
  let least := match d.precision with
    | some p => p
    | none => if d.flags.contains '0' && d.width ≥ 0 then d.width.toNat - start.length else 0
  let zeros := String.ofList (List.replicate (least - digits.length) '0')
  pad d.width (Text.encode (start ++ zeros ++ digits))

inductive Complaint where
  /-- an argument is no number -/
  | notNumber (arg : String)
  /-- an argument goes on after a number -/
  | notWholly (arg : String)
  /-- there is no such directive -/
  | directive (spelled : String)
  /-- the format ends within a directive -/
  | unfinished
  deriving DecidableEq, Repr

def Complaint.text : Complaint → String
  | notNumber arg => s!"{arg}: expected numeric value"
  | notWholly arg => s!"{arg}: not completely converted"
  | directive spelled => s!"{spelled}: invalid directive"
  | unfinished => "missing format character"

/-- The use of a format up to some point: what was written and complained about, latest first, and
the arguments that are left. -/
structure Progress where
  /-- whether the escapes of the system are read, or only those of the shell -/
  extended : Bool
  written : List (List UInt8) := []
  complaints : List Complaint := []
  args : List String

/-- Using a format; it is ended by an error with a complaint, or without one by `\c`. -/
abbrev Use := ExceptT (Option Complaint) (StateM Progress)

def put (bytes : List UInt8) : Use Unit := modify fun p => { p with written := bytes :: p.written }

/-- Takes the next argument; an empty one if there is none. -/
def next : Use String := do
  let p ← get
  set { p with args := p.args.tail }
  return p.args.headD ""

def digitValue (c : Char) : Nat := (hex? c.toLower).getD 99

def leadingNumber (cs : List Char) : Int × List Char :=
  let body := cs.dropWhile Char.isWhitespace
  let (negative, digits) := match body with
    | '-' :: cs => (true, cs)
    | '+' :: cs => (false, cs)
    | cs => (false, cs)
  let (base, digits) := match digits with
    | '0' :: x :: c :: rest =>
      if (x = 'x' ∨ x = 'X') ∧ digitValue c < 16 then (16, c :: rest) else (8, digits)
    | '0' :: _ => (8, digits)
    | _ => (10, digits)
  let ds := digits.takeWhile fun c => digitValue c < base
  if ds.isEmpty then (0, cs)
  else
    let n := ds.foldl (fun n c => n * base + digitValue c) 0
    (if negative then -Int.ofNat n else Int.ofNat n, digits.drop ds.length)

/-- The number that an argument writes; a quote before a character means the character's own. -/
def nextNumber : Use Int := do
  let arg ← next
  match arg.toList with
  | '\'' :: c :: _ | '"' :: c :: _ =>
    return Int.ofNat ((String.utf8EncodeChar c).headD 0).toNat
  | cs => do
    let (n, rest) := leadingNumber cs
    if !rest.isEmpty then
      let fault := if rest.length = cs.length then Complaint.notNumber arg else .notWholly arg
      modify fun p => { p with complaints := fault :: p.complaints }
    return n

def convert (d : Directive) (spelled : String) : Use Unit := do
  let cut (bytes : List UInt8) := match d.precision with
    | some p => bytes.take p
    | none => bytes
  let unsigned (base : Nat) (mark : String) (upper : Bool) : Use Unit := do
    let n := ((← nextNumber) % Int.pow 2 64).toNat
    let digits := String.ofList (Nat.toDigits base n)
    let start := if d.flags.contains '#' && n != 0 then mark else ""
    put (number d (if upper then start.toUpper else start)
      (if upper then digits.toUpper else digits))
  match d.conversion with
  | 's' => put (pad d.width (cut (Text.encode (← next))))
  | 'b' => do
    let arg ← next
    let (bytes, ended) := unescape (← get).extended (arg.length + 1) arg.toList
    put (pad d.width (cut bytes))
    if ended then throw none
  | 'c' => put (pad d.width [(Text.encode (← next)).headD 0])
  | 'd' | 'i' => do
    let n ← nextNumber
    put (number d (signOf d.flags (n < 0)) (toString n.natAbs))
  | 'u' => unsigned 10 "" false
  | 'o' => unsigned 8 "0" false
  | 'x' => unsigned 16 "0x" false
  | 'X' => unsigned 16 "0x" true
  | _ => throw (some (.directive spelled))

/-- A number of a directive: written there, or taken from the arguments; with what follows it. -/
def size (cs : List Char) : Use (Option Int × List Char) := do
  match cs with
  | '*' :: cs => do
    let n ← nextNumber
    return (some n, cs)
  | _ => do
    let ds := cs.takeWhile Char.isDigit
    return ((String.ofList ds).toNat?.map Int.ofNat, cs.drop ds.length)

def directive (cs : List Char) : Use (List Char) := do
  let flags := cs.takeWhile fun c => "-+ #0".toList.contains c
  let (width, rest) ← size (cs.drop flags.length)
  let (precision, rest) ← match rest with
    | '.' :: rest => do
      let (p, rest) ← size rest
      pure (some (p.getD 0).toNat, rest)
    | rest => pure (none, rest)
  match rest with
  | [] => throw (some .unfinished)
  | c :: after => do
    let width := width.getD 0
    let spelled := "%" ++ String.ofList (cs.take (cs.length - after.length))
    convert ⟨flags, if flags.contains '-' then -Int.ofNat width.natAbs else width, precision, c⟩
      spelled
    return after

/-- One pass over a format. At most `n` characters are read. -/
def pass : Nat → List Char → Use Unit
  | 0, _ => return
  | _ + 1, [] => return
  | n + 1, '%' :: '%' :: cs => do
    put [37]
    pass n cs
  | n + 1, '%' :: cs => do pass n (← directive cs)
  | n + 1, '\\' :: cs => do
    let (b, rest) := escape (← get).extended cs
    put [b]
    pass n rest
  | n + 1, c :: cs => do
    put (String.utf8EncodeChar c)
    pass n cs

/-- Passes over a format until the arguments are used up. At most `n` passes are made. -/
def passes : Nat → List Char → Use Unit
  | 0, _ => return
  | n + 1, format => do
    let before := (← get).args.length
    pass (format.length + 1) format
    let left := (← get).args.length
    if left != 0 && left != before then passes n format

/-- What `printf` does: what it writes, what it complains about, and its status. -/
structure Outcome where
  written : List UInt8
  complaints : List Complaint
  status : Nat

/-- Writes some arguments by a format. With `extended` the escapes of the system are read. -/
def printf (extended : Bool) (format : String) (args : List String) : Outcome :=
  let (ended, p) := (passes (args.length + 1) format.toList).run { extended, args }
  let bytes := p.written.reverse.flatten
  match ended with
  | .error (some fault) => ⟨bytes, (fault :: p.complaints).reverse, 2⟩
  | _ => ⟨bytes, p.complaints.reverse, if p.complaints.isEmpty then 0 else 1⟩

end BootImage.Shell.Format
