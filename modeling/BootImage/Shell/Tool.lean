import BootImage.Shell.Format
import BootImage.Shell.State

/-!
# Tools

A tool is a program of the system other than the shell. It is called by a name, which its complaints
start with, and gives its status. Its options stand before or between its operands, several letters
in one word, and the words after `--` are all operands.

In complaints a file's name stands in quotes; what cannot be printed stands there as escapes.
-/

namespace BootImage.Shell

abbrev Tool := (name : String) → List String → Run Nat

namespace Tool

def isPrintable (b : UInt8) : Bool := 32 ≤ b && b < 127

def escapeByte (b : UInt8) : String :=
  match b.toNat with
  | 7 => "\\a"
  | 8 => "\\b"
  | 9 => "\\t"
  | 10 => "\\n"
  | 11 => "\\v"
  | 12 => "\\f"
  | 13 => "\\r"
  | n =>
    let digits := String.ofList (Nat.toDigits 8 n)
    "\\" ++ String.ofList (List.replicate (3 - digits.length) '0') ++ digits

/-- Bytes in single quotes; `printed` tells whether those before are printed as they are. -/
def quoteFrom (printed : Bool) : List UInt8 → String
  | [] => "'"
  | b :: bs =>
    if isPrintable b then
      (if printed then "" else "''") ++
        (if b == 39 then "'\\''" else String.singleton (Char.ofNat b.toNat)) ++ quoteFrom true bs
    else (if printed then "'$'" else "") ++ escapeByte b ++ quoteFrom false bs

def quote (name : String) : String :=
  let bytes := Text.encode name
  if bytes.all isPrintable && bytes.contains 39 && !bytes.any ("\"\\$\x60".toUTF8.toList.contains ·)
  then "\"" ++ name ++ "\""
  else "'" ++ quoteFrom true bytes

def isPlain (name : String) : Bool :=
  !name.isEmpty && name.toList.all fun c => c.isAlphanum || "-_./:,+@%".toList.contains c

def quoteIfNeeded (name : String) : String := if isPlain name then name else quote name

def complain (tool text : String) : Run Unit := Run.complain s!"{tool}: {text}"

/-- The options and operands that a tool is called with. Options go by their letters, and those with
a value have it. -/
structure Arguments where
  options : List (Char × String) := []
  operands : List String := []

namespace Arguments

def has (a : Arguments) (option : Char) : Bool := (a.options.lookup option).isSome

def value? (a : Arguments) (option : Char) : Option String := a.options.reverse.lookup option

def withOptions (options : List (Char × String)) (a : Arguments) : Arguments :=
  { a with options := options ++ a.options }

end Arguments

/-- What options a tool has: letters without and with a value, and longer names for some of them. -/
structure Manual where
  flags : String := ""
  valued : String := ""
  long : List (String × Char) := []
  /-- whether options may stand after operands -/
  mixed : Bool := true

namespace Manual

/-- The options in one word, and whether the last one has its value in the next word. -/
def letters (m : Manual) : List Char → Except String (List (Char × String) × Option Char)
  | [] => .ok ([], none)
  | c :: cs =>
    if m.valued.contains c then
      if cs.isEmpty then .ok ([], some c) else .ok ([(c, String.ofList cs)], none)
    else if m.flags.contains c then
      (letters m cs).map fun (options, last) => ((c, "") :: options, last)
    else .error s!"invalid option -- '{c}'"

def read (m : Manual) : List String → Except String Arguments
  | [] => .ok {}
  | "--" :: words => .ok { operands := words }
  | word :: words =>
    match word.toList with
    | '-' :: '-' :: name =>
      let key := String.ofList (name.takeWhile (· != '='))
      match m.long.lookup key with
      | some c =>
        (m.read words).map (.withOptions [(c, String.ofList (name.drop (key.length + 1)))])
      | none => .error s!"unrecognized option '--{key}'"
    | '-' :: c :: cs => do
      match ← m.letters (c :: cs) with
      | (options, none) => (m.read words).map (.withOptions options)
      | (options, some last) => match words with
        | [] => .error s!"option requires an argument -- '{last}'"
        | value :: words => (m.read words).map (.withOptions (options ++ [(last, value)]))
    | _ =>
      if m.mixed then (m.read words).map fun a => { a with operands := word :: a.operands }
      else .ok { operands := word :: words }

end Manual

def misused (tool text : String) (status : Nat) : Run Nat := do
  complain tool text
  Run.complain s!"Try '{tool} --help' for more information."
  return status

def withManual (m : Manual) (faultStatus : Nat) (act : String → Arguments → Run Nat) : Tool :=
  fun name words => do
    match m.read words with
    | .ok a => act name a
    | .error fault => misused name fault faultStatus

def forEach (operands : List String) (act : String → Run Nat) : Run Nat := do
  let mut status := 0
  for operand in operands do status := max status (← act operand)
  return status

def withoutSlashes (path : String) : String :=
  match (path.toList.reverse.dropWhile (· == '/')).reverse with
  | [] => if path.isEmpty then "" else "/"
  | cs => String.ofList cs

def lastName (path : String) : String :=
  let path := withoutSlashes path
  if path == "/" then path
  else String.ofList ((path.toList.reverse.takeWhile (· != '/')).reverse)

def parentPath (path : String) : String :=
  let path := withoutSlashes path
  if path == "/" then path
  else match (path.toList.reverse.dropWhile (· != '/')).reverse with
    | [] => "."
    | cs => withoutSlashes (String.ofList cs)

end Tool

end BootImage.Shell
