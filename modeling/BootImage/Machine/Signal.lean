/-!
# Signals

The signals that end or disturb a program, with their numbers. Most of them end a program that made
no other arrangement; the others leave it running. The signals after the thirty-first have no name
of their own and are counted from the first or from the last of those that programs may use.
-/

namespace BootImage

structure Signal where
  number : Nat
  /-- the name without the letters `SIG`; empty for a signal without a name -/
  name : String
  /-- what is said of a program that it ended -/
  description : String
  /-- whether a program ends by it that made no arrangement -/
  ends : Bool
  deriving DecidableEq, Repr

namespace Signal

def named : List Signal :=
  [⟨1, "HUP", "Hangup", true⟩, ⟨2, "INT", "Interrupt", true⟩, ⟨3, "QUIT", "Quit", true⟩,
    ⟨4, "ILL", "Illegal instruction", true⟩, ⟨5, "TRAP", "Trace/breakpoint trap", true⟩,
    ⟨6, "ABRT", "Aborted", true⟩, ⟨7, "BUS", "Bus error", true⟩,
    ⟨8, "FPE", "Floating point exception", true⟩, ⟨9, "KILL", "Killed", true⟩,
    ⟨10, "USR1", "User defined signal 1", true⟩, ⟨11, "SEGV", "Segmentation fault", true⟩,
    ⟨12, "USR2", "User defined signal 2", true⟩, ⟨13, "PIPE", "Broken pipe", true⟩,
    ⟨14, "ALRM", "Alarm clock", true⟩, ⟨15, "TERM", "Terminated", true⟩,
    ⟨16, "STKFLT", "Stack fault", true⟩, ⟨17, "CHLD", "Child exited", false⟩,
    ⟨18, "CONT", "Continued", false⟩, ⟨19, "STOP", "Stopped (signal)", false⟩,
    ⟨20, "TSTP", "Stopped", false⟩, ⟨21, "TTIN", "Stopped (tty input)", false⟩,
    ⟨22, "TTOU", "Stopped (tty output)", false⟩, ⟨23, "URG", "Urgent I/O condition", false⟩,
    ⟨24, "XCPU", "CPU time limit exceeded", true⟩, ⟨25, "XFSZ", "File size limit exceeded", true⟩,
    ⟨26, "VTALRM", "Virtual timer expired", true⟩, ⟨27, "PROF", "Profiling timer expired", true⟩,
    ⟨28, "WINCH", "Window changed", false⟩, ⟨29, "IO", "I/O possible", true⟩,
    ⟨30, "PWR", "Power failure", true⟩, ⟨31, "SYS", "Bad system call", true⟩]

def first : Nat := 34

def last : Nat := 64

def unnamed (number : Nat) : Signal :=
  ⟨number, "", if number < first then s!"Unknown signal {number}"
    else s!"Real-time signal {number - first}", true⟩

def ofNumber? (n : Nat) : Option Signal :=
  match named.find? (·.number == n) with
  | some g => some g
  | none => if 32 ≤ n ∧ n ≤ last then some (unnamed n) else none

/-- The signal that is so many after the first, or before the last, of those without a name. -/
def counted? (name : List Char) : Option Signal :=
  match name with
  | 'R' :: 'T' :: 'M' :: 'I' :: 'N' :: rest => match rest with
    | [] => some (unnamed first)
    | '+' :: digits => (String.ofList digits).toNat?.bind fun n => ofNumber? (first + n)
    | _ => none
  | 'R' :: 'T' :: 'M' :: 'A' :: 'X' :: rest => match rest with
    | [] => some (unnamed last)
    | '-' :: digits => (String.ofList digits).toNat?.bind fun n => ofNumber? (last - n)
    | _ => none
  | _ => none

def ofText? (s : String) : Option Signal :=
  match s.toNat? with
  | some n => ofNumber? n
  | none =>
    let name := s.toUpper
    match named.find? fun g => g.name == name && g.number != 16 with
    | some g => some g
    | none => counted? name.toList

def shortName (g : Signal) : String :=
  if g.number = 16 ∨ (g.name.isEmpty ∧ g.number < first) then toString g.number
  else if !g.name.isEmpty then g.name
  else if g.number = first then "RTMIN"
  else if g.number = last then "RTMAX"
  else if g.number < first + 16 then s!"RTMIN+{g.number - first}"
  else s!"RTMAX-{last - g.number}"

def fullName? (g : Signal) : Option String :=
  if g.name.isEmpty then none else some ("SIG" ++ g.name)

def canBeHandled (g : Signal) : Bool := g.name != "KILL" && g.name != "STOP"

def isQuiet (g : Signal) : Bool := g.name == "INT" || g.name == "PIPE"

end Signal

end BootImage
