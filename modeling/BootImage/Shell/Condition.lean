import BootImage.Shell.Variables

/-!
# Tests

The conditions that `test` decides. A condition is a list of words: tests of one or two operands,
put together by `!`, `-a`, `-o` and brackets. Up to four words the number of words says how they are
to be read, so that an operand that looks like an operator does no harm; beyond that they are read
from the left. Every part is worked out, whether it matters or not.
-/

namespace BootImage.Shell.Condition

inductive Role where
  | unary
  | binary
  | negation
  | conjunction
  | disjunction
  | opening
  | closing
  deriving DecidableEq, Repr

/-- What a word may be, if it is more than an operand. -/
def role? (word : String) : Option Role :=
  if ["-r", "-w", "-x", "-e", "-f", "-d", "-c", "-b", "-p", "-u", "-g", "-k", "-s", "-t", "-z",
      "-n", "-h", "-L", "-O", "-G", "-S"].contains word then some .unary
  else if ["=", "!=", "<", ">", "-eq", "-ne", "-ge", "-gt", "-le", "-lt", "-nt", "-ot",
      "-ef"].contains word then some .binary
  else match word with
    | "!" => some .negation
    | "-a" => some .conjunction
    | "-o" => some .disjunction
    | "(" => some .opening
    | ")" => some .closing
    | _ => none

def isOperand : List String → Bool
  | [] => true
  | [_] => false
  | second :: third :: _ => role? second == some .binary && third != ")"

/-- What the first of some words is, if it is more than an operand. -/
def meaning : List String → Option Role
  | [] => none
  | word :: rest => match role? word with
    | some .unary => if isOperand rest then none else some .unary
    | some .opening => if rest.isEmpty then none else some .opening
    | r => r

def number (operand : String) : Except String Int :=
  let cs := operand.toList.dropWhile Char.isWhitespace
  let cs := (cs.reverse.dropWhile Char.isWhitespace).reverse
  let digits := match cs with
    | '-' :: ds | '+' :: ds => ds
    | ds => ds
  match Variables.natural? (String.ofList digits) with
  | some n => .ok (if cs.head? == some '-' then -Int.ofNat n else Int.ofNat n)
  | none => .error s!"Illegal number: {operand}"

def leadsTo (s : State) (follows : Bool) (operand : String) (holds : Entry → Bool) : Bool :=
  (s.tree.reach follows s.cwd operand).found?.any holds

def unary (s : State) (operator operand : String) : Bool :=
  match operator with
  | "-n" => !operand.isEmpty
  | "-z" => operand.isEmpty
  | "-e" | "-r" | "-w" | "-O" | "-G" => leadsTo s true operand fun _ => true
  | "-d" => leadsTo s true operand (· == .directory)
  | "-f" => leadsTo s true operand (· != .directory)
  | "-x" => leadsTo s true operand fun
    | .file _ executable => executable
    | _ => true
  | "-s" => leadsTo s true operand fun
    | .file content _ => !content.isEmpty
    | _ => true
  | "-h" | "-L" => leadsTo s false operand fun
    | .link _ => true
    | _ => false
  | _ => false

def binary (s : State) (operator a b : String) : Except String Bool :=
  let compare (holds : Int → Int → Bool) := do return holds (← number a) (← number b)
  match operator with
  | "=" => .ok (a == b)
  | "!=" => .ok (a != b)
  | "<" => .ok (a < b)
  | ">" => .ok (b < a)
  | "-eq" => compare (· == ·)
  | "-ne" => compare (· != ·)
  | "-lt" => compare (· < ·)
  | "-le" => compare (· ≤ ·)
  | "-gt" => compare (· > ·)
  | "-ge" => compare (· ≥ ·)
  | "-ef" => match s.tree.reach true s.cwd a, s.tree.reach true s.cwd b with
    | .found l _, .found l' _ => .ok (l == l')
    | _, _ => .ok false
  | _ => .ok false

/-- Reading a condition word by word; what is left starts with the last word that was read. -/
abbrev Reading := StateT (List String) (Except String)

variable (s : State)

mutual

def disjunction : Nat → Reading Bool
  | 0 => return false
  | n + 1 => do
    let first ← conjunction n
    let words ← get
    if meaning words.tail == some .disjunction then
      set (words.drop 2)
      let second ← disjunction n
      return first || second
    return first

def conjunction : Nat → Reading Bool
  | 0 => return false
  | n + 1 => do
    let first ← negation n
    let words ← get
    if meaning words.tail == some .conjunction then
      set (words.drop 2)
      let second ← conjunction n
      return first && second
    return first

def negation : Nat → Reading Bool
  | 0 => return false
  | n + 1 => do
    let words ← get
    if meaning words == some .negation then
      if words.tail.isEmpty then return true
      set words.tail
      return !(← negation n)
    primary n

def primary : Nat → Reading Bool
  | 0 => return false
  | n + 1 => do
    match ← get with
    | [] => return false
    | word :: rest =>
      match meaning (word :: rest), rest with
      | some .opening, rest => do
        set rest
        if meaning rest == some .closing then return false
        let inner ← disjunction n
        let words ← get
        set words.tail
        if meaning words.tail != some .closing then throw "closing paren expected"
        return inner
      | some .unary, [] => throw s!"{word}: argument expected"
      | some .unary, operand :: rest => do
        set (operand :: rest)
        return unary s word operand
      | _, rest =>
        if meaning rest != some .binary then return !word.isEmpty
        else match rest with
          | operator :: operand :: rest => do
            set (operand :: rest)
            binary s operator word operand
          | operator :: [] => throw s!"{operator}: argument expected"
          | [] => throw "argument expected"

end

def read (words : List String) : Except String Bool := do
  let (holds, left) ← (disjunction s (8 * words.length + 8)).run words
  match left with
  | word :: _ :: _ => throw (if word.isEmpty then "unexpected operator"
      else s!"{word}: unexpected operator")
  | _ => return holds

/-- The operator and the last operand of three words that are a test of two operands. -/
def comparison? : List String → Option (String × String)
  | [operator, operand] => if role? operator == some .binary then some (operator, operand) else none
  | _ => none

def holds : List String → Except String Bool
  | [] => .ok false
  | word :: rest =>
    match comparison? rest with
    | some (operator, operand) => binary s operator word operand
    | none =>
      if rest.length < 2 || 3 < rest.length then read s (word :: rest)
      else if word == "(" && rest.getLast? == some ")" then read s rest.dropLast
      else if word == "!" then (holds rest).map not
      else read s (word :: rest)

end BootImage.Shell.Condition
