/-!
# Arithmetic expressions

The values of the arithmetic expressions of shell scripts, on integers of 64 bits that wrap around.
Operators bind as in most languages; comparisons and logical operators give 1 or 0. A name stands
for the number that is its variable's value, and for 0 if it has none, and may be assigned to. What
`&&`, `||` and `?` leave out is read but not worked out.
-/

namespace BootImage.Shell.Arithmetic

inductive Fault where
  | expecting (what : String)
  | divisionByZero
  /-- a variable's value is no number -/
  | illegalNumber (text : String)
  deriving DecidableEq, Repr

def Fault.message (expression : String) : Fault → String
  | expecting what => s!"arithmetic expression: expecting {what}: \"{expression}\""
  | divisionByZero => s!"arithmetic expression: division by zero: \"{expression}\""
  | illegalNumber text => s!"Illegal number: {text}"

def wrap (n : Int) : Int := n.bmod (Nat.pow 2 64)

def bits (n : Int) : Nat := (n % Int.pow 2 64).toNat

def ofBool (b : Bool) : Int := if b then 1 else 0

def powers : List (String × Nat) :=
  [("|", 3), ("^", 4), ("&", 5), ("==", 6), ("!=", 6), ("<=", 7), (">=", 7), ("<", 7), (">", 7),
    ("<<", 8), (">>", 8), ("+", 9), ("-", 9), ("*", 10), ("/", 10), ("%", 10)]

def signs : List String :=
  ["<<=", ">>=", "||", "&&", "==", "!=", "<=", ">=", "<<", ">>", "+=", "-=", "*=", "/=", "%=", "&=",
    "^=", "|=", "|", "^", "&", "<", ">", "+", "-", "*", "/", "%", "?", ":", "=", "(", ")", "!", "~"]

def binary (operator : String) (a b : Int) : Except Fault Int :=
  match operator with
  | "==" => .ok (ofBool (a == b))
  | "!=" => .ok (ofBool (a != b))
  | "<=" => .ok (ofBool (a ≤ b))
  | ">=" => .ok (ofBool (b ≤ a))
  | "<" => .ok (ofBool (a < b))
  | ">" => .ok (ofBool (b < a))
  | "<<" => .ok (wrap (a * Int.pow 2 (bits b % 64)))
  | ">>" => .ok (a.fdiv (Int.pow 2 (bits b % 64)))
  | "|" => .ok (wrap (Int.ofNat (bits a ||| bits b)))
  | "^" => .ok (wrap (Int.ofNat (bits a ^^^ bits b)))
  | "&" => .ok (wrap (Int.ofNat (bits a &&& bits b)))
  | "+" => .ok (wrap (a + b))
  | "-" => .ok (wrap (a - b))
  | "*" => .ok (wrap (a * b))
  | "/" => if b = 0 then .error .divisionByZero else .ok (wrap (a.tdiv b))
  | "%" => if b = 0 then .error .divisionByZero else .ok (a.tmod b)
  | _ => .ok b

def digit (c : Char) : Nat :=
  if c.isDigit then c.toNat - 48 else if c.isAlpha then c.toLower.toNat - 87 else 99

def literal (cs : List Char) : Nat × List Char :=
  let take (base : Nat) (cs : List Char) :=
    let ds := cs.takeWhile fun c => digit c < base
    (min (ds.foldl (fun n c => n * base + digit c) 0) (Nat.pow 2 63 - 1), cs.drop ds.length)
  match cs with
  | '0' :: x :: c :: rest =>
    if (x = 'x' ∨ x = 'X') ∧ digit c < 16 then take 16 (c :: rest) else take 8 cs
  | '0' :: _ => take 8 cs
  | _ => take 10 cs

def ofValue (text : String) : Except Fault Int :=
  let (negative, cs) := match text.toList.dropWhile Char.isWhitespace with
    | '-' :: cs => (true, cs)
    | '+' :: cs => (false, cs)
    | cs => (false, cs)
  if text.isEmpty then .ok 0
  else
    let (n, rest) := literal cs
    if rest.all Char.isWhitespace && cs.head?.any Char.isDigit then
      .ok (if negative then -Int.ofNat n else Int.ofNat n)
    else .error (.illegalNumber text)

/-- The text that is left, and the variables that were assigned to, latest first. -/
structure State where
  rest : List Char
  assigned : List (String × Int) := []

abbrev Calculation := StateT State (Except Fault)

def upcoming : Calculation String := do
  let s ← get
  let rest := s.rest.dropWhile Char.isWhitespace
  set { s with rest }
  return (signs.find? fun o => o.toList.isPrefixOf rest).getD ""

def skip (n : Nat) : Calculation Unit := modify fun s => { s with rest := s.rest.drop n }

def sign (s : String) : Calculation Unit := do
  if (← upcoming) = s then skip s.length else throw (.expecting s!"'{s}'")

def name? (cs : List Char) : Option String :=
  match cs with
  | c :: _ =>
    if c.isAlpha || c == '_' then
      some (String.ofList (cs.takeWhile fun d => d.isAlphanum || d == '_'))
    else none
  | [] => none

variable (lookup : String → String)

def valueOf (name : String) : Calculation Int := do
  match (← get).assigned.lookup name with
  | some v => return v
  | none => ofValue (lookup name)

def assign (name : String) (value : Int) : Calculation Unit :=
  modify fun s => { s with assigned := (name, value) :: s.assigned }

mutual

/-- Reads an operand. Nothing is worked out unless `live` is given. -/
def operand : Nat → Bool → Calculation Int
  | 0, _ => throw (.expecting "primary")
  | n + 1, live => do
    match ← upcoming with
    | "(" => do
      skip 1
      let v ← assignment n live
      sign ")"
      return v
    | "-" => do
      skip 1
      return wrap (-(← operand n live))
    | "+" => do
      skip 1
      operand n live
    | "~" => do
      skip 1
      return wrap (-(← operand n live) - 1)
    | "!" => do
      skip 1
      return ofBool ((← operand n live) == 0)
    | _ => do
      let s ← get
      match name? s.rest with
      | some name => do
        skip name.length
        if live then valueOf lookup name else return 0
      | none =>
        if s.rest.head?.any Char.isDigit then
          let (v, rest) := literal s.rest
          set { s with rest }
          return Int.ofNat v
        else throw (.expecting "primary")

def expression : Nat → Bool → Nat → Calculation Int
  | 0, _, _ => throw (.expecting "primary")
  | n + 1, live, power => do continueFrom n live power (← operand n live)

def continueFrom : Nat → Bool → Nat → Int → Calculation Int
  | 0, _, _, _ => throw (.expecting "primary")
  | n + 1, live, power, v => do
    let operator ← upcoming
    match powers.lookup operator with
    | none => return v
    | some strength =>
      if strength ≤ power then return v
      else do
        skip operator.length
        let w ← expression n live strength
        continueFrom n live power (← if live then binary operator v w else pure 0)

def conjunction : Nat → Bool → Calculation Int
  | 0, _ => throw (.expecting "primary")
  | n + 1, live => do
    let v ← expression n live 0
    if (← upcoming) = "&&" then
      skip 2
      let w ← conjunction n (live && v != 0)
      return ofBool (v != 0 && w != 0)
    return v

def disjunction : Nat → Bool → Calculation Int
  | 0, _ => throw (.expecting "primary")
  | n + 1, live => do
    let v ← conjunction n live
    if (← upcoming) = "||" then
      skip 2
      let w ← disjunction n (live && v == 0)
      return ofBool (v != 0 || w != 0)
    return v

def conditional : Nat → Bool → Calculation Int
  | 0, _ => throw (.expecting "primary")
  | n + 1, live => do
    let v ← disjunction n live
    if (← upcoming) = "?" then
      skip 1
      let yes ← assignment n (live && v != 0)
      sign ":"
      let no ← conditional n (live && v == 0)
      return if v != 0 then yes else no
    return v

def assignment : Nat → Bool → Calculation Int
  | 0, _ => throw (.expecting "primary")
  | n + 1, live => do
    let before ← get
    match name? (before.rest.dropWhile Char.isWhitespace) with
    | none => conditional n live
    | some name => do
      let _ ← upcoming
      skip name.length
      let operator ← upcoming
      let operators := ["=", "*=", "/=", "%=", "+=", "-=", "<<=", ">>=", "&=", "^=", "|="]
      if operators.contains operator then
        skip operator.length
        let w ← assignment n live
        if !live then return w
        let plain := String.ofList (operator.toList.dropLast)
        let v ← if plain.isEmpty then pure w else do
          binary plain (← valueOf lookup name) w
        assign name v
        return v
      else
        set before
        conditional n live

end

/-- The value of an expression, and the variables it assigns to, latest first. -/
def evaluate (text : List Char) : Except Fault (Int × List (String × Int)) := do
  let (v, s) ← (do
    let v ← assignment lookup (8 * text.length + 8) true
    let _ ← upcoming
    return v : Calculation Int).run { rest := text }
  if s.rest.isEmpty then return (v, s.assigned) else throw (.expecting "EOF")

end BootImage.Shell.Arithmetic
