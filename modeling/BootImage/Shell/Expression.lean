import BootImage.Shell.LineTools

/-!
# Expressions as words

`expr` takes the words of an expression, each operator a word of its own, and writes its value. A
value is a text; it counts as a number if it is written like one, and as nothing if it is empty or
zero.
-/

namespace BootImage.Shell.Expression

open Tool LineTools

inductive Fault where
  | missingArgument (after : String)
  | unexpected (word : String)
  | expectedClosing (after : String)
  | notInteger
  | division
  | badPattern (text : String)
  deriving DecidableEq, Repr

def Fault.text : Fault → String
  | missingArgument after => s!"syntax error: missing argument after {quote after}"
  | unexpected word => s!"syntax error: unexpected argument {quote word}"
  | expectedClosing after => s!"syntax error: expecting ')' after {quote after}"
  | notInteger => "non-integer argument"
  | division => "division by zero"
  | badPattern text => text

def number? (value : String) : Option Int :=
  match value.toList with
  | '-' :: ds => (Variables.natural? (String.ofList ds)).map fun n => -Int.ofNat n
  | ds => (Variables.natural? (String.ofList ds)).map Int.ofNat

def isNothing (value : String) : Bool := value.isEmpty || number? value == some 0

/-- The part of a text that an expression matches at its front: what its first group had or, without
groups, the number of characters. -/
def matched (text pattern : String) : Except Fault String := do
  let r ← (Regex.ofPattern false (charsOf pattern)).mapError .badPattern
  let hasGroup := "\\(".toList.isPrefixOf pattern.toList || 1 < (pattern.splitOn "\\(").length
  match r.matchAt? ⟨[], charsOf text, []⟩ with
  | some m =>
    if hasGroup then return Text.decode (bytes ((m.groups.lookup 1).getD []))
    else return toString m.text.length
  | none => return if hasGroup then "" else "0"

def calculated (sign : String) (a b : String) : Except Fault String := do
  match number? a, number? b with
  | some x, some y =>
    match sign with
    | "+" => return toString (x + y)
    | "-" => return toString (x - y)
    | "*" => return toString (x * y)
    | "/" => if y = 0 then throw .division else return toString (x.tdiv y)
    | _ => if y = 0 then throw .division else return toString (x.tmod y)
  | _, _ => throw .notInteger

def compared (sign : String) (a b : String) : Bool :=
  let order := match number? a, number? b with
    | some x, some y => compare x y
    | _, _ => compare a b
  match sign with
  | "<" => order == .lt
  | "<=" => order != .gt
  | "=" | "==" => order == .eq
  | "!=" => order != .eq
  | ">=" => order != .lt
  | _ => order == .gt

def combined (operator : String) (a b : String) : Except Fault String :=
  match operator with
  | "|" => .ok (if !isNothing a then a else if isNothing b then "0" else b)
  | "&" => .ok (if isNothing a || isNothing b then "0" else a)
  | ":" => matched a b
  | "+" | "-" | "*" | "/" | "%" => calculated operator a b
  | operator => .ok (if compared operator a b then "1" else "0")

def levels : List (List String) :=
  [["|"], ["&"], ["<", "<=", "=", "==", "!=", ">=", ">"], ["+", "-"], ["*", "/", "%"], [":"]]

def part (text place length : String) : String :=
  match number? place, number? length with
  | some p, some n =>
    if p ≤ 0 then "" else Text.decode (bytes (((charsOf text).drop (p.toNat - 1)).take n.toNat))
  | _, _ => ""

mutual

/-- The value at the front of some words, of operators of the given levels, and the words after it.
`last` is the word before. -/
def value : Nat → List (List String) → String → List String → Except Fault (String × List String)
  | 0, _, last, _ => .error (.missingArgument last)
  | n + 1, [], last, words => operand n last words
  | n + 1, operators :: inner, last, words => do
    let (first, rest) ← value n inner last words
    further n operators inner first rest

def further : Nat → List String → List (List String) → String → List String →
    Except Fault (String × List String)
  | 0, _, _, first, rest => .ok (first, rest)
  | n + 1, operators, inner, first, rest =>
    match rest with
    | operator :: after =>
      if operators.contains operator then do
        let (second, rest) ← value n inner operator after
        further n operators inner (← combined operator first second) rest
      else .ok (first, rest)
    | [] => .ok (first, [])

def operand : Nat → String → List String → Except Fault (String × List String)
  | 0, last, _ => .error (.missingArgument last)
  | n + 1, last, words =>
    match words with
    | [] => .error (.missingArgument last)
    | "(" :: rest => do
      match ← value n levels "(" rest with
      | (v, ")" :: rest) => return (v, rest)
      | (_, []) => throw (.expectedClosing (rest.getLastD "("))
      | (_, word :: _) => throw (.expectedClosing word)
    | ")" :: _ => .error (.unexpected ")")
    | "+" :: word :: rest => .ok (word, rest)
    | "length" :: rest => do
      let (v, rest) ← operand n "length" rest
      return (toString (charsOf v).length, rest)
    | "match" :: rest => do
      let (a, rest) ← operand n "match" rest
      let (b, rest) ← operand n a rest
      return (← matched a b, rest)
    | "index" :: rest => do
      let (a, rest) ← operand n "index" rest
      let (b, rest) ← operand n a rest
      let place := ((charsOf a).findIdx? (charsOf b).contains).elim 0 (· + 1)
      return (toString place, rest)
    | "substr" :: rest => do
      let (a, rest) ← operand n "substr" rest
      let (b, rest) ← operand n a rest
      let (c, rest) ← operand n b rest
      return (part a b c, rest)
    | word :: rest => .ok (word, rest)

end

def ofWords (words : List String) : Except Fault String := do
  match ← value (16 * (words.length + 1)) levels "" words with
  | (v, []) => return v
  | (_, word :: _) => throw (.unexpected word)

def expr : Tool := fun tool words => do
  let words := if words.head? == some "--" then words.tail else words
  if words.isEmpty then return ← misused tool "missing operand" 2
  match ofWords words with
  | .ok v => do
    Run.print (v ++ "\n")
    return if isNothing v then 1 else 0
  | .error fault => do
    complain tool fault.text
    return 2

end BootImage.Shell.Expression
