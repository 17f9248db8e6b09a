/-!
# Sets of characters

A set of characters as it is written between brackets: characters, ranges of them, and classes such
as `[:digit:]`. A sign at the front makes it the set of all others. A closing bracket at the front
is one of the characters.
-/

namespace BootImage.Shell

abbrev Mark := Char × Bool

namespace Charset

/-- Whether a character that is not a letter, a digit or a blank can be seen. -/
def isPunctuation (c : Char) : Bool := '!' ≤ c && c ≤ '~' && !c.isAlphanum

def isOfClass (name : String) (c : Char) : Bool :=
  match name with
  | "alpha" => c.isAlpha
  | "digit" => c.isDigit
  | "alnum" => c.isAlphanum
  | "upper" => c.isUpper
  | "lower" => c.isLower
  | "space" => c == ' ' || ('\t' ≤ c && c ≤ '\r')
  | "blank" => c == ' ' || c == '\t'
  | "punct" => isPunctuation c
  | "print" => ' ' ≤ c && c ≤ '~'
  | "graph" => '!' ≤ c && c ≤ '~'
  | "cntrl" => c < ' ' || c == '\x7f'
  | "xdigit" => c.isDigit || ('a' ≤ c && c ≤ 'f') || ('A' ≤ c && c ≤ 'F')
  | _ => false

inductive Item where
  | one (c : Char)
  | range (first last : Char)
  | ofClass (name : String)
  deriving DecidableEq, Repr

def Item.has (c : Char) : Item → Bool
  | one a => a == c
  | range a b => a ≤ c && c ≤ b
  | ofClass name => isOfClass name c

/-- The class at the front, of which `[` and `:` were taken off, and what follows it. -/
def class? (ms : List Mark) : Option (Item × List Mark) :=
  let name := ms.takeWhile fun m => m.1.isAlpha
  match ms.drop name.length with
  | (':', _) :: (']', _) :: rest => some (.ofClass (String.ofList (name.map Prod.fst)), rest)
  | _ => none

/-- The parts up to the closing bracket, and what follows it; at most `n` parts are read. -/
def items? : Nat → List Mark → Option (List Item × List Mark)
  | 0, _ => none
  | n + 1, ms =>
    let plain (item : Item) (rest : List Mark) : Option (List Item × List Mark) :=
      (items? n rest).map fun (items, after) => (item :: items, after)
    match ms with
    | [] => none
    | (']', false) :: rest => some ([], rest)
    | ('[', false) :: (':', false) :: rest => match class? rest with
      | some (item, rest) => plain item rest
      | none => plain (.one '[') ((':', false) :: rest)
    | (a, _) :: ('-', false) :: (b, quoted) :: rest =>
      if b == ']' && !quoted then plain (.one a) (('-', false) :: (b, quoted) :: rest)
      else plain (.range a b) rest
    | (a, _) :: rest => plain (.one a) rest

end Charset

structure Charset where
  /-- whether the set has all characters but those of its parts -/
  negated : Bool := false
  items : List Charset.Item
  deriving DecidableEq, Repr

namespace Charset

def has (s : Charset) (c : Char) : Bool := s.items.any (·.has c) != s.negated

/-- The set after an opening bracket, and what follows the closing one. The sign `negation` at the
front stands for all others. -/
def read? (negation : Char) (ms : List Mark) : Option (Charset × List Mark) :=
  let (negated, ms) := match ms with
    | (c, false) :: rest => if c == negation then (true, rest) else (false, ms)
    | ms => (false, ms)
  let ms := match ms with
    | (']', false) :: rest => (']', true) :: rest
    | ms => ms
  (items? (ms.length + 1) ms).map fun (items, after) => (⟨negated, items⟩, after)

end Charset

end BootImage.Shell
