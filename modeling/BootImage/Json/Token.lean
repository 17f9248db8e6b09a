import BootImage.Json.Number
import BootImage.Text.Wide

/-!
# The tokens of a JSON text

A JSON text is a sequence of tokens with blanks between them. `tokens?` cuts a text into its tokens
or finds that it cannot. It works one character at a time: `Scanner.step` says what a character
does after what has been read, so that reading a text in two parts is reading it whole
(`scan_append`), and the length of the text bounds the work.

Between tokens a run of characters that neither are blank nor have a meaning of their own is a
*word*; it must be one of the three names or a number literal. A string is read as its code units: a
character gives one or two, and an escape `\u` gives one, whatever stands beside it. So two
neighbouring escapes may be the surrogate pair of a character, and a surrogate may be left without
its partner.
-/

namespace BootImage.Json

/-- A token: a punctuation mark, a name, a number or a string. -/
inductive Token where
  | openObject
  | closeObject
  | openArray
  | closeArray
  | comma
  | colon
  | null
  | true
  | false
  | number (literal : String)
  | string (text : WideText)
  deriving DecidableEq, Repr

namespace Token

def ofMark? : Char → Option Token
  | '\x7b' => some openObject
  | '\x7d' => some closeObject
  | '[' => some openArray
  | ']' => some closeArray
  | ',' => some comma
  | ':' => some colon
  | _ => none

def ofWord? (word : List Char) : Option Token :=
  if word = "null".toList then some null
  else if word = "true".toList then some true
  else if word = "false".toList then some false
  else if Number.isLiteral word then some (number (String.ofList word))
  else none

end Token

def isSpace (c : Char) : Bool := c == ' ' || c == '\t' || c == '\n' || c == '\r'

def hexDigit? (c : Char) : Option Nat :=
  if c.isDigit then some (c.toNat - 48)
  else if 'a' ≤ c ∧ c ≤ 'f' then some (c.toNat - 87)
  else if 'A' ≤ c ∧ c ≤ 'F' then some (c.toNat - 55)
  else none

def escaped? : Char → Option Char
  | '"' => some '"'
  | '\\' => some '\\'
  | '/' => some '/'
  | 'b' => some '\x08'
  | 'f' => some '\x0c'
  | 'n' => some '\n'
  | 'r' => some '\r'
  | 't' => some '\t'
  | _ => none

/-- What the reader of a text is within. What was read so far, of a string its code units, is kept
latest first. -/
inductive Scanning where
  | blank
  | word (read : List Char)
  | string (read : List UInt16)
  | escape (read : List UInt16)
  | code (read : List UInt16) (value : Nat) (owed : Nat)
  deriving DecidableEq, Repr

/-- The tokens read, latest first, and what the reader is within. -/
structure Scanner where
  done : List Token
  within : Scanning
  deriving DecidableEq, Repr

namespace Scanner

def initial : Scanner := ⟨[], .blank⟩

def endWord : Scanner → Option Scanner
  | ⟨done, .word read⟩ => (Token.ofWord? read.reverse).map fun t => ⟨t :: done, .blank⟩
  | s => some s

def delimit (c : Char) (done : List Token) : Scanner :=
  match Token.ofMark? c with
  | some t => ⟨t :: done, .blank⟩
  | none => if c = '"' then ⟨done, .string []⟩ else ⟨done, .blank⟩

def isDelimiter (c : Char) : Bool := isSpace c || c == '"' || (Token.ofMark? c).isSome

def step : Scanner → Char → Option Scanner
  | ⟨done, .blank⟩, c =>
    if isDelimiter c then some (delimit c done) else some ⟨done, .word [c]⟩
  | ⟨done, .word read⟩, c =>
    if isDelimiter c then
      (Token.ofWord? read.reverse).map fun t => delimit c (t :: done)
    else some ⟨done, .word (c :: read)⟩
  | ⟨done, .string read⟩, c =>
    if c = '"' then some ⟨.string ⟨read.reverse⟩ :: done, .blank⟩
    else if c = '\\' then some ⟨done, .escape read⟩
    else if c.toNat < 0x20 then none
    else some ⟨done, .string ((WideText.unitsOf c).reverse ++ read)⟩
  | ⟨done, .escape read⟩, c =>
    if c = 'u' then some ⟨done, .code read 0 4⟩
    else (escaped? c).map fun e => ⟨done, .string ((WideText.unitsOf e).reverse ++ read)⟩
  | ⟨done, .code read value owed⟩, c =>
    (hexDigit? c).map fun d =>
      if owed ≤ 1 then ⟨done, .string (UInt16.ofNat (value * 16 + d) :: read)⟩
      else ⟨done, .code read (value * 16 + d) (owed - 1)⟩

def finish (s : Scanner) : Option (List Token) :=
  match s.endWord with
  | some ⟨done, .blank⟩ => some done.reverse
  | _ => none

def scan : Scanner → List Char → Option Scanner
  | s, [] => some s
  | s, c :: cs => match s.step c with
    | some s' => scan s' cs
    | none => none

@[simp] theorem scan_nil (s : Scanner) : s.scan [] = some s := rfl

theorem scan_cons (s : Scanner) (c : Char) (cs : List Char) :
    s.scan (c :: cs) = (s.step c).bind (·.scan cs) := by
  rw [scan]; cases s.step c <;> rfl

theorem scan_append (s : Scanner) (a b : List Char) :
    s.scan (a ++ b) = (s.scan a).bind (·.scan b) := by
  induction a generalizing s with
  | nil => rfl
  | cons c a ih =>
    rw [List.cons_append, scan_cons, scan_cons]
    cases s.step c with
    | none => rfl
    | some s' => exact ih s'

end Scanner

def tokens? (text : List Char) : Option (List Token) :=
  (Scanner.initial.scan text).bind Scanner.finish

end BootImage.Json
