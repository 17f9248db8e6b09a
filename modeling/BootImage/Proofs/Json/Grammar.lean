import BootImage.Json.Assembly

/-!
# The grammar of JSON

What a JSON text is and what it stands for, said without reading it. A text is a sequence of tokens
with blanks before, between and after them, and the tokens are derived from a value. `Lexeme` says
how a token may be spelled, `Tokens` how a sequence of tokens may be, and `Derives` which tokens are
derived from a value; what stands for something comes first, and what is written second.

Two tokens in a row that are both words need a blank between them, which `Tokens` does not ask for.
No value has such tokens, so that makes no difference to `IsText`.

A string is spelled part after part: a character as it is or by a short escape, or any one code unit
by its number. The code units of a surrogate pair may be spelled together, as the character they
are, or one by one.
-/

namespace BootImage.Json.Grammar

/-- At least one digit, and nothing else. -/
def Digits (cs : List Char) : Prop := cs ≠ [] ∧ ∀ c ∈ cs, c.isDigit = true

/-- The integer part of a number has no leading zero. -/
def IntegerPart (cs : List Char) : Prop := cs = ['0'] ∨ Digits cs ∧ cs.head? ≠ some '0'

def FractionPart (cs : List Char) : Prop := cs = [] ∨ ∃ ds, cs = '.' :: ds ∧ Digits ds

def ExponentPart (cs : List Char) : Prop :=
  cs = [] ∨ ∃ e sign ds, cs = e :: (sign ++ ds) ∧ (e = 'e' ∨ e = 'E') ∧
    (sign = [] ∨ sign = ['+'] ∨ sign = ['-']) ∧ Digits ds

/-- A number: an integer part, perhaps with a minus sign before it and with a fraction or an
exponent or both after it. -/
def Number (cs : List Char) : Prop :=
  ∃ minus int frac exp, cs = minus ++ (int ++ (frac ++ exp)) ∧ (minus = [] ∨ minus = ['-']) ∧
    IntegerPart int ∧ FractionPart frac ∧ ExponentPart exp

/-- A number below 65536, spelled by four hexadecimal digits. -/
inductive Code : Nat → List Char → Prop
  | mk {a b c d : Char} {i j k l : Nat} (ha : hexDigit? a = some i) (hb : hexDigit? b = some j)
      (hc : hexDigit? c = some k) (hd : hexDigit? d = some l) :
      Code (((i * 16 + j) * 16 + k) * 16 + l) [a, b, c, d]

def shortEscapes : List (Char × Char) :=
  [('"', '"'), ('\\', '\\'), ('/', '/'), ('b', '\x08'), ('f', '\x0c'), ('n', '\n'), ('r', '\r'),
    ('t', '\t')]

/-- Code units, spelled within the quotes of a string. -/
inductive Text : List UInt16 → List Char → Prop
  | nil : Text [] []
  | plain {c : Char} {us : List UInt16} {cs : List Char} (control : 0x20 ≤ c.toNat)
      (quote : c ≠ '"') (backslash : c ≠ '\\') (rest : Text us cs) :
      Text (WideText.unitsOf c ++ us) (c :: cs)
  | short {c e : Char} {us : List UInt16} {cs : List Char} (h : (e, c) ∈ shortEscapes)
      (rest : Text us cs) : Text (WideText.unitsOf c ++ us) ('\\' :: e :: cs)
  | code {u : Nat} {w : List Char} {us : List UInt16} {cs : List Char} (hu : Code u w)
      (rest : Text us cs) : Text (UInt16.ofNat u :: us) ('\\' :: 'u' :: (w ++ cs))

inductive Lexeme : Token → List Char → Prop
  | openObject : Lexeme .openObject ['\x7b']
  | closeObject : Lexeme .closeObject ['\x7d']
  | openArray : Lexeme .openArray ['[']
  | closeArray : Lexeme .closeArray [']']
  | comma : Lexeme .comma [',']
  | colon : Lexeme .colon [':']
  | null : Lexeme .null "null".toList
  | true : Lexeme .true "true".toList
  | false : Lexeme .false "false".toList
  | number {cs : List Char} (h : Number cs) : Lexeme (.number (String.ofList cs)) cs
  | string {us : List UInt16} {cs : List Char} (h : Text us cs) :
      Lexeme (.string ⟨us⟩) ('"' :: (cs ++ ['"']))

/-- Tokens, spelled one after the other with blanks anywhere between them. -/
inductive Tokens : List Token → List Char → Prop
  | nil : Tokens [] []
  | blank {c : Char} {ts : List Token} {cs : List Char} (h : isSpace c = true)
      (rest : Tokens ts cs) : Tokens ts (c :: cs)
  | token {t : Token} {ts : List Token} {w cs : List Char} (h : Lexeme t w)
      (rest : Tokens ts cs) : Tokens (t :: ts) (w ++ cs)

/-- What tokens are derived from: a value, the items of an array that has any, the members of an
object that has any, or a whole object with its members as they are written. -/
inductive Phrase where
  | value (d : Json)
  | items (ds : List Json)
  | members (ms : List (WideText × Json))
  | object (written : List (WideText × Json))

inductive Derives : Phrase → List Token → Prop
  | null : Derives (.value .null) [.null]
  | true : Derives (.value (.bool Bool.true)) [.true]
  | false : Derives (.value (.bool Bool.false)) [.false]
  | number (literal : String) : Derives (.value (.number literal)) [.number literal]
  | string (text : WideText) : Derives (.value (.string text)) [.string text]
  | emptyArray : Derives (.value (.array [])) [.openArray, .closeArray]
  | array {ds : List Json} {ts : List Token} (h : Derives (.items ds) ts) :
      Derives (.value (.array ds)) (.openArray :: (ts ++ [.closeArray]))
  | item {d : Json} {ts : List Token} (h : Derives (.value d) ts) : Derives (.items [d]) ts
  | nextItem {d : Json} {ds : List Json} {ts us : List Token} (h : Derives (.value d) ts)
      (rest : Derives (.items ds) us) : Derives (.items (d :: ds)) (ts ++ .comma :: us)
  | emptyObject : Derives (.object []) [.openObject, .closeObject]
  | bracedMembers {ms : List (WideText × Json)} {ts : List Token} (h : Derives (.members ms) ts) :
      Derives (.object ms) (.openObject :: (ts ++ [.closeObject]))
  | member (key : WideText) {d : Json} {ts : List Token} (h : Derives (.value d) ts) :
      Derives (.members [(key, d)]) (.string key :: .colon :: ts)
  | nextMember (key : WideText) {d : Json} {ms : List (WideText × Json)} {ts us : List Token}
      (h : Derives (.value d) ts) (rest : Derives (.members ms) us) :
      Derives (.members ((key, d) :: ms)) (.string key :: .colon :: (ts ++ .comma :: us))
  | object {written : List (WideText × Json)} {ts : List Token} (h : Derives (.object written) ts) :
      Derives (.value (.object (Members.ofList written))) ts

end Grammar

def IsText (text : String) (d : Json) : Prop :=
  ∃ ts, Grammar.Tokens ts text.toList ∧ Grammar.Derives (.value d) ts

/-- The text is a JSON object with these members, as they are written one after the other. -/
def IsObjectText (text : String) (written : List (WideText × Json)) : Prop :=
  ∃ ts, Grammar.Tokens ts text.toList ∧ Grammar.Derives (.object written) ts

end BootImage.Json
