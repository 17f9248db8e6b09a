import BootImage.Json.Basic

/-!
# Writing JSON

`render` writes a value as JSON text without blanks. Strings keep their characters, except for
those that JSON does not allow in a string and for the line ends beyond ASCII, which are escaped so
that a written value is one line. A surrogate without its partner can only be escaped.
-/

namespace BootImage.Json

def hexDigit (n : Nat) : Char := if n < 10 then Char.ofNat (48 + n) else Char.ofNat (87 + n)

def unicodeEscape (n : Nat) : List Char :=
  ['\\', 'u', hexDigit (n / 4096 % 16), hexDigit (n / 256 % 16), hexDigit (n / 16 % 16),
    hexDigit (n % 16)]

def quoteChar (c : Char) : List Char :=
  if c = '"' then ['\\', '"']
  else if c = '\\' then ['\\', '\\']
  else if c.toNat < 0x20 ∨ c = '\u0085' ∨ c = '\u2028' ∨ c = '\u2029' then unicodeEscape c.toNat
  else [c]

def quotePart : WideText.Part → List Char
  | .char c => quoteChar c
  | .unpaired u => unicodeEscape u.toNat

def quote (s : WideText) : List Char :=
  '"' :: ((WideText.parts s.units).flatMap quotePart ++ ['"'])

mutual

def write : Json → List Char
  | .null => "null".toList
  | .bool true => "true".toList
  | .bool false => "false".toList
  | .number literal => literal.toList
  | .string s => quote s
  | .array items => '[' :: (writeItems items ++ [']'])
  | .object members => '\x7b' :: (writeMembers members ++ ['\x7d'])

def writeItems : List Json → List Char
  | [] => []
  | [d] => write d
  | d :: ds => write d ++ ',' :: writeItems ds

def writeMembers : List (WideText × Json) → List Char
  | [] => []
  | [(k, d)] => quote k ++ ':' :: write d
  | (k, d) :: ms => quote k ++ ':' :: (write d ++ ',' :: writeMembers ms)

end

def render (d : Json) : String := String.ofList (write d)

end BootImage.Json
