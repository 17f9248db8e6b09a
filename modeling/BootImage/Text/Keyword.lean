/-!
# Keywords in any casing

Flags and component names are ASCII words that may be written in any casing. A text is brought to
lower case before it is compared with them.

Only the characters whose lower-case form contains an ASCII character can take part in such a
match: the letters `A` to `Z`, the Kelvin sign, whose lower-case form is `k`, and the dotted capital
`İ`, whose lower-case form is `i` with a combining dot above. Every other character has a lower-case
form outside ASCII, so leaving it as it stands decides every comparison with an ASCII word alike.
-/

namespace BootImage.Text

/-- The lower-case form of one character, as far as an ASCII word can tell. -/
def lowerChar (c : Char) : List Char :=
  if c = '\u212a' then ['k']
  else if c = '\u0130' then ['i', '\u0307']
  else [c.toLower]

def lowerCase (s : List Char) : List Char := s.flatMap lowerChar

@[simp] theorem lowerCase_nil : lowerCase [] = [] := rfl

@[simp] theorem lowerCase_cons (c : Char) (s : List Char) :
    lowerCase (c :: s) = lowerChar c ++ lowerCase s := rfl

def isKeyword (word : String) (s : List Char) : Bool := lowerCase s == word.toList

end BootImage.Text
