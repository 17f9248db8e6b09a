/-!
# Number literals

The grammar of JSON numbers: an optional minus sign, an integer part without leading zeros, an
optional fraction and an optional exponent. Numbers of any length are literals.
-/

namespace BootImage.Json.Number

def isDigits (s : List Char) : Bool := !s.isEmpty && s.all Char.isDigit

/-- What may follow the fraction: nothing, or an exponent with an optional sign. -/
def isExponent : List Char → Bool
  | [] => true
  | 'e' :: '+' :: s | 'e' :: '-' :: s | 'E' :: '+' :: s | 'E' :: '-' :: s => isDigits s
  | 'e' :: s | 'E' :: s => isDigits s
  | _ => false

def isFraction : List Char → Bool
  | '.' :: s => !(s.takeWhile Char.isDigit).isEmpty && isExponent (s.dropWhile Char.isDigit)
  | s => isExponent s

def isUnsigned : List Char → Bool
  | '0' :: s => isFraction s
  | c :: s => c.isDigit && isFraction (s.dropWhile Char.isDigit)
  | [] => false

def isLiteral : List Char → Bool
  | '-' :: s => isUnsigned s
  | s => isUnsigned s

example : isLiteral "-0.50E+12".toList = true ∧ isLiteral "01".toList = false ∧
    isLiteral "1.".toList = false ∧ isLiteral "+1".toList = false ∧ isLiteral ".5".toList = false ∧
    isLiteral "-".toList = false ∧ isLiteral "1e".toList = false := by decide

end BootImage.Json.Number
