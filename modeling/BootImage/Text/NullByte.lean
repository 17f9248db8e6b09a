import BootImage.Text.Literal

/-!
# Texts without null bytes

The system ends a text at the character NUL, so it cannot be given one that holds it. Such a text is
refused before the system sees it, and the refusal shows the text.
-/

namespace BootImage.Text

def hasNull (s : String) : Bool := s.toList.contains '\x00'

structure NullFault where
  /-- what the text was given for -/
  role : String
  /-- whether it was given as a path, which may be written in other ways than as a text -/
  isPath : Bool
  value : String
  deriving DecidableEq, Repr

def NullFault.message (f : NullFault) : String :=
  let kinds := if f.isPath then "a string, Uint8Array, or URL" else "a string"
  s!"The {f.role} must be {kinds} without null bytes. Received {Literal.shown f.value}"

end BootImage.Text
