/-!
# Blank characters

The characters that count as blank at the ends of a setting's text: the white space of the Unicode
standard, the line and paragraph separators, the five ASCII control characters that move the
position, and the byte order mark. The next-line control U+0085 and the zero width space U+200B are
not among them.
-/

namespace BootImage.Text

def isBlank (c : Char) : Bool :=
  let n := c.toNat
  (0x09 ≤ n && n ≤ 0x0D) || n == 0x20 || n == 0xA0 || n == 0x1680 ||
    (0x2000 ≤ n && n ≤ 0x200A) || n == 0x2028 || n == 0x2029 || n == 0x202F ||
    n == 0x205F || n == 0x3000 || n == 0xFEFF

def trim (s : List Char) : List Char :=
  ((s.dropWhile isBlank).reverse.dropWhile isBlank).reverse

theorem isBlank_of_isWhitespace {c : Char} (h : c.isWhitespace = true) : isBlank c = true := by
  simp only [Char.isWhitespace, Bool.or_eq_true, decide_eq_true_eq] at h
  rcases h with ((rfl | rfl) | rfl) | rfl <;> decide

@[simp] theorem trim_nil : trim [] = [] := rfl

example : isBlank '\u0085' = false ∧ isBlank '\u200b' = false ∧ isBlank '\u180e' = false := by
  decide

end BootImage.Text
