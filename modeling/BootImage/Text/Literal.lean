import BootImage.Text.Mention

/-!
# Texts shown as literals

When a message shows the value of a text, the text stands between quotes and everything that could
be mistaken is escaped: backslashes, the quote itself, and the control characters. The quote is `'`
unless that occurs in the text; then it is `"` or, if both occur, a backtick. A long text is cut
into its lines, each with quotes of its own, and only the beginning of a long literal is shown. Of a
very long text only the beginning is looked at.

Lengths are counted in units of sixteen bits, so a character beyond `U+FFFF` counts as two.
-/

namespace BootImage.Text

def units (c : Char) : Nat := if c.toNat < 0x10000 then 1 else 2

def length16 (s : List Char) : Nat := (s.map units).foldr Nat.add 0

/-- The first `n` units of a text. A character of which only one unit is left is replaced. -/
def take16 : Nat → List Char → List Char
  | 0, _ => []
  | _, [] => []
  | n + 1, c :: s =>
    if units c = 1 then c :: take16 n s
    else match n with
      | 0 => ['\ufffd']
      | n + 1 => c :: take16 n s

namespace Literal

def quoteFor (s : List Char) : Char :=
  if !s.contains '\'' then '\''
  else if !s.contains '"' then '"'
  else if !s.contains '\x60' && !occursIn ['$', '\x7b'] s then '\x60'
  else '\''

def hexDigit (n : Nat) : Char := "0123456789ABCDEF".toList.getD n '0'

def escape (quote c : Char) : List Char :=
  if c = quote ∧ quote = '\'' then ['\\', '\'']
  else if c = '\\' then ['\\', '\\']
  else if c = '\x08' then ['\\', 'b']
  else if c = '\t' then ['\\', 't']
  else if c = '\n' then ['\\', 'n']
  else if c = '\x0c' then ['\\', 'f']
  else if c = '\r' then ['\\', 'r']
  else if c.toNat < 0x20 ∨ (0x7f ≤ c.toNat ∧ c.toNat < 0xa0) then
    ['\\', 'x', hexDigit (c.toNat / 16), hexDigit (c.toNat % 16)]
  else [c]

def quoted (s : List Char) : List Char :=
  let quote := quoteFor s
  quote :: s.flatMap (escape quote) ++ [quote]

def lines : List Char → List (List Char)
  | [] => []
  | c :: s =>
    if c = '\n' then [c] :: lines s
    else match lines s with
      | [] => [[c]]
      | l :: ls => (c :: l) :: ls

def longestLine : Nat := 76

def longestText : Nat := 10000

def longestShown : Nat := 128

def whole (s : List Char) : List Char :=
  if length16 s ≤ longestLine then quoted s
  else " +\n  ".toList.intercalate ((lines s).map quoted)

/-- The literal of a text as a message shows it. What is not looked at would come after all that is
shown. -/
def shown (s : String) : String :=
  let literal := whole (take16 longestText s.toList)
  if length16 literal ≤ longestShown then String.ofList literal
  else String.ofList (take16 longestShown literal) ++ "..."

end Literal

theorem length16_take16_le (n : Nat) (s : List Char) : length16 (take16 n s) ≤ n := by
  fun_induction take16 n s with
  | case1 => simp [length16]
  | case2 => simp [length16]
  | case3 n c s h ih => simp [length16, h] at ih ⊢; omega
  | case4 c s h => simp [length16]; decide
  | case5 c s n h ih =>
    have : units c ≤ 2 := by unfold units; split <;> omega
    simp [length16] at ih ⊢; omega

end BootImage.Text
