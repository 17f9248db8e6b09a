import BootImage.Shell.Charset

/-!
# Patterns

Patterns in the manner of file names: `*` stands for any text, `?` for any character, and brackets
for one of the characters they list. A character that is quoted stands for itself.
-/

namespace BootImage.Shell.Pattern

/-- Whether a text matches a pattern; at most `n` steps are taken. -/
def matchesWithin : Nat → List Mark → List Char → Bool
  | 0, _, _ => false
  | _ + 1, [], s => s.isEmpty
  | n + 1, ('*', false) :: ms, s =>
    matchesWithin n ms s || match s with
      | [] => false
      | _ :: s => matchesWithin n (('*', false) :: ms) s
  | n + 1, ('?', false) :: ms, _ :: s => matchesWithin n ms s
  | n + 1, ('[', false) :: ms, c :: s => match Charset.read? '!' ms with
    | some (set, after) => set.has c && matchesWithin n after s
    | none => c == '[' && matchesWithin n ms s
  | n + 1, (p, _) :: ms, c :: s => p == c && matchesWithin n ms s
  | _, _, [] => false

def covers (pattern : List Mark) (s : List Char) : Bool :=
  matchesWithin (2 * (pattern.length + s.length) + 2) pattern s

def isOpen (ms : List Mark) : Bool :=
  ms.any fun m => !m.2 && (m.1 == '*' || m.1 == '?' || m.1 == '[')

/-- What is left of `s` without the shortest, or the longest, beginning that a pattern matches. -/
def trimStart (longest : Bool) (pattern : List Mark) (s : List Char) : List Char :=
  let ends := List.range (s.length + 1)
  match (if longest then ends.reverse else ends).find? fun n => covers pattern (s.take n) with
  | some n => s.drop n
  | none => s

/-- What is left of `s` without the shortest, or the longest, end that a pattern matches. -/
def trimEnd (longest : Bool) (pattern : List Mark) (s : List Char) : List Char :=
  let starts := List.range (s.length + 1)
  match (if longest then starts else starts.reverse).find? fun n => covers pattern (s.drop n) with
  | some n => s.take n
  | none => s

end BootImage.Shell.Pattern
