/-!
# Words within a text

Whether a word occurs somewhere in a text, as it is spelled.
-/

namespace BootImage.Text

def occursIn (word : List Char) : List Char → Bool
  | [] => word.isEmpty
  | c :: s => word.isPrefixOf (c :: s) || occursIn word s

def mentions (word text : String) : Bool := occursIn word.toList text.toList

theorem occursIn_iff (word s : List Char) : occursIn word s = true ↔ word <:+: s := by
  induction s with
  | nil => cases word <;> simp [occursIn]
  | cons c s ih => simp [occursIn, ih, List.infix_cons_iff]

end BootImage.Text
