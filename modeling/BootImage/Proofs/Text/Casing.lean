import BootImage.Text.Keyword
import Mathlib.Data.List.Forall2

/-!
# Lower case as ASCII words tell it

The Unicode standard gives every character a lower-case form, which may depend on where the
character stands. An ASCII word cannot tell much of these forms: those of `A` to `Z`, of the Kelvin
sign and of the dotted `İ` hold ASCII characters, and no other character beyond ASCII has a form
that does. So whichever way a text is brought to lower case, it becomes an ASCII word exactly if
`lowerCase` makes it that word. For a word without `i` and `k`, bringing the ASCII letters to lower
case is enough.
-/

namespace BootImage.Text

/-- What the standard says of the form that a character has in lower case, as far as ASCII goes. -/
inductive LowerForm : Char → List Char → Prop
  | ascii {c : Char} (h : c.toNat < 128) : LowerForm c [c.toLower]
  | kelvin : LowerForm '\u212a' ['k']
  | dotted : LowerForm '\u0130' ['i', '\u0307']
  | beyond {c : Char} {form : List Char} (h : 128 ≤ c.toNat) (kelvin : c ≠ '\u212a')
      (dotted : c ≠ '\u0130') (spelled : form ≠ []) (beyond : ∀ l ∈ form, 128 ≤ l.toNat) :
      LowerForm c form

/-- A way to bring texts to lower case: a form for every character of a text, where it stands. -/
structure Casing where
  forms : List Char → List (List Char)
  lowers : ∀ s, List.Forall₂ LowerForm s (forms s)

def Casing.lower (k : Casing) (s : List Char) : List Char := (k.forms s).flatten

theorem toLower_of_beyond {c : Char} (h : 128 ≤ c.toNat) : c.toLower = c := by
  apply dif_neg
  rintro ⟨-, le⟩
  have small : c.toNat ≤ 90 := le
  omega

theorem lowerForm_lowerChar (c : Char) : LowerForm c (lowerChar c) := by
  rw [lowerChar]
  split
  · next h => exact h ▸ .kelvin
  · next kelvin =>
    split
    · next h => exact h ▸ .dotted
    · next dotted =>
      by_cases h : c.toNat < 128
      · exact .ascii h
      · rw [toLower_of_beyond (Nat.le_of_not_lt h)]
        exact .beyond (Nat.le_of_not_lt h) kelvin dotted (List.cons_ne_nil _ _)
          (by simpa using Nat.le_of_not_lt h)

def Casing.plain : Casing where
  forms s := s.map lowerChar
  lowers _ := List.forall₂_map_right_iff.2 (List.forall₂_same.2 fun c _ => lowerForm_lowerChar c)

theorem LowerForm.eq_or_beyond {c : Char} {form : List Char} (h : LowerForm c form) :
    form = lowerChar c ∨ (∃ l ∈ form, 128 ≤ l.toNat) ∧ ∃ l ∈ lowerChar c, 128 ≤ l.toNat := by
  cases h with
  | ascii h =>
      have kelvin : c ≠ '\u212a' := by
        rintro rfl
        exact absurd h (by decide)
      have dotted : c ≠ '\u0130' := by
        rintro rfl
        exact absurd h (by decide)
      rw [lowerChar, if_neg kelvin, if_neg dotted]
      exact .inl rfl
  | kelvin => exact .inl rfl
  | dotted => exact .inl rfl
  | beyond h kelvin dotted spelled beyond =>
      obtain ⟨l, hl⟩ := List.exists_mem_of_ne_nil form spelled
      refine .inr ⟨⟨l, hl, beyond l hl⟩, c, ?_, h⟩
      rw [lowerChar, if_neg kelvin, if_neg dotted, toLower_of_beyond h]
      exact List.mem_singleton_self c

/-- All ways to bring a text to lower case make it the same ASCII words. -/
theorem Casing.lower_eq_iff (k : Casing) {word s : List Char} (ascii : ∀ l ∈ word, l.toNat < 128) :
    k.lower s = word ↔ lowerCase s = word := by
  have lowers := k.lowers s
  rw [lower]
  generalize k.forms s = forms at lowers ⊢
  induction lowers generalizing word with
  | nil => rfl
  | @cons c form s forms h _ ih =>
      rw [List.flatten_cons, lowerCase_cons]
      rcases h.eq_or_beyond with rfl | ⟨⟨l, hl, beyond⟩, l', hl', beyond'⟩
      · constructor
        · rintro rfl
          rw [(ih fun l hl => ascii l (List.mem_append_right _ hl)).1 rfl]
        · rintro rfl
          rw [(ih fun l hl => ascii l (List.mem_append_right _ hl)).2 rfl]
      · constructor
        · rintro rfl
          exact absurd (ascii l (List.mem_append_left _ hl)) (Nat.not_lt.2 beyond)
        · rintro rfl
          exact absurd (ascii l' (List.mem_append_left _ hl')) (Nat.not_lt.2 beyond')

/-- The letters but `i` and `k` have no capitals beyond ASCII. -/
theorem lowerChar_append_eq_cons_iff {l : Char} (hi : l ≠ 'i') (hk : l ≠ 'k')
    (ascii : l.toNat < 128) {c : Char} {s t : List Char} :
    lowerChar c ++ s = l :: t ↔ c.toLower = l ∧ s = t := by
  rw [lowerChar]
  split
  · next kelvin =>
    refine iff_of_false (by simp [hk.symm]) ?_
    rintro ⟨rfl, -⟩
    rw [kelvin] at ascii
    exact absurd ascii (by decide)
  · split
    · next dotted =>
      refine iff_of_false (by simp [hi.symm]) ?_
      rintro ⟨rfl, -⟩
      rw [dotted] at ascii
      exact absurd ascii (by decide)
    · rw [List.singleton_append, List.cons.injEq]

theorem lowerCase_eq_iff {word s : List Char}
    (plain : ∀ l ∈ word, l ≠ 'i' ∧ l ≠ 'k' ∧ l.toNat < 128) :
    lowerCase s = word ↔ s.map Char.toLower = word := by
  induction s generalizing word with
  | nil => rfl
  | cons c s ih =>
      rw [lowerCase_cons, List.map_cons]
      cases word with
      | nil =>
          have spelled : lowerChar c ≠ [] := by
            rw [lowerChar]
            split
            · simp
            · split <;> simp
          simp [spelled]
      | cons l word =>
          obtain ⟨⟨hi, hk, ascii⟩, plain⟩ := List.forall_mem_cons.1 plain
          rw [lowerChar_append_eq_cons_iff hi hk ascii, ih plain, List.cons.injEq]

end BootImage.Text
