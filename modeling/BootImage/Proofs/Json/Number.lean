import BootImage.Proofs.Json.Grammar
import Mathlib.Data.List.TakeWhile

/-!
# The literals that write numbers

The check for a number literal goes from left to right and takes digits as long as there are any.
That cuts a number where the grammar does, since neither a fraction nor an exponent begins with a
digit.
-/

namespace BootImage.Json.Number

open Grammar (Digits IntegerPart FractionPart ExponentPart)

/-- No digit comes first. -/
def EndsDigits (rest : List Char) : Prop := ∀ c ∈ rest.head?, c.isDigit = false

theorem isDigits_iff {cs : List Char} : isDigits cs = true ↔ Digits cs := by
  simp [isDigits, Digits]

theorem takeWhile_append {ds rest : List Char} (hd : ∀ c ∈ ds, c.isDigit = true)
    (hr : EndsDigits rest) : (ds ++ rest).takeWhile Char.isDigit = ds := by
  rw [List.takeWhile_append_of_pos hd]
  cases rest with
  | nil => simp
  | cons c rest => simp [hr c rfl]

theorem dropWhile_append {ds rest : List Char} (hd : ∀ c ∈ ds, c.isDigit = true)
    (hr : EndsDigits rest) : (ds ++ rest).dropWhile Char.isDigit = rest := by
  rw [List.dropWhile_append_of_pos hd]
  cases rest with
  | nil => rfl
  | cons c rest => simp [hr c rfl]

theorem endsDigits_exponent {exp : List Char} (h : ExponentPart exp) : EndsDigits exp := by
  rcases h with rfl | ⟨e, sign, ds, rfl, rfl | rfl, -, -⟩
  · simp [EndsDigits]
  · simp [EndsDigits]
  · simp [EndsDigits]

theorem endsDigits_fraction {frac exp : List Char} (h : FractionPart frac)
    (he : ExponentPart exp) : EndsDigits (frac ++ exp) := by
  rcases h with rfl | ⟨ds, rfl, -⟩
  · exact endsDigits_exponent he
  · simp [EndsDigits]

theorem isExponent_iff {cs : List Char} : isExponent cs = true ↔ ExponentPart cs := by
  constructor
  · intro h
    unfold isExponent at h
    split at h
    · exact .inl rfl
    iterate 4 exact .inr ⟨_, [_], _, rfl, by simp, by simp, isDigits_iff.1 h⟩
    iterate 2 exact .inr ⟨_, [], _, rfl, by simp, by simp, isDigits_iff.1 h⟩
    · cases h
  · rintro (rfl | ⟨e, sign, ds, rfl, he, hs, hd⟩)
    · rfl
    · have digits := isDigits_iff.2 hd
      have unsigned : ds.head? ≠ some '+' ∧ ds.head? ≠ some '-' := by
        obtain ⟨c, ds, rfl⟩ := List.exists_cons_of_ne_nil hd.1
        have digit := hd.2 c (by simp)
        constructor
        · rintro ⟨⟩
          cases digit
        · rintro ⟨⟩
          cases digit
      -- without a sign the digits come first, and the cases for a sign do not apply
      rcases he with rfl | rfl <;> rcases hs with rfl | rfl | rfl
      iterate 2
        · rw [List.nil_append]
          unfold isExponent
          split <;> simp_all
        · exact digits
        · exact digits

theorem isFraction_iff {cs : List Char} :
    isFraction cs = true ↔ ∃ frac exp, cs = frac ++ exp ∧ FractionPart frac ∧ ExponentPart exp := by
  constructor
  · intro h
    unfold isFraction at h
    split at h
    · next s =>
      rw [Bool.and_eq_true, isExponent_iff] at h
      refine ⟨'.' :: s.takeWhile Char.isDigit, s.dropWhile Char.isDigit, ?_, .inr ⟨_, rfl, ?_⟩, h.2⟩
      · simp
      · exact ⟨by simpa using h.1, fun c hc => List.mem_takeWhile_imp hc⟩
    · exact ⟨[], cs, rfl, .inl rfl, isExponent_iff.1 h⟩
  · rintro ⟨frac, exp, rfl, rfl | ⟨ds, rfl, hd⟩, he⟩
    · have exponent := isExponent_iff.2 he
      rcases he with rfl | ⟨e, sign, ds, rfl, rfl | rfl, -⟩
      · rfl
      · exact exponent
      · exact exponent
    · have ends := endsDigits_exponent he
      rw [List.cons_append, isFraction, takeWhile_append hd.2 ends, dropWhile_append hd.2 ends,
        isExponent_iff.2 he]
      simpa using hd.1

theorem isUnsigned_iff {cs : List Char} :
    isUnsigned cs = true ↔ ∃ int frac exp, cs = int ++ (frac ++ exp) ∧
      IntegerPart int ∧ FractionPart frac ∧ ExponentPart exp := by
  constructor
  · intro h
    unfold isUnsigned at h
    split at h
    · next s =>
      obtain ⟨frac, exp, rfl, hf, he⟩ := isFraction_iff.1 h
      exact ⟨['0'], frac, exp, rfl, .inl rfl, hf, he⟩
    · next c s h0 =>
      rw [Bool.and_eq_true, isFraction_iff] at h
      obtain ⟨digit, frac, exp, hs, hf, he⟩ := h
      refine ⟨c :: s.takeWhile Char.isDigit, frac, exp, ?_, .inr ⟨⟨by simp, ?_⟩, ?_⟩, hf, he⟩
      · simp [← hs]
      · rw [List.forall_mem_cons]
        exact ⟨digit, fun d hd => List.mem_takeWhile_imp hd⟩
      · simpa using h0
    · cases h
  · rintro ⟨int, frac, exp, rfl, rfl | ⟨hd, h0⟩, hf, he⟩
    · exact isFraction_iff.2 ⟨frac, exp, rfl, hf, he⟩
    · obtain ⟨c, ds, rfl⟩ := List.exists_cons_of_ne_nil hd.1
      have digits := List.forall_mem_cons.1 hd.2
      have ends := endsDigits_fraction hf he
      rw [List.cons_append, isUnsigned, dropWhile_append digits.2 ends, digits.1,
        isFraction_iff.2 ⟨frac, exp, rfl, hf, he⟩]
      · rfl
      · simpa using h0

theorem isLiteral_iff {cs : List Char} : isLiteral cs = true ↔ Grammar.Number cs := by
  constructor
  · intro h
    unfold isLiteral at h
    split at h
    · obtain ⟨int, frac, exp, rfl, parts⟩ := isUnsigned_iff.1 h
      exact ⟨['-'], int, frac, exp, rfl, .inr rfl, parts⟩
    · obtain ⟨int, frac, exp, rfl, parts⟩ := isUnsigned_iff.1 h
      exact ⟨[], int, frac, exp, rfl, .inl rfl, parts⟩
  · rintro ⟨minus, int, frac, exp, rfl, hm, parts⟩
    have unsigned := isUnsigned_iff.2 ⟨int, frac, exp, rfl, parts⟩
    rcases hm with rfl | rfl
    · rw [List.nil_append, isLiteral]
      · exact unsigned
      · rintro s hs
        rw [hs] at unsigned
        cases unsigned
    · exact unsigned

end BootImage.Json.Number
